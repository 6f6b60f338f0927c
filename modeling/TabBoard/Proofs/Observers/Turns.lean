import TabBoard.Delivery.Observers
import Mathlib.Data.List.Basic
import Mathlib.Data.List.Range

/-!
# Turns of handlers

`notify` runs handlers one after another. Seen from outside each of them takes a turn, and goes on
with what the one before left (`Course`). The turns end early where something escapes: where the
panic of a handler breaks off in turn when it is disposed of. They cover the handlers up to there
(`reached_takeTurns`), and what escapes is what `notify` comes to, or else the number of handlers
that did not break off (`outcome_takeTurns`).
-/

namespace TabBoard

variable {η σ : Type} {run : η → σ → Option Panic × σ} {note : Nat → Panic → σ → σ} {s s' : σ}

/-- One handler's turn. -/
structure Turn (η σ : Type) where
  handler : η
  before : σ
  ending : Option Panic
  after : σ

/-- What a turn leaves to the next one: a handler that broke off is noted. -/
def Turn.left (note : Nat → Panic → σ → σ) (pos : Nat) (t : Turn η σ) : σ :=
  match t.ending with
  | none => t.after
  | some p => note pos p t.after

/-- Handlers take turns, the first of them at position `pos`, and each goes on with what the one
before left. -/
inductive Course (run : η → σ → Option Panic × σ) (note : Nat → Panic → σ → σ) :
    Nat → σ → List (Turn η σ) → σ → Prop
  | nil (pos : Nat) (s : σ) : Course run note pos s [] s
  | cons {pos : Nat} {t : Turn η σ} {turns : List (Turn η σ)} {s' : σ} :
      run t.handler t.before = (t.ending, t.after) →
      Course run note (pos + 1) (t.left note pos) turns s' →
      Course run note pos t.before (t :: turns) s'

/-- The positions of the turns that broke off, the first turn being at position `pos`. -/
def breaks (pos : Nat) (turns : List (Turn η σ)) : List (Nat × Panic) :=
  (turns.zipIdx pos).filterMap fun t => t.1.ending.map (t.2, ·)

theorem breaks_cons (pos : Nat) (t : Turn η σ) (turns : List (Turn η σ)) :
    breaks pos (t :: turns) =
      (t.ending.map (pos, ·)).toList ++ breaks (pos + 1) turns := by
  cases h : t.ending <;> simp [breaks, List.zipIdx_cons, h]

/-- What escapes when the panic of a turn is disposed of. -/
def Turn.escape? (t : Turn η σ) : Option Panic := t.ending.bind Panic.disposal?

/-- The turns that handlers take, up to one from which something escapes. -/
def takeTurns (run : η → σ → Option Panic × σ) (note : Nat → Panic → σ → σ) :
    Nat → List η → σ → List (Turn η σ)
  | _, [], _ => []
  | pos, h :: hs, s =>
    let t : Turn η σ := ⟨h, s, (run h s).1, (run h s).2⟩
    t :: if t.escape?.isSome then [] else takeTurns run note (pos + 1) hs (t.left note pos)

/-- What turns come to: what escapes from one of them, or how many did not break off. -/
def outcome (turns : List (Turn η σ)) : Except Panic Nat :=
  match turns.findSome? Turn.escape? with
  | some p => .error p
  | none => .ok (turns.countP (·.ending.isNone))

theorem outcome_of_none {turns : List (Turn η σ)} (h : ∀ t ∈ turns, t.escape? = none) :
    outcome turns = .ok (turns.countP (·.ending.isNone)) := by
  rw [outcome, List.findSome?_eq_none_iff.2 h]

theorem outcome_cons_of_none {t : Turn η σ} (h : t.escape? = none) (turns : List (Turn η σ)) :
    outcome (t :: turns) =
      (outcome turns).map (· + if t.ending.isNone then 1 else 0) := by
  rw [outcome, outcome, List.findSome?_cons, h, List.countP_cons]
  cases turns.findSome? Turn.escape? <;> rfl

/-- A handler runs and the others after it, unless something escapes from its turn. -/
theorem notify_cons (pos : Nat) (h : η) (hs : List η) (s : σ) {t : Turn η σ}
    (ht : t = ⟨h, s, (run h s).1, (run h s).2⟩) :
    notify run note pos (h :: hs) s =
      match t.escape? with
      | some q => (.error q, t.left note pos)
      | none =>
        ((notify run note (pos + 1) hs (t.left note pos)).1.map
            (· + if t.ending.isNone then 1 else 0),
          (notify run note (pos + 1) hs (t.left note pos)).2) := by
  subst ht
  rw [notify]
  rcases run h s with ⟨_ | p, after⟩
  · rfl
  · simp only [Turn.escape?, Option.bind_some, Turn.left]
    cases p.disposal? with
    | some q => rfl
    | none =>
      cases hrest : (notify run note (pos + 1) hs (note pos p after)).1 with
      | error q => simp [Except.map, ← hrest]
      | ok n => simp [Except.map, ← hrest]

/-- **Every handler takes one turn, in order**, until something escapes. -/
theorem course_takeTurns (run : η → σ → Option Panic × σ) (note : Nat → Panic → σ → σ) (pos : Nat)
    (hs : List η) (s : σ) :
    Course run note pos s (takeTurns run note pos hs s) (notify run note pos hs s).2 := by
  induction hs generalizing pos s with
  | nil => exact .nil pos s
  | cons h hs ih =>
    rw [notify_cons pos h hs s rfl, takeTurns]
    refine .cons (t := ⟨h, s, (run h s).1, (run h s).2⟩) rfl ?_
    cases (⟨h, s, (run h s).1, (run h s).2⟩ : Turn η σ).escape? with
    | some q => exact .nil _ _
    | none => exact ih _ _

/-- Those that do not break off are counted. -/
theorem outcome_takeTurns (run : η → σ → Option Panic × σ) (note : Nat → Panic → σ → σ)
    (pos : Nat) (hs : List η) (s : σ) :
    (notify run note pos hs s).1 = outcome (takeTurns run note pos hs s) := by
  induction hs generalizing pos s with
  | nil => rfl
  | cons h hs ih =>
    rw [notify_cons pos h hs s rfl, takeTurns]
    cases hescape : (⟨h, s, (run h s).1, (run h s).2⟩ : Turn η σ).escape? with
    | some q => simp [outcome, hescape]
    | none =>
      simp only [Option.isSome_none, Bool.false_eq_true, if_false]
      rw [outcome_cons_of_none hescape, ← ih]

/-- The handlers `ran` of a snapshot took a turn, the first of them at position `pos`, and some
`broke` off. Nothing but what escapes keeps others from theirs. -/
structure Reached (pos : Nat) (snapshot ran : List η) (broke : List (Nat × Panic)) : Prop where
  front : ran <+: snapshot
  positions : (broke.map Prod.fst).Sublist (List.range' pos ran.length)
  /-- What escapes ends it. -/
  last : ∀ x ∈ broke, x.2.disposal? ≠ none → x.1 + 1 = pos + ran.length
  whole : (∀ x ∈ broke, x.2.disposal? = none) → ran = snapshot

theorem Reached.cons {pos : Nat} {snapshot ran : List η} {broke : List (Nat × Panic)}
    (h : Reached (pos + 1) snapshot ran broke) (η₀ : η) {ending : Option Panic}
    (hending : ending.bind Panic.disposal? = none) :
    Reached pos (η₀ :: snapshot) (η₀ :: ran) ((ending.map (pos, ·)).toList ++ broke) where
  front := List.cons_prefix_cons.2 ⟨rfl, h.front⟩
  positions := by
    rw [List.length_cons, List.range'_succ]
    cases ending with
    | none => exact h.positions.cons pos
    | some p => exact h.positions.cons_cons pos
  last := by
    intro x hx hdisposal
    have hlater : x ∈ broke := by
      cases ending with
      | none => exact hx
      | some p =>
        obtain rfl | hx := List.mem_cons.1 hx
        · exact absurd hending hdisposal
        · exact hx
    have hlast := h.last x hlater hdisposal
    rw [List.length_cons]
    omega
  whole hall := by rw [h.whole fun x hx => hall x (List.mem_append_right _ hx)]

theorem reached_takeTurns (run : η → σ → Option Panic × σ) (note : Nat → Panic → σ → σ)
    (pos : Nat) (hs : List η) (s : σ) :
    Reached pos hs ((takeTurns run note pos hs s).map Turn.handler)
      (breaks pos (takeTurns run note pos hs s)) := by
  induction hs generalizing pos s with
  | nil => exact ⟨List.prefix_rfl, List.Sublist.refl _, by simp [takeTurns, breaks], fun _ => rfl⟩
  | cons h hs ih =>
    rw [takeTurns, List.map_cons, breaks_cons]
    cases hescape : (⟨h, s, (run h s).1, (run h s).2⟩ : Turn η σ).escape? with
    | none => exact (ih (pos + 1) _).cons h hescape
    | some q =>
      obtain ⟨p, hp, hdisposal⟩ := Option.bind_eq_some_iff.1 hescape
      have hp : (run h s).1 = some p := hp
      simp only [Option.isSome_some, if_true, List.map_nil, hp]
      change Reached pos (h :: hs) [h] [(pos, p)]
      refine ⟨by simp, List.Sublist.refl _, ?_, ?_⟩
      · intro x hx _
        rw [List.mem_singleton.1 hx]
        rfl
      · intro hall
        exact absurd ((hall (pos, p) List.mem_cons_self).symm.trans hdisposal) (by simp)

end TabBoard
