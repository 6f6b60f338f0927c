import TabBoard.Cluster.Rollout
import Mathlib.Data.List.Basic

/-!
# What moves a verdict

A verdict compares generations and counts, and looks for conditions that halt the rollout or report
it available. So it depends on the conditions only through two questions (`Halted`, `Confirmed`),
and each of the comparisons goes one way.

**Theorem (`verdict_steady`).** What is settled for a generation is settled for every earlier one.
Order does not matter among conditions, and neither do conditions of other kinds or of earlier
generations. Higher counts do not undo readiness, and whatever failed says why.
-/

namespace TabBoard

/-- Which of the three answers a verdict gives. -/
inductive Verdict.Kind where
  | pending
  | ready
  | failed
  deriving Repr, DecidableEq

/-- The answer without the cause of a failure. -/
def Verdict.kind : Verdict → Verdict.Kind
  | .pending => .pending
  | .ready => .ready
  | .failed _ => .failed

namespace Deployment

variable {d : Deployment} {p : Progress} {c : Condition} {cs : List Condition}
  {old target : Int}

def conditions (d : Deployment) : List Condition := (d.progress.map (·.conditions)).getD []

/-! ## The two questions -/

/-- Some condition says that the rollout stands still. -/
def Halted (d : Deployment) (target : Int) : Prop := ∃ c ∈ d.conditions, c.halts target = true

/-- Some condition says that the target generation is available. -/
def Confirmed (d : Deployment) (target : Int) : Prop :=
  ∃ c ∈ d.conditions, c.available target = true

/-- The counts speak of the target generation and reach the number wanted. -/
def Counted (d : Deployment) (target : Int) : Prop :=
  ∃ p, d.progress = some p ∧ p.observes target = true ∧ p.reaches d.wanted = true

theorem failure_isSome_iff : (d.failure target).isSome = true ↔ d.Halted target := by
  unfold failure Halted conditions
  cases d.progress with
  | none => simp
  | some p => simp [List.find?_isSome]

theorem ready_iff : d.ready target = true ↔ d.Confirmed target ∨ d.Counted target := by
  unfold ready Confirmed Counted conditions
  cases d.progress with
  | none => simp
  | some p => simp

theorem kind_failed_iff : (d.verdict target).kind = .failed ↔ d.Halted target := by
  rw [← failure_isSome_iff, verdict]
  cases d.failure target with
  | some cause => simp [Verdict.kind]
  | none => cases d.ready target <;> simp [Verdict.kind]

theorem kind_ready_iff : (d.verdict target).kind = .ready ↔
    ¬ d.Halted target ∧ (d.Confirmed target ∨ d.Counted target) := by
  rw [← failure_isSome_iff, ← ready_iff, verdict]
  cases d.failure target with
  | some cause => simp [Verdict.kind]
  | none => cases d.ready target <;> simp [Verdict.kind]

theorem verdict_ready_iff : d.verdict target = .ready ↔
    ¬ d.Halted target ∧ (d.Confirmed target ∨ d.Counted target) := by
  rw [← kind_ready_iff]
  cases d.verdict target <;> simp [Verdict.kind]

theorem verdict_pending_iff : d.verdict target = .pending ↔
    d.failure target = none ∧ d.ready target = false := by
  rw [verdict]
  cases d.failure target with
  | some cause => simp
  | none => cases d.ready target <;> simp

/-- **Two objects get the same kind of verdict if they answer the same questions alike.** -/
theorem kind_congr {d' : Deployment} {target' : Int}
    (hhalted : d'.Halted target' ↔ d.Halted target)
    (hready : d'.Confirmed target' ∨ d'.Counted target' ↔ d.Confirmed target ∨ d.Counted target) :
    (d'.verdict target').kind = (d.verdict target).kind := by
  have hfailed : (d'.verdict target').kind = .failed ↔ d'.Halted target' := kind_failed_iff
  have hready' : (d'.verdict target').kind = .ready ↔
      ¬ d'.Halted target' ∧ (d'.Confirmed target' ∨ d'.Counted target') := kind_ready_iff
  rw [hhalted, ← kind_failed_iff] at hfailed
  rw [hhalted, hready, ← kind_ready_iff] at hready'
  cases hk : (d.verdict target).kind with
  | failed => exact hfailed.2 hk
  | ready => exact hready'.2 hk
  | pending =>
    rw [hk] at hfailed hready'
    cases hk' : (d'.verdict target').kind with
    | pending => rfl
    | ready => exact absurd (hready'.1 hk') (by decide)
    | failed => exact absurd (hfailed.1 hk') (by decide)

/-! ## Generations -/

theorem Condition.concerns_iff :
    c.concerns target = true ↔ ∀ g, c.generation = some g → target ≤ g := by
  unfold Condition.concerns
  cases c.generation <;> simp

theorem Condition.confirms_iff :
    c.confirms target = true ↔ ∃ g, c.generation = some g ∧ target ≤ g := by
  unfold Condition.confirms
  cases c.generation <;> simp

theorem Progress.observes_iff :
    p.observes target = true ↔ ∃ g, p.generation = some g ∧ target ≤ g := by
  unfold Progress.observes
  cases p.generation <;> simp

theorem Condition.halts_iff : c.halts target = true ↔
    c.kind = "Progressing" ∧ (∀ g, c.generation = some g → target ≤ g) ∧ c.isFalse = true := by
  rw [Condition.halts, Bool.and_eq_true, Bool.and_eq_true, beq_iff_eq, Condition.concerns_iff,
    and_assoc]

theorem Condition.available_iff : c.available target = true ↔
    c.kind = "Available" ∧ c.isTrue = true ∧ ∃ g, c.generation = some g ∧ target ≤ g := by
  rw [Condition.available, Bool.and_eq_true, Bool.and_eq_true, beq_iff_eq, Condition.confirms_iff,
    and_assoc]

/-! ## Earlier generations -/

theorem Halted.of_le (h : d.Halted target) (hle : old ≤ target) : d.Halted old := by
  obtain ⟨c, hmem, hhalts⟩ := h
  obtain ⟨hkind, hconcerns, hfalse⟩ := Condition.halts_iff.1 hhalts
  have hold : ∀ g, c.generation = some g → old ≤ g := fun g hg => Int.le_trans hle (hconcerns g hg)
  exact ⟨c, hmem, Condition.halts_iff.2 ⟨hkind, hold, hfalse⟩⟩

theorem Confirmed.of_le (h : d.Confirmed target) (hle : old ≤ target) : d.Confirmed old := by
  obtain ⟨c, hmem, havailable⟩ := h
  obtain ⟨hkind, htrue, g, hg, hreached⟩ := Condition.available_iff.1 havailable
  exact ⟨c, hmem, Condition.available_iff.2 ⟨hkind, htrue, g, hg, Int.le_trans hle hreached⟩⟩

theorem Counted.of_le (h : d.Counted target) (hle : old ≤ target) : d.Counted old := by
  obtain ⟨p, hp, hobserves, hreaches⟩ := h
  obtain ⟨g, hg, hreached⟩ := Progress.observes_iff.1 hobserves
  exact ⟨p, hp, Progress.observes_iff.2 ⟨g, hg, Int.le_trans hle hreached⟩, hreaches⟩

theorem ready_of_le (h : d.ready target = true) (hle : old ≤ target) : d.ready old = true := by
  rw [ready_iff] at h ⊢
  exact h.imp (·.of_le hle) (·.of_le hle)

theorem failure_of_le (h : (d.failure target).isSome = true) (hle : old ≤ target) :
    (d.failure old).isSome = true := by
  rw [failure_isSome_iff] at h ⊢
  exact h.of_le hle

/-! ## Other conditions -/

/-- The object with other conditions. Reporting any makes a report. -/
def withConditions (d : Deployment) (cs : List Condition) : Deployment :=
  { d with progress := some { d.progress.getD {} with conditions := cs } }

/-- The condition is of another kind, or speaks of an earlier generation. -/
def Condition.Aside (c : Condition) (target : Int) : Prop :=
  c.kind ≠ "Progressing" ∧ c.kind ≠ "Available" ∨ ∃ g, c.generation = some g ∧ g < target

theorem Condition.Aside.not_halts (h : c.Aside target) : ¬ c.halts target = true := by
  rw [Condition.halts_iff]
  rintro ⟨hkind, hconcerns, -⟩
  obtain ⟨hother, -⟩ | ⟨g, hg, hlt⟩ := h
  · exact hother hkind
  · exact Int.not_le.2 hlt (hconcerns g hg)

theorem Condition.Aside.not_available (h : c.Aside target) : ¬ c.available target = true := by
  rw [Condition.available_iff]
  rintro ⟨hkind, -, g, hg, hreached⟩
  obtain ⟨-, hother⟩ | ⟨g', hg', hlt⟩ := h
  · exact hother hkind
  · obtain rfl : g' = g := Option.some.inj (hg'.symm.trans hg)
    exact Int.not_le.2 hlt hreached

theorem counted_withConditions : (d.withConditions cs).Counted target ↔ d.Counted target := by
  unfold Counted withConditions wanted
  cases hp : d.progress with
  | none => simp [Progress.observes]
  | some p => simp [Progress.observes, Progress.reaches, Progress.counts]

/-- A question that no added condition answers is answered as before. -/
theorem exists_mem_withConditions {added : List Condition} {q : Condition → Prop}
    (hcs : cs.Perm (d.conditions ++ added)) (hadded : ∀ c ∈ added, ¬ q c) :
    (∃ c ∈ cs, q c) ↔ ∃ c ∈ d.conditions, q c := by
  constructor
  · rintro ⟨c, hc, hq⟩
    have hmem : c ∈ d.conditions ∨ c ∈ added := List.mem_append.1 (hcs.mem_iff.1 hc)
    exact ⟨c, hmem.resolve_right fun hnew => hadded c hnew hq, hq⟩
  · rintro ⟨c, hc, hq⟩
    exact ⟨c, hcs.mem_iff.2 (List.mem_append_left _ hc), hq⟩

/-- **The kind of the verdict stays the same if conditions change places, and if conditions come in
that are aside.** -/
theorem kind_withConditions {added : List Condition} (hcs : cs.Perm (d.conditions ++ added))
    (hadded : ∀ c ∈ added, c.Aside target) :
    ((d.withConditions cs).verdict target).kind = (d.verdict target).kind := by
  have hhalted : (d.withConditions cs).Halted target ↔ d.Halted target :=
    exists_mem_withConditions hcs fun c hc => (hadded c hc).not_halts
  have hconfirmed : (d.withConditions cs).Confirmed target ↔ d.Confirmed target :=
    exists_mem_withConditions hcs fun c hc => (hadded c hc).not_available
  exact kind_congr hhalted (or_congr hconfirmed counted_withConditions)

/-! ## Higher counts -/

/-- The object with other counts of what is ready, available and updated. -/
def withCounts (d : Deployment) (ready available updated : Option Int) : Deployment :=
  { d with progress := d.progress.map ({ · with ready, available, updated }) }

/-- The same counts are there, and none is lower. -/
structure Progress.Raised (p : Progress) (ready available updated : Option Int) : Prop where
  ready : Option.Rel (· ≤ ·) p.ready ready
  available : Option.Rel (· ≤ ·) p.available available
  updated : Option.Rel (· ≤ ·) p.updated updated

theorem isNone_of_rel {a b : Option Int} (h : Option.Rel (· ≤ ·) a b) : b.isNone = a.isNone := by
  cases h <;> rfl

theorem all_le_of_rel {a b : Option Int} {n : Int} (h : Option.Rel (· ≤ ·) a b)
    (ha : a.all (fun i => decide (n ≤ i)) = true) : b.all (fun i => decide (n ≤ i)) = true := by
  cases h with
  | none => rfl
  | some hle =>
    have hn := of_decide_eq_true ha
    exact decide_eq_true (Int.le_trans hn hle)

theorem any_lt_of_rel {a b : Option Int} {n : Int} (h : Option.Rel (· ≤ ·) a b)
    (ha : a.any (fun i => decide (n < i)) = true) : b.any (fun i => decide (n < i)) = true := by
  cases h with
  | none => exact ha
  | some hle =>
    have hn := of_decide_eq_true ha
    exact decide_eq_true (Int.lt_of_lt_of_le hn hle)

variable {ready available updated : Option Int}

/-- **Counts that are reached stay reached when they rise.** -/
theorem Progress.Raised.reaches (h : p.Raised ready available updated) (wanted : Option Int)
    (hreaches : p.reaches wanted = true) :
    { p with ready, available, updated }.reaches wanted = true := by
  cases wanted with
  | none =>
    simp only [Progress.reaches, List.any_cons, List.any_nil, Bool.or_false, Bool.or_eq_true]
      at hreaches ⊢
    exact hreaches.imp (any_lt_of_rel h.ready) (any_lt_of_rel h.available)
  | some n =>
    simp only [Progress.reaches, Progress.counts, List.any_cons, List.all_cons, List.any_nil,
      List.all_nil, Bool.and_eq_true, Bool.and_true] at hreaches ⊢
    obtain ⟨hthere, hready, havailable, hupdated⟩ := hreaches
    refine ⟨?_, all_le_of_rel h.ready hready, all_le_of_rel h.available havailable,
      all_le_of_rel h.updated hupdated⟩
    rwa [isNone_of_rel h.ready, isNone_of_rel h.available, isNone_of_rel h.updated]

theorem verdict_withCounts (h : ∀ p, d.progress = some p → p.Raised ready available updated)
    (hready : d.verdict target = .ready) :
    (d.withCounts ready available updated).verdict target = .ready := by
  rw [verdict_ready_iff] at hready ⊢
  have hconditions : (d.withCounts ready available updated).conditions = d.conditions := by
    cases hp : d.progress <;> simp [withCounts, conditions, hp]
  have hcounted : d.Counted target → (d.withCounts ready available updated).Counted target := by
    rintro ⟨p, hp, hobserves, hreaches⟩
    refine ⟨{ p with ready, available, updated }, by simp [withCounts, hp], hobserves, ?_⟩
    have hwanted : (d.withCounts ready available updated).wanted = d.wanted := by
      simp [withCounts, wanted, hp]
    rw [hwanted]
    exact (h p hp).reaches _ hreaches
  unfold Halted Confirmed at hready ⊢
  rw [hconditions]
  exact ⟨hready.1, hready.2.imp id hcounted⟩

/-! ## Causes -/

theorem nonEmpty_ne {s : Option String} {t : String} (h : nonEmpty s = some t) : t ≠ "" := by
  rw [nonEmpty, Option.filter_eq_some_iff] at h
  exact of_decide_eq_true h.2

theorem cause_ne_empty (c : Condition) : c.cause ≠ "" := by
  rw [Condition.cause]
  generalize hdetail :
    ((nonEmpty c.message).orElse fun _ => nonEmpty c.reason).getD "rollout halted" = detail
  have hne : detail ≠ "" := by
    subst hdetail
    cases hmessage : nonEmpty c.message with
    | some message => exact nonEmpty_ne hmessage
    | none =>
      cases hreason : nonEmpty c.reason with
      | some reason => exact nonEmpty_ne hreason
      | none => decide
  split_ifs
  · decide
  · simp only [ne_eq, String.append_eq_empty_iff, not_and]
    exact fun _ => hne
  · exact hne

theorem failure_of_failed {cause : String} (h : d.verdict target = .failed cause) :
    d.failure target = some cause := by
  rw [verdict] at h
  cases hfailure : d.failure target with
  | some cause' =>
    rw [hfailure] at h
    exact congrArg some (Verdict.failed.inj h)
  | none =>
    rw [hfailure] at h
    cases hready : d.ready target <;> simp [hready] at h

theorem exists_of_failure {cause : String} (h : d.failure target = some cause) :
    ∃ c ∈ d.conditions, c.halts target = true ∧ c.cause = cause := by
  unfold failure at h
  cases hp : d.progress with
  | none => simp [hp] at h
  | some p =>
    rw [hp] at h
    obtain ⟨c, hfind, hcause⟩ := Option.map_eq_some_iff.1 h
    have hmem : c ∈ d.conditions := by
      simpa [conditions, hp] using List.mem_of_find?_eq_some hfind
    exact ⟨c, hmem, by simpa using List.find?_some hfind, hcause⟩

/-! ## The verdict -/

/-- **What does not move a verdict, and what moves it one way only.** -/
structure Steady (d : Deployment) : Prop where
  /-- Who is ready for a generation is ready for every earlier one. -/
  ready : ∀ {old target : Int}, old ≤ target → d.ready target = true → d.ready old = true
  /-- A failure for a generation is one for every earlier one. -/
  failure : ∀ {old target : Int}, old ≤ target → (d.failure target).isSome = true →
    (d.failure old).isSome = true
  /-- What is settled for a generation is settled for every earlier one. -/
  settled : ∀ {old target : Int}, old ≤ target → d.verdict target ≠ .pending →
    d.verdict old ≠ .pending
  /-- Conditions can change places. -/
  order : ∀ (target : Int) {cs : List Condition}, cs.Perm d.conditions →
    ((d.withConditions cs).verdict target).kind = (d.verdict target).kind
  /-- Conditions of other kinds or of earlier generations can come in anywhere. -/
  added : ∀ (target : Int) {cs added : List Condition}, cs.Perm (d.conditions ++ added) →
    (∀ c ∈ added, c.Aside target) →
    ((d.withConditions cs).verdict target).kind = (d.verdict target).kind
  /-- Counts that are there can rise. -/
  raised : ∀ (target : Int) {ready available updated : Option Int},
    (∀ p, d.progress = some p → p.Raised ready available updated) →
    d.verdict target = .ready → (d.withCounts ready available updated).verdict target = .ready
  /-- A failure has a cause, in the words of a condition that halts the rollout. -/
  cause : ∀ (target : Int) {cause : String}, d.verdict target = .failed cause →
    cause ≠ "" ∧ ∃ c ∈ d.conditions, c.halts target = true ∧ c.cause = cause

theorem verdict_steady (d : Deployment) : Steady d where
  ready hle h := ready_of_le h hle
  failure hle h := failure_of_le h hle
  settled := by
    intro old target hle h hpending
    obtain ⟨hfailure, hready⟩ := verdict_pending_iff.1 hpending
    refine h (verdict_pending_iff.2 ⟨?_, ?_⟩)
    · by_contra hsome
      have hold := failure_of_le (Option.isSome_iff_ne_none.2 hsome) hle
      rw [hfailure] at hold
      cases hold
    · by_contra hnot
      have hold := ready_of_le ((Bool.not_eq_false _).mp hnot) hle
      rw [hready] at hold
      cases hold
  order target cs hcs := by
    have hperm : cs.Perm (d.conditions ++ []) := by rwa [List.append_nil]
    exact kind_withConditions hperm (by simp)
  added target _ _ hcs hadded := kind_withConditions hcs hadded
  raised target _ _ _ h hready := verdict_withCounts h hready
  cause := by
    intro target cause h
    obtain ⟨c, hmem, hhalts, rfl⟩ := exists_of_failure (failure_of_failed h)
    exact ⟨cause_ne_empty c, c, hmem, hhalts, rfl⟩

end Deployment

end TabBoard
