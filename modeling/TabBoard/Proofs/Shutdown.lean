import Mathlib.Data.List.Basic
import TabBoard.Shutdown

/-!
# Hearing of the shutdown

A shutdown has coordinators, each a copy of another. Through any of them anyone may call for the
shutdown or make a guard. A guard may wait any number of times, have a wait given up, and be asked
without waiting. What is indivisible is one look at the flag (a call raises it in the same step),
one announcement, and one attempt to hear an announcement; between two such steps of one call or
guard all others may make any of theirs. So a call that finds the flag up is over before the one
that raised it has announced anything, and a guard may find the flag down and only then see it go
up.

A wait looks at the flag once. If the flag is down then the wait tries to hear; it is parked if
there is nothing to hear, and tries again when it is woken. An announcement wakes everyone who is
parked, and so does the end of the last coordinator, since there will be no announcement after it.

**Theorem (`run_signalled`).** When the call that raised the flag is over, nobody is parked, and
whoever still waits does nothing but return, or is given up. A wait that begins when the flag is up
returns at once. No wait returns before the flag is up while a coordinator is left, and the flag
stays up.

What carries the proof is what is known of those who found the flag down and may still hear
(`Stands.fresh`): nothing had been announced when they looked, so they have used up nothing, and the
one announcement that there will be is ahead of them.
-/

namespace TabBoard

namespace Shutdown

/-- An attempt to hear an announcement, without a look at the flag. -/
def Guard.hear (g : Guard) (s : Shutdown) : Bool × Guard :=
  if g.seen < s.announced then (true, ⟨g.seen + 1⟩) else (false, g)

/-- **A poll is a look at the flag, and then an attempt to hear.** -/
theorem Guard.poll_eq (g : Guard) (s : Shutdown) :
    g.poll s = if s.triggered then (true, g) else g.hear s := rfl

variable {g : Guard} {s : Shutdown}

theorem Guard.hear_of_lt (h : g.seen < s.announced) : g.hear s = (true, ⟨g.seen + 1⟩) := if_pos h

theorem Guard.hear_of_le (h : s.announced ≤ g.seen) : g.hear s = (false, g) :=
  if_neg (Nat.not_lt.2 h)

theorem Guard.hears_iff : (g.hear s).1 = true ↔ g.seen < s.announced := by
  by_cases h : g.seen < s.announced
  · simp [hear_of_lt h, h]
  · simp [hear_of_le (Nat.le_of_not_lt h), h]

/-- No more is used up than was announced. -/
theorem Guard.seen_hear (h : g.seen ≤ s.announced) : (g.hear s).2.seen ≤ s.announced := by
  by_cases hlt : g.seen < s.announced
  · rw [hear_of_lt hlt]
    exact hlt
  · rw [hear_of_le (Nat.le_of_not_lt hlt)]
    exact h

end Shutdown

namespace Signals

/-- How far a call for the shutdown is. -/
inductive Call.Phase where
  /-- About to raise the flag. -/
  | called
  /-- It raised the flag, and is about to announce the shutdown. -/
  | first
  /-- It is over, and was the one that raised the flag or was not. -/
  | over (first : Bool)
  deriving Repr, DecidableEq

/-- A call for the shutdown, through one of the coordinators. -/
structure Call where
  handle : Nat
  phase : Call.Phase
  deriving Repr, DecidableEq

/-- How far a call is that was told whether it raised the flag. -/
def Call.Phase.ofRaised : Bool → Call.Phase
  | true => .first
  | false => .over false

/-- The call found the flag down. -/
def Call.isFirst (c : Call) : Bool :=
  match c.phase with
  | .first | .over true => true
  | .called | .over false => false

/-- The call found the flag down, and is over. -/
def Call.hasAnnounced (c : Call) : Bool :=
  match c.phase with
  | .over true => true
  | .called | .first | .over false => false

/-- What is being done with a guard. -/
inductive Phase where
  /-- It listens, and the coordinator that it is made through has yet to give it the flag. -/
  | making (handle : Nat)
  | idle
  /-- A wait found the flag down, and is about to try to hear. -/
  | looked
  | parked
  | woken
  /-- It was asked and found the flag down, and is about to try to hear. -/
  | asked
  | gone
  deriving Repr, DecidableEq

/-- Someone waits with the guard. -/
def Phase.Waits : Phase → Prop
  | .looked | .parked | .woken => True
  | .making _ | .idle | .asked | .gone => False

/-- The guard found the flag down, and it is still to be seen whether there is anything to hear. -/
def Phase.Listens : Phase → Prop
  | .looked | .parked | .woken | .asked => True
  | .making _ | .idle | .gone => False

theorem Phase.Waits.listens {p : Phase} (h : p.Waits) : p.Listens := by
  cases p with
  | looked | parked | woken => trivial
  | making | idle | asked | gone => exact h.elim

/-- A guard, and what is being done with it. -/
structure Watcher where
  guard : Shutdown.Guard
  phase : Phase
  deriving Repr, DecidableEq

/-- Whoever is parked wakes up. -/
def Watcher.wake (w : Watcher) : Watcher :=
  if w.phase = .parked then { w with phase := .woken } else w

/-- What is done with a guard in one step. -/
inductive Deed where
  | made
  /-- A wait went on to hear. -/
  | looked
  | parked
  | returned
  | cancelled
  | asked
  | answered (heard : Bool)
  | dropped
  deriving Repr, DecidableEq

/-- A step in the log. Coordinators, calls and guards go by numbers. -/
inductive Entry where
  | copied (handle : Nat)
  | released (handle : Nat)
  | called (handle : Nat)
  | raised (call : Nat) (first : Bool)
  | announced (call : Nat)
  | subscribed (handle : Nat)
  | did (guard : Nat) (deed : Deed)
  deriving Repr, DecidableEq

end Signals

/-- A shutdown with its coordinators, the calls for it, and the guards. -/
structure Signals where
  shutdown : Shutdown := {}
  /-- For each coordinator that there was, whether it is left. -/
  handles : List Bool
  calls : List Signals.Call := []
  watchers : List Signals.Watcher := []
  deriving Repr, DecidableEq

namespace Signals

/-- One coordinator, which nobody has used. -/
def start : Signals where
  handles := [true]

/-- A coordinator is left. -/
def Alive (s : Signals) : Prop := true ∈ s.handles

/-- Nobody uses the coordinator. -/
def Free (s : Signals) (handle : Nat) : Prop :=
  (∀ c ∈ s.calls, c.handle = handle → ∃ first, c.phase = .over first) ∧
    ∀ w ∈ s.watchers, w.phase ≠ .making handle

def withWatcher (s : Signals) (i : Nat) (w : Watcher) : Signals :=
  { s with watchers := s.watchers.set i w }

def wake (s : Signals) : Signals := { s with watchers := s.watchers.map (·.wake) }

/-! ## Steps -/

/-- What can be done with a guard, while a coordinator is left or none is. -/
inductive Goes (s : Shutdown) (alive : Prop) : Watcher → Deed → Watcher → Prop
  | make (g : Shutdown.Guard) (handle : Nat) :
      Goes s alive ⟨g, .making handle⟩ .made ⟨g, .idle⟩
  /-- A wait that finds the flag up returns. -/
  | pass (g : Shutdown.Guard) (hup : s.triggered = true) :
      Goes s alive ⟨g, .idle⟩ .returned ⟨g, .idle⟩
  | look (g : Shutdown.Guard) (hdown : s.triggered = false) :
      Goes s alive ⟨g, .idle⟩ .looked ⟨g, .looked⟩
  | hear {g g' : Shutdown.Guard} {phase : Phase} (hwaits : phase.Waits)
      (hheard : g.hear s = (true, g')) :
      Goes s alive ⟨g, phase⟩ .returned ⟨g', .idle⟩
  /-- A wait with nothing to hear returns when there is nobody left to announce anything. -/
  | desert {g : Shutdown.Guard} {phase : Phase} (hwaits : phase.Waits)
      (hunheard : (g.hear s).1 = false) (halone : ¬ alive) :
      Goes s alive ⟨g, phase⟩ .returned ⟨g, .idle⟩
  | park {g : Shutdown.Guard} {phase : Phase} (hwaits : phase.Waits)
      (hunheard : (g.hear s).1 = false) (halive : alive) :
      Goes s alive ⟨g, phase⟩ .parked ⟨g, .parked⟩
  | cancel (g : Shutdown.Guard) {phase : Phase} (hwaits : phase.Waits) :
      Goes s alive ⟨g, phase⟩ .cancelled ⟨g, .idle⟩
  /-- A guard that is asked and finds the flag up answers. -/
  | find (g : Shutdown.Guard) (hup : s.triggered = true) :
      Goes s alive ⟨g, .idle⟩ (.answered true) ⟨g, .idle⟩
  | ask (g : Shutdown.Guard) (hdown : s.triggered = false) :
      Goes s alive ⟨g, .idle⟩ .asked ⟨g, .asked⟩
  | answer (g : Shutdown.Guard) :
      Goes s alive ⟨g, .asked⟩ (.answered (g.hear s).1) ⟨(g.hear s).2, .idle⟩
  | drop (g : Shutdown.Guard) : Goes s alive ⟨g, .idle⟩ .dropped ⟨g, .gone⟩

/-- The next step, with its entry in the log. -/
inductive Step (s : Signals) : Entry → Signals → Prop
  | copy {j : Nat} (hleft : s.handles[j]? = some true) :
      Step s (.copied j) { s with handles := s.handles ++ [true] }
  /-- A coordinator goes that is not the last one. -/
  | release {j : Nat} (hleft : s.handles[j]? = some true) (hfree : s.Free j)
      (hothers : true ∈ s.handles.set j false) :
      Step s (.released j) { s with handles := s.handles.set j false }
  /-- The last coordinator goes. -/
  | close {j : Nat} (hleft : s.handles[j]? = some true) (hfree : s.Free j)
      (hlast : true ∉ s.handles.set j false) :
      Step s (.released j) { s with handles := s.handles.set j false }.wake
  | call {j : Nat} (hleft : s.handles[j]? = some true) :
      Step s (.called j) { s with calls := s.calls ++ [⟨j, .called⟩] }
  | raise {n j : Nat} {first : Bool} {shutdown : Shutdown}
      (hcall : s.calls[n]? = some ⟨j, .called⟩)
      (htrigger : s.shutdown.trigger = (first, shutdown)) :
      Step s (.raised n first) { s with shutdown, calls := s.calls.set n ⟨j, .ofRaised first⟩ }
  | announce {n j : Nat} (hcall : s.calls[n]? = some ⟨j, .first⟩) :
      Step s (.announced n) { s with
        shutdown := s.shutdown.announce, calls := s.calls.set n ⟨j, .over true⟩ }.wake
  /-- A guard begins to listen. -/
  | subscribe {j : Nat} (hleft : s.handles[j]? = some true) :
      Step s (.subscribed j)
        { s with watchers := s.watchers ++ [⟨s.shutdown.guard, .making j⟩] }
  | go {i : Nat} {w w' : Watcher} {d : Deed} (hwatcher : s.watchers[i]? = some w)
      (hgoes : Goes s.shutdown s.Alive w d w') :
      Step s (.did i d) (s.withWatcher i w')

inductive Run (s₀ : Signals) : List Entry → Signals → Prop
  | nil : Run s₀ [] s₀
  | snoc {log : List Entry} {s : Signals} {e : Entry} {s' : Signals} (hrun : Run s₀ log s)
      (hstep : Step s e s') : Run s₀ (log ++ [e]) s'

variable {s₀ s s' : Signals} {log log' : List Entry} {e : Entry} {w w' : Watcher} {d : Deed}
  {i j n : Nat}

theorem Run.one (h : Step s e s') : Run s [e] s' := Run.nil.snoc h

/-! ## Steps that nothing comes between -/

/-- **Beginning a shutdown is the steps of a call.** -/
theorem run_begin (hleft : s.handles[j]? = some true) :
    ∃ log s', Run s log s' ∧ s'.shutdown = s.shutdown.begin := by
  have hcall : (s.calls ++ [⟨j, .called⟩])[s.calls.length]? = some ⟨j, .called⟩ := by simp
  have called := Run.one (Step.call hleft)
  cases htriggered : s.shutdown.triggered with
  | true =>
    have htrigger : s.shutdown.trigger = (false, s.shutdown.trigger.2) := by
      simp [Shutdown.trigger, htriggered]
    refine ⟨_, _, called.snoc (.raise hcall htrigger), ?_⟩
    simp [Shutdown.begin, Shutdown.trigger, htriggered]
  | false =>
    have htrigger : s.shutdown.trigger = (true, s.shutdown.trigger.2) := by
      simp [Shutdown.trigger, htriggered]
    have raised := called.snoc (.raise hcall htrigger)
    refine ⟨_, _, raised.snoc (.announce (List.getElem?_set_self (by simp))), ?_⟩
    simp [wake, Shutdown.begin, Shutdown.trigger, htriggered]

/-- **Making a guard is its two steps.** -/
theorem run_guard (hleft : s.handles[j]? = some true) :
    ∃ log, Run s log { s with watchers := s.watchers ++ [⟨s.shutdown.guard, .idle⟩] } := by
  have hwatcher : (s.watchers ++ [⟨s.shutdown.guard, .making j⟩])[s.watchers.length]? =
      some ⟨s.shutdown.guard, .making j⟩ := List.getElem?_concat_length
  have made := (Run.one (Step.subscribe hleft)).snoc (.go hwatcher (.make _ _))
  simp only [withWatcher, List.set_append_right _ _ (Nat.le_refl _), Nat.sub_self,
    List.set_cons_zero] at made
  exact ⟨_, made⟩

theorem getElem?_withWatcher (hwatcher : s.watchers[i]? = some w) (w' : Watcher) :
    (s.withWatcher i w').watchers[i]? = some w' := by
  obtain ⟨hlt, -⟩ := List.getElem?_eq_some_iff.1 hwatcher
  exact List.getElem?_set_self hlt

@[simp] theorem withWatcher_withWatcher (s : Signals) (i : Nat) (w w' : Watcher) :
    (s.withWatcher i w).withWatcher i w' = s.withWatcher i w' := by
  simp [withWatcher]

theorem withWatcher_self (hwatcher : s.watchers[i]? = some w) : s.withWatcher i w = s := by
  obtain ⟨hlt, rfl⟩ := List.getElem?_eq_some_iff.1 hwatcher
  simp [withWatcher]

/-- **Polling a wait is its look and its attempt to hear**: it is over then, or parked. -/
theorem run_poll {g : Shutdown.Guard} (hwatcher : s.watchers[i]? = some ⟨g, .idle⟩)
    (halive : s.Alive) :
    ∃ log, Run s log (s.withWatcher i
      ⟨(g.poll s.shutdown).2, if (g.poll s.shutdown).1 then .idle else .parked⟩) := by
  rw [Shutdown.Guard.poll_eq]
  cases htriggered : s.shutdown.triggered with
  | true => exact ⟨_, Run.one (.go hwatcher (.pass g htriggered))⟩
  | false =>
    have looked := Run.one (Step.go hwatcher (.look g htriggered))
    have hlooked := getElem?_withWatcher hwatcher ⟨g, .looked⟩
    by_cases hheard : g.seen < s.shutdown.announced
    · have hhear := Shutdown.Guard.hear_of_lt hheard
      have heard := looked.snoc (.go hlooked (.hear trivial hhear))
      rw [withWatcher_withWatcher] at heard
      simp only [hhear]
      exact ⟨_, heard⟩
    · have hhear := Shutdown.Guard.hear_of_le (Nat.le_of_not_lt hheard)
      have parked := looked.snoc
        (.go hlooked (.park trivial (congrArg Prod.fst hhear) halive))
      rw [withWatcher_withWatcher] at parked
      simp only [hhear]
      exact ⟨_, parked⟩

/-- **Asking a guard is its look and its attempt to hear**, too. -/
theorem run_ask {g : Shutdown.Guard} (hwatcher : s.watchers[i]? = some ⟨g, .idle⟩) :
    ∃ log, Run s (log ++ [.did i (.answered (g.poll s.shutdown).1)])
      (s.withWatcher i ⟨(g.poll s.shutdown).2, .idle⟩) := by
  rw [Shutdown.Guard.poll_eq]
  cases htriggered : s.shutdown.triggered with
  | true => exact ⟨[], Run.one (.go hwatcher (.find g htriggered))⟩
  | false =>
    have asked := Run.one (Step.go hwatcher (.ask g htriggered))
    have answered := asked.snoc (.go (getElem?_withWatcher hwatcher _) (.answer g))
    rw [withWatcher_withWatcher] at answered
    exact ⟨_, answered⟩

/-! ## Calls -/

theorem countP_set_add {α : Type} {p : α → Bool} {l : List α} {n : Nat} {a : α}
    (h : l[n]? = some a) (b : α) :
    (l.set n b).countP p + (p a).toNat = l.countP p + (p b).toNat := by
  obtain ⟨hlt, rfl⟩ := List.getElem?_eq_some_iff.1 h
  have hcounted := List.boole_getElem_le_countP (p := p) hlt
  rw [List.countP_set hlt]
  cases hold : p l[n] with
  | false => cases hnew : p b <;> simp
  | true =>
    rw [hold, if_pos rfl] at hcounted
    have hless := Nat.sub_add_cancel hcounted
    cases hnew : p b <;> simpa using hless

/-- The calls, the flag and the announcements fit together: the flag is up exactly if one call
raised it, and what was announced are the calls that did so and are over. -/
structure Balanced (log : List Entry) (s : Signals) : Prop where
  firsts : s.calls.countP (·.isFirst) = s.shutdown.triggered.toNat
  announced : s.calls.countP (·.hasAnnounced) = s.shutdown.announced
  raised : s.shutdown.triggered = true ↔ ∃ n, .raised n true ∈ log

theorem Balanced.once (h : Balanced log s) : s.shutdown.announced ≤ s.shutdown.triggered.toNat := by
  rw [← h.firsts, ← h.announced]
  refine List.countP_mono_left ?_
  rintro ⟨handle, phase⟩ - hannounced
  match phase with
  | .over true => rfl
  | .over false | .called | .first => cases hannounced

/-- **Nothing is announced while the flag is down.** -/
theorem Balanced.announced_eq_zero (h : Balanced log s) (hdown : s.shutdown.triggered = false) :
    s.shutdown.announced = 0 := by
  have honce := h.once
  rw [hdown] at honce
  exact Nat.eq_zero_of_le_zero honce

theorem Balanced.triggered (h : Balanced log s) (hannounced : 0 < s.shutdown.announced) :
    s.shutdown.triggered = true := by
  rw [← Bool.not_eq_false]
  intro hdown
  exact Nat.ne_of_gt hannounced (h.announced_eq_zero hdown)

/-- What a guard can hear was announced with the flag up. -/
theorem Balanced.triggered_of_hear (h : Balanced log s) {g : Shutdown.Guard}
    (hheard : (g.hear s.shutdown).1 = true) : s.shutdown.triggered = true :=
  h.triggered (Nat.zero_lt_of_lt (Shutdown.Guard.hears_iff.1 hheard))

theorem Balanced.announced_pos (h : Balanced log s) {c : Call} (hc : c ∈ s.calls)
    (hover : c.phase = .over true) : 0 < s.shutdown.announced := by
  rw [← h.announced, List.countP_pos_iff]
  exact ⟨c, hc, by simp [Call.hasAnnounced, hover]⟩

/-- A step in which no call takes part. -/
theorem Balanced.aside (h : Balanced log s) (hshutdown : s'.shutdown = s.shutdown)
    (hcalls : s'.calls = s.calls) (he : ∀ n, e ≠ .raised n true) : Balanced (log ++ [e]) s' := by
  refine ⟨?_, ?_, ?_⟩
  · rw [hshutdown, hcalls]
    exact h.firsts
  · rw [hshutdown, hcalls]
    exact h.announced
  · have hlog : ∀ n, .raised n true ∈ log ++ [e] ↔ .raised n true ∈ log := by
      intro n
      simp [(he n).symm]
    rw [hshutdown, h.raised]
    exact exists_congr fun n => (hlog n).symm

/-- What is counted when one call goes on. -/
theorem Balanced.set {c : Call} (h : Balanced log s) (hcall : s.calls[n]? = some c) (c' : Call) :
    (s.calls.set n c').countP (·.isFirst) + c.isFirst.toNat =
        s.shutdown.triggered.toNat + c'.isFirst.toNat ∧
      (s.calls.set n c').countP (·.hasAnnounced) + c.hasAnnounced.toNat =
        s.shutdown.announced + c'.hasAnnounced.toNat :=
  ⟨h.firsts ▸ countP_set_add hcall c', h.announced ▸ countP_set_add hcall c'⟩

theorem Balanced.step (h : Balanced log s) (hstep : Step s e s') : Balanced (log ++ [e]) s' := by
  cases hstep with
  | copy | release | close | subscribe | go => exact h.aside rfl rfl (by simp)
  | call =>
    refine ⟨?_, ?_, ?_⟩
    · rw [List.countP_append, h.firsts]
      rfl
    · rw [List.countP_append, h.announced]
      rfl
    · simpa using h.raised
  | @raise n j first shutdown hcall htrigger =>
    obtain ⟨hfirsts, hannounced⟩ := h.set hcall ⟨j, .ofRaised first⟩
    obtain ⟨rfl, rfl⟩ := Prod.mk.inj htrigger
    -- the call is the first exactly if the flag was down
    cases htriggered : s.shutdown.triggered with
    | true =>
      simp only [htriggered] at hfirsts hannounced ⊢
      obtain ⟨m, hm⟩ := h.raised.1 htriggered
      exact ⟨hfirsts, hannounced, iff_of_true rfl ⟨m, List.mem_append_left _ hm⟩⟩
    | false =>
      simp only [htriggered] at hfirsts hannounced ⊢
      have hraised : .raised n true ∈ log ++ [.raised n true] :=
        List.mem_append_right _ (List.mem_singleton_self _)
      exact ⟨hfirsts, hannounced, iff_of_true rfl ⟨n, hraised⟩⟩
  | @announce n j hcall =>
    obtain ⟨hfirsts, hannounced⟩ := h.set hcall ⟨j, .over true⟩
    refine ⟨Nat.add_right_cancel hfirsts, hannounced, ?_⟩
    simpa [wake, Shutdown.announce] using h.raised

theorem balanced_run (h : Run start log s) : Balanced log s := by
  induction h with
  | nil => exact ⟨rfl, rfl, by simp [start]⟩
  | snoc _ hstep ih => exact ih.step hstep

/-! ## Guards -/

/-- What is known of a guard. -/
structure Stands (s : Signals) (w : Watcher) : Prop where
  seen : w.guard.seen ≤ s.shutdown.announced
  /-- Whoever found the flag down has used up nothing. -/
  fresh : w.phase.Listens → w.guard.seen = 0
  /-- Whoever is parked can still be woken. -/
  parked : w.phase = .parked → s.shutdown.announced = 0 ∧ s.Alive

theorem stands_of_quiet {g : Shutdown.Guard} {phase : Phase} (hseen : g.seen ≤ s.shutdown.announced)
    (hquiet : ¬ phase.Listens) : Stands s ⟨g, phase⟩ := by
  refine ⟨hseen, fun hlistens => absurd hlistens hquiet, ?_⟩
  rintro rfl
  exact absurd trivial hquiet

/-- Nothing changes for a guard as long as nothing is announced and no last coordinator goes. -/
theorem Stands.other (h : Stands s w) (hannounced : s'.shutdown.announced = s.shutdown.announced)
    (halive : s.Alive → s'.Alive) : Stands s' w := by
  refine ⟨?_, h.fresh, ?_⟩
  · rw [hannounced]
    exact h.seen
  · intro hparked
    rw [hannounced]
    exact ⟨(h.parked hparked).1, halive (h.parked hparked).2⟩

theorem Stands.wake (h : Stands s w) (hannounced : s.shutdown.announced ≤ s'.shutdown.announced) :
    Stands s' w.wake := by
  have hseen := Nat.le_trans h.seen hannounced
  by_cases hparked : w.phase = .parked
  · rw [Watcher.wake, if_pos hparked]
    exact ⟨hseen, fun _ => h.fresh (hparked ▸ trivial), by simp⟩
  · rw [Watcher.wake, if_neg hparked]
    exact ⟨hseen, h.fresh, fun hphase => absurd hphase hparked⟩

/-- **A step of a guard.** When it finds the flag down, nothing has been announced, so it has used
up nothing; when it is parked, there was nothing to hear. -/
theorem Stands.goes (hbalanced : Balanced log s) (h : Stands s w)
    (hgoes : Goes s.shutdown s.Alive w d w') : Stands s w' := by
  have hseen := h.seen
  cases hgoes with
  | make | pass | find | drop | desert | cancel =>
    exact stands_of_quiet hseen id
  | look g hdown | ask g hdown =>
    rw [hbalanced.announced_eq_zero hdown] at hseen
    exact ⟨h.seen, fun _ => Nat.eq_zero_of_le_zero hseen, by simp⟩
  | @hear g g' phase hwaits hheard =>
    have hused := Shutdown.Guard.seen_hear hseen
    rw [hheard] at hused
    exact stands_of_quiet hused id
  | @park g phase hwaits hunheard halive =>
    have hfresh := h.fresh hwaits.listens
    have hempty : s.shutdown.announced ≤ g.seen := by
      rw [← Nat.not_lt, ← Shutdown.Guard.hears_iff, hunheard]
      exact Bool.false_ne_true
    rw [hfresh] at hempty
    exact ⟨hseen, fun _ => hfresh, fun _ => ⟨Nat.eq_zero_of_le_zero hempty, halive⟩⟩
  | answer g =>
    exact stands_of_quiet (Shutdown.Guard.seen_hear hseen) id

theorem mem_wake : w ∈ s.wake.watchers ↔ ∃ v ∈ s.watchers, v.wake = w := List.mem_map

theorem Stands.step (hbalanced : Balanced log s) (h : ∀ w ∈ s.watchers, Stands s w)
    (hstep : Step s e s') : ∀ w ∈ s'.watchers, Stands s' w := by
  intro w hw
  cases hstep with
  | copy =>
    exact (h w hw).other rfl fun halive => List.mem_append_left _ halive
  | release _ _ hothers => exact (h w hw).other rfl fun _ => hothers
  | close =>
    obtain ⟨v, hv, rfl⟩ := mem_wake.1 hw
    exact (h v hv).wake (Nat.le_refl _)
  | call => exact (h w hw).other rfl id
  | raise _ htrigger =>
    obtain ⟨-, rfl⟩ := Prod.mk.inj htrigger
    exact (h w hw).other rfl id
  | announce =>
    obtain ⟨v, hv, rfl⟩ := mem_wake.1 hw
    exact (h v hv).wake (Nat.le_succ _)
  | subscribe =>
    rcases List.mem_append.1 hw with hold | hnew
    · exact (h w hold).other rfl id
    · rw [List.mem_singleton.1 hnew]
      exact stands_of_quiet (Nat.le_refl _) id
  | @go i v v' d hwatcher hgoes =>
    rcases List.mem_or_eq_of_mem_set hw with hold | rfl
    · exact (h w hold).other rfl id
    · exact ((h v (List.mem_of_getElem? hwatcher)).goes hbalanced hgoes).other rfl id

theorem stands_run (h : Run start log s) : ∀ w ∈ s.watchers, Stands s w := by
  induction h with
  | nil => simp [start]
  | snoc hrun hstep ih => exact Stands.step (balanced_run hrun) ih hstep

/-! ## The signal -/

theorem Step.triggered (h : Step s e s') (hup : s.shutdown.triggered = true) :
    s'.shutdown.triggered = true := by
  cases h with
  | raise _ htrigger =>
    obtain ⟨-, rfl⟩ := Prod.mk.inj htrigger
    rfl
  | copy | release | close | call | announce | subscribe | go => exact hup

theorem Run.triggered (h : Run s log s') (hup : s.shutdown.triggered = true) :
    s'.shutdown.triggered = true := by
  induction h with
  | nil => exact hup
  | snoc _ hstep ih => exact hstep.triggered ih

/-- **A wait returns when the flag is up, or when no coordinator is left.** -/
theorem Goes.returned (hbalanced : Balanced log s) (h : Goes s.shutdown s.Alive w .returned w')
    (halive : s.Alive) : s.shutdown.triggered = true := by
  cases h with
  | pass _ hup => exact hup
  | hear _ hheard => exact hbalanced.triggered_of_hear (congrArg Prod.fst hheard)
  | desert _ _ halone => exact absurd halive halone

theorem Goes.answered (hbalanced : Balanced log s)
    (h : Goes s.shutdown s.Alive w (.answered true) w') : s.shutdown.triggered = true := by
  generalize hd : Deed.answered true = d at h
  cases h with
  | find _ hup => exact hup
  | answer g => exact hbalanced.triggered_of_hear (Deed.answered.inj hd).symm
  | make | pass | look | hear | desert | park | cancel | ask | drop => cases hd

/-- What holds of every log and of the state that it leads to. -/
structure Signalled (log : List Entry) (s : Signals) : Prop where
  raised : s.shutdown.triggered = true ↔ ∃ n, .raised n true ∈ log
  /-- Only one call finds the flag down, and nothing is announced twice. -/
  once : s.calls.countP (·.isFirst) ≤ 1 ∧ s.shutdown.announced ≤ 1
  /-- Nobody is parked when the call that raised the flag is over. -/
  unparked : ∀ c ∈ s.calls, c.phase = .over true → ∀ w ∈ s.watchers, w.phase ≠ .parked
  /-- Whoever still waits then can return, and does nothing else unless the wait is given up. -/
  returns : ∀ c ∈ s.calls, c.phase = .over true → ∀ i w, s.watchers[i]? = some w → w.phase.Waits →
    (∃ s', Step s (.did i .returned) s') ∧
      ∀ d s', Step s (.did i d) s' → d = .returned ∨ d = .cancelled
  /-- A wait that begins when the flag is up returns at once, whatever its guard has heard. -/
  prompt : s.shutdown.triggered = true → ∀ i w, s.watchers[i]? = some w → w.phase = .idle →
    Step s (.did i .returned) s ∧ ∀ s', ¬ Step s (.did i .looked) s'
  /-- No wait returns before the flag is up, while a coordinator is left. -/
  returned : s.Alive → ∀ i s', Step s (.did i .returned) s' → s.shutdown.triggered = true
  /-- No guard that is asked says that the shutdown began before the flag is up. -/
  answered : ∀ i s', Step s (.did i (.answered true)) s' → s.shutdown.triggered = true
  /-- Nobody is parked when no coordinator is left. -/
  deserted : ¬ s.Alive → ∀ w ∈ s.watchers, w.phase ≠ .parked
  /-- The flag stays up. -/
  latched : s.shutdown.triggered = true → ∀ log' s', Run s log' s' → s'.shutdown.triggered = true

/-- **No signal is lost**, however the steps of calls, guards and coordinators come. -/
theorem run_signalled (h : Run start log s) : Signalled log s := by
  have hbalanced := balanced_run h
  have hstands := stands_run h
  refine ⟨hbalanced.raised, ?once, ?unparked, ?returns, ?prompt, ?returned, ?answered, ?deserted,
    fun hup _ _ hrun => hrun.triggered hup⟩
  case once =>
    rw [hbalanced.firsts]
    exact ⟨Bool.toNat_le _, Nat.le_trans hbalanced.once (Bool.toNat_le _)⟩
  case unparked =>
    intro c hc hover w hw hparked
    have hsome := hbalanced.announced_pos hc hover
    have hnone := ((hstands w hw).parked hparked).1
    exact absurd hnone (Nat.ne_of_gt hsome)
  case returns =>
    intro c hc hover i w hwatcher hwaits
    -- what was announced comes after this wait's look, so it was not used up
    have hfresh := (hstands w (List.mem_of_getElem? hwatcher)).fresh hwaits.listens
    have hlt : w.guard.seen < s.shutdown.announced := by
      rw [hfresh]
      exact hbalanced.announced_pos hc hover
    refine ⟨⟨_, .go hwatcher (.hear hwaits (Shutdown.Guard.hear_of_lt hlt))⟩, ?_⟩
    intro d s' hstep
    cases hstep with
    | go hwatcher' hgoes =>
      obtain rfl := Option.some.inj (hwatcher.symm.trans hwatcher')
      cases hgoes with
      | hear | desert => exact .inl rfl
      | cancel => exact .inr rfl
      | park _ hunheard =>
        rw [Shutdown.Guard.hears_iff.2 hlt] at hunheard
        cases hunheard
      | make | pass | look | find | ask | answer | drop => exact hwaits.elim
  case prompt =>
    rintro hup i ⟨g, phase⟩ hwatcher rfl
    have hpass := Step.go hwatcher (.pass g hup)
    rw [withWatcher_self hwatcher] at hpass
    refine ⟨hpass, ?_⟩
    intro s' hstep
    cases hstep with
    | go _ hgoes =>
      cases hgoes with
      | look _ hdown =>
        rw [hup] at hdown
        cases hdown
  case returned =>
    intro halive i s' hstep
    cases hstep with
    | go _ hgoes => exact hgoes.returned hbalanced halive
  case answered =>
    intro i s' hstep
    cases hstep with
    | go _ hgoes => exact hgoes.answered hbalanced
  case deserted =>
    intro halone w hw hparked
    exact halone ((hstands w hw).parked hparked).2

/-- A guard finds the flag down before two calls come. The second is over before the first has
announced anything, and only then does the guard try to hear. It is woken by the announcement, and
when it waits again it returns at once. -/
theorem run_signalled_overtaken :
    let log := [.copied 0, .subscribed 0, .did 0 .made, .did 0 .looked, .called 0, .called 1,
      .raised 0 true, .raised 1 false, .did 0 .parked, .announced 0, .did 0 .returned,
      .did 0 .returned]
    ∃ s, Run start log s ∧ s.watchers = [⟨⟨1⟩, .idle⟩] ∧ Signalled log s := by
  have copied := Run.one (Step.copy (s := start) (j := 0) rfl)
  have subscribed := copied.snoc (.subscribe (j := 0) rfl)
  have made := subscribed.snoc (.go (i := 0) rfl (.make _ _))
  have looked := made.snoc (.go (i := 0) rfl (.look _ rfl))
  have called := (looked.snoc (.call (j := 0) rfl)).snoc (.call (j := 1) rfl)
  have raised := (called.snoc (.raise (n := 0) rfl rfl)).snoc (.raise (n := 1) rfl rfl)
  have parked := raised.snoc (.go (i := 0) rfl (.park trivial rfl (List.mem_cons_self ..)))
  have announced := parked.snoc (.announce (n := 0) rfl)
  have heard := announced.snoc (.go (i := 0) rfl (.hear trivial rfl))
  have again := heard.snoc (.go (i := 0) rfl (.pass _ rfl))
  exact ⟨_, again, rfl, run_signalled again⟩

end Signals

end TabBoard
