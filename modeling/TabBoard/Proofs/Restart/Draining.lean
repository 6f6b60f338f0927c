import TabBoard.Proofs.Moves
import TabBoard.Proofs.Restart.Exclusion

/-!
# Waiting until no restart is under way

Any number of calls wait until no restart is under way, while restarts are asked for, worked off and
set free. A deployment is set free in two steps, and whatever else happens may happen between them;
the same holds between any two steps of those who wait.

**Theorem (`run_drained`).** A call that returns with success saw a moment at which nothing was
under way and every restart that had been accepted had published its outcome. Nobody sleeps on:
whoever is parked while nothing is under way has heard the bell, or someone is about to ring it
(`Drained`).

Both are invariants. What a call found is remembered with the moment of it (`Found`). And whoever is
parked without having heard the bell began to listen before they looked; so the deployment that they
saw is still under way, or the bell is still to be rung for the last one (`Step.owed`).
-/

namespace TabBoard

namespace Drains

open Restart (Bell)

/-- How far a call is that waits. -/
inductive Phase where
  /-- About to listen. -/
  | ready
  /-- About to look. -/
  | listening (l : Bell.Listener)
  | waiting (w : Bell.Waiter)
  deriving Repr, DecidableEq

/-- A call that waits. -/
structure Waiter where
  number : Nat
  phase : Phase
  deriving Repr, DecidableEq

/-- A step in the log. -/
inductive Entry where
  | restart (e : Restarts.Entry)
  | rang (left : Nat)
  | began (n : Nat)
  /-- The call went on to its next phase. -/
  | went (n : Nat)
  | returned (n : Nat) (idle : Bool)
  deriving Repr, DecidableEq

end Drains

/-- Restarts, those who wait for them, and those who have yet to ring the bell. -/
structure Drains where
  restarts : Restarts
  /-- For each deployment that was taken out and not announced, how many were left then. -/
  ringing : List Nat := []
  waiters : List Drains.Waiter := []
  /-- How many calls there were that wait. -/
  waits : Nat := 0

namespace Drains

open Restart (Bell)

def start (b : Board) : Drains where
  restarts := .start b

def board (s : Drains) : Board := s.restarts.board

def withBoard (s : Drains) (b : Board) : Drains :=
  { s with restarts := { s.restarts with board := b } }

/-- The steps of restarts in a log. -/
def restartsOf (log : List Entry) : List Restarts.Entry :=
  log.filterMap fun
    | .restart e => some e
    | _ => none

/-! ## Steps -/

/-- How a call goes on that waits. -/
inductive Goes (b : Board) : Phase → Phase → Prop
  | listen : Goes b .ready (.listening b.bell.listen)
  | look (l : Bell.Listener) : Goes b (.listening l) (.waiting (l.look b.inFlight.size))
  | wake {l : Bell.Listener} (hheard : l.heard b.bell = true) : Goes b (.waiting (.parked l)) .ready

/-- A call returns when it found nothing under way, or when its time is over while it is parked. -/
inductive Returns : Phase → Bool → Prop
  | done : Returns (.waiting .done) true
  | late (l : Bell.Listener) : Returns (.waiting (.parked l)) false

/-- The next step, with its entry in the log. -/
inductive Step (s : Drains) : Entry → Drains → Prop
  | restart {e : Restarts.Entry} {r : Restarts} (hstep : Restarts.Step s.restarts e r)
      (hkeeps : e.event ≠ .released) :
      Step s (.restart e) { s with restarts := r }
  /-- A call takes its deployment out of those under way. -/
  | remove {before after : List Restarts.Call} {c : Restarts.Call}
      (hholders : s.restarts.holders = before ++ c :: after) (hover : c.phase.Over) :
      Step s (.restart (c.entry .released))
        { s with
          restarts := { s.restarts with
            board := s.board.remove c.key, holders := before ++ after }
          ringing := s.ringing ++ [(s.board.remove c.key).inFlight.size] }
  /-- Whoever took a deployment out rings the bell, if it was the last one. -/
  | ring {before after : List Nat} {left : Nat} (hringing : s.ringing = before ++ left :: after) :
      Step s (.rang left) { s.withBoard (s.board.ring left) with ringing := before ++ after }
  | begin :
      Step s (.began s.waits)
        { s with waiters := s.waiters ++ [⟨s.waits, .ready⟩], waits := s.waits + 1 }
  | go {before after : List Waiter} {w : Waiter} {phase : Phase}
      (hwaiters : s.waiters = before ++ w :: after) (hgoes : Goes s.board w.phase phase) :
      Step s (.went w.number) { s with waiters := before ++ { w with phase } :: after }
  | return {before after : List Waiter} {w : Waiter} {idle : Bool}
      (hwaiters : s.waiters = before ++ w :: after) (hreturns : Returns w.phase idle) :
      Step s (.returned w.number idle) { s with waiters := before ++ after }

inductive Run (s₀ : Drains) : List Entry → Drains → Prop
  | nil : Run s₀ [] s₀
  | snoc {log : List Entry} {s : Drains} {e : Entry} {s' : Drains} (hrun : Run s₀ log s)
      (hstep : Step s e s') : Run s₀ (log ++ [e]) s'

variable {s₀ s s' : Drains} {log : List Entry} {e : Entry} {b : Board}

theorem Run.one (h : Step s e s') : Run s [e] s' := Run.nil.snoc h

/-! ## Steps that nothing comes between -/

/-- **Setting a deployment free is its two steps.** -/
theorem run_release {before after : List Restarts.Call} {c : Restarts.Call}
    (hholders : s.restarts.holders = before ++ c :: after) (hover : c.phase.Over)
    (hringing : s.ringing = []) :
    ∃ log s', Run s log s' ∧ s'.board = s.board.release c.key ∧ s'.ringing = [] := by
  have hremoved := Run.one (Step.remove hholders hover)
  rw [hringing] at hremoved
  exact ⟨_, _, hremoved.snoc (@Step.ring _ [] [] _ rfl), rfl, rfl⟩

/-- **Beginning to wait is listening and looking.** -/
theorem run_await {before after : List Waiter} {n : Nat}
    (hwaiters : s.waiters = before ++ ⟨n, .ready⟩ :: after) :
    ∃ log, Run s log { s with waiters := before ++ ⟨n, .waiting s.board.await⟩ :: after } := by
  have listening := Run.one (Step.go hwaiters .listen)
  have looked := listening.snoc (.go rfl (.look _))
  exact ⟨_, looked⟩

/-- **Being asked whether the wait is over is nothing, or waking up and beginning anew.** -/
theorem run_poll {before after : List Waiter} {n : Nat} {w : Bell.Waiter}
    (hwaiters : s.waiters = before ++ ⟨n, .waiting w⟩ :: after) :
    ∃ log, Run s log { s with waiters := before ++ ⟨n, .waiting (s.board.poll w)⟩ :: after } := by
  have hsame : Run s [] { s with waiters := before ++ ⟨n, .waiting w⟩ :: after } := by
    rw [← hwaiters]
    exact .nil
  cases w with
  | done => exact ⟨_, hsame⟩
  | parked l =>
    cases hheard : l.heard s.board.bell with
    | false =>
      have hpoll : s.board.poll (.parked l) = .parked l := by simp [Board.poll, hheard]
      exact ⟨_, hpoll ▸ hsame⟩
    | true =>
      have hpoll : s.board.poll (.parked l) = s.board.await := by simp [Board.poll, hheard]
      have woken := Run.one (Step.go hwaiters (.wake hheard))
      have listening := woken.snoc (.go rfl .listen)
      have looked := listening.snoc (.go rfl (.look _))
      rw [hpoll]
      exact ⟨_, looked⟩

/-! ## The restarts among the steps -/

@[simp] theorem restartsOf_snoc_restart (e : Restarts.Entry) :
    restartsOf (log ++ [.restart e]) = restartsOf log ++ [e] := by
  simp [restartsOf]

theorem restartsOf_snoc (h : ∀ x, e ≠ .restart x) : restartsOf (log ++ [e]) = restartsOf log := by
  cases e with
  | restart x => exact absurd rfl (h x)
  | rang | began | went | returned => simp [restartsOf]

end Drains

/-- What is known of restarts depends on the deployments under way and the number of tabs alone. -/
theorem Restarts.Sound.withBoard {r : Restarts} {log : List Restarts.Entry} {b : Board}
    (h : Restarts.Sound log r) (hin : b.inFlight = r.board.inFlight)
    (hsize : b.store.size = r.board.store.size) : Restarts.Sound log { r with board := b } where
  keys := h.keys
  numbers := h.numbers
  numbered := h.numbered
  past := h.past
  inFlight := by simpa only [hin] using h.inFlight
  distinct := by simpa only [hin] using h.distinct
  known := by simpa only [hsize] using h.known
  held := h.held
  ended := h.ended

namespace Drains

open Restart (Bell)

variable {s₀ s s' : Drains} {log : List Entry} {e : Entry} {b : Board}

theorem sound_restarts (h : Run (start b) log s) : Restarts.Sound (restartsOf log) s.restarts := by
  induction h with
  | nil => exact Restarts.sound_start b
  | snoc hrun hstep ih =>
    cases hstep with
    | restart hstep =>
      rw [restartsOf_snoc_restart]
      exact ih.step hstep
    | remove hholders hover =>
      rw [restartsOf_snoc_restart]
      exact (ih.release hholders hover).withBoard rfl rfl
    | ring =>
      rw [restartsOf_snoc (by simp)]
      exact ih.withBoard rfl rfl
    | begin | go | «return» =>
      rw [restartsOf_snoc (by simp)]
      exact ih

/-- **When nothing is under way, every restart that was accepted has published its outcome.** -/
theorem published_of_empty {r : Restarts} {log : List Restarts.Entry}
    (h : Restarts.Sound log r) (hidle : r.board.inFlight.size = 0) {e : Restarts.Entry}
    (he : e ∈ log) (haccepted : e.event = .accepted) :
    ∃ o, ⟨e.call, e.tab, e.key, .published o⟩ ∈ log := by
  rw [h.size_inFlight] at hidle
  have hnobody := List.eq_nil_of_length_eq_zero hidle
  obtain ⟨tab, key, es, hes, hcase⟩ := h.history (h.past e he)
  obtain ⟨hev, heq⟩ := Restarts.mem_of_entriesOf hes he rfl
  rw [haccepted] at hev heq
  rcases hcase with ⟨c, hc, -⟩ | ⟨-, hwhole⟩
  · simp [hnobody] at hc
  · obtain ⟨k, done, o, rfl, -, rfl⟩ := hwhole.of_accepted hev
    refine ⟨o, ?_⟩
    rw [heq]
    exact (Restarts.mem_log_iff hes).2 (by simp [Restarts.complete])

/-! ## The bell -/

/-- If nothing is under way then someone is about to ring the bell. -/
def Owed (s : Drains) : Prop := s.board.inFlight.size = 0 → 0 ∈ s.ringing

/-- A step of restarts that sets nothing free leaves something under way that was. -/
theorem announces_of_step {r r' : Restarts} {e : Restarts.Entry} (h : Restarts.Step r e r')
    (he : e.event ≠ .released) : Board.Announces r.board r'.board := by
  cases h with
  | @refuse tab key x b hkey hrequest =>
    refine Board.Beside.announces ?_
    cases key with
    | none =>
      cases hrequest
      exact Board.beside_of rfl rfl
    | some k =>
      simp only [Board.requestRestart, Restarts.occupy_eq, if_pos (hkey k rfl)] at hrequest
      cases hrequest
      exact Board.beside_of rfl rfl
  | @take tab key b hoccupy =>
    have hannounces := Board.announces_step r.board (m := .occupy tab key) (by simp)
    simp only [Board.step, hoccupy] at hannounces
    exact hannounces
  | @advance before after c ev phase b hholders hadvance =>
    refine Board.Beside.announces ?_
    cases hadvance with
    | @accept b' limit script time hphase hemit =>
      have hemitted := Board.beside_emit r.board c.tab .restarting
      rw [hemit] at hemitted
      exact hemitted.trans (Board.beside_of rfl rfl)
    | unknown | act => exact .refl _
    | publish => exact Board.beside_publishOutcome _ _ _ _
  | release => exact absurd rfl he

/-- **A step rings the bell, or still owes it.** -/
theorem Step.owed (h : Step s e s') :
    s.board.bell.rung ≤ s'.board.bell.rung ∧
      (s'.board.bell.rung = s.board.bell.rung → s.Owed → s'.Owed) := by
  cases h with
  | restart hstep hkeeps =>
    have hannounces := announces_of_step hstep hkeeps
    exact ⟨hannounces.rung, fun hsame howed hempty => howed (hannounces.empty hsame hempty)⟩
  | @remove before after c hholders hover =>
    refine ⟨Nat.le_refl _, fun _ _ hempty => ?_⟩
    rw [← hempty]
    exact List.mem_append_right _ (List.mem_singleton_self _)
  | @ring before after left hringing =>
    simp only [Owed, hringing, withBoard, board, Board.ring, Restart.Bell.after]
    split_ifs with hleft
    · exact ⟨Nat.le_succ _, fun hsame => absurd hsame (Nat.succ_ne_self _)⟩
    · refine ⟨Nat.le_refl _, fun _ howed hempty => ?_⟩
      -- what was left then is not what is owed
      have hmem := howed hempty
      rw [List.mem_append, List.mem_cons] at hmem
      rw [List.mem_append]
      rcases hmem with hbefore | hself | hafter
      · exact .inl hbefore
      · exact absurd hself.symm hleft
      · exact .inr hafter
  | begin | go | «return» => exact ⟨Nat.le_refl _, fun _ howed => howed⟩

/-! ## Those who wait -/

/-- The call was under way at a moment at which nothing was being restarted. -/
def Found (b : Board) (log : List Entry) (n : Nat) : Prop :=
  ∃ l₀ l₁ m, log = l₀ ++ l₁ ∧ Run (start b) l₀ m ∧ .began n ∈ l₀ ∧ m.board.inFlight.size = 0

theorem Found.snoc {n : Nat} (h : Found b log n) (e : Entry) : Found b (log ++ [e]) n := by
  obtain ⟨l₀, l₁, m, rfl, hrun, hbegan, hidle⟩ := h
  exact ⟨l₀, l₁ ++ [e], m, List.append_assoc .., hrun, hbegan, hidle⟩

/-- What is known of a call that waits. -/
structure Stands (b : Board) (log : List Entry) (s : Drains) (w : Waiter) : Prop where
  began : .began w.number ∈ log
  unreturned : ∀ idle, .returned w.number idle ∉ log
  seen : ∀ l, w.phase = .listening l ∨ w.phase = .waiting (.parked l) → l.seen ≤ s.board.bell.rung
  /-- Whoever is parked hears the bell when the last deployment is gone. -/
  owed : ∀ l, w.phase = .waiting (.parked l) → l.heard s.board.bell = false → s.Owed
  found : w.phase = .waiting .done → Found b log w.number

/-- **A call that waits is as before after a step of others.** -/
theorem Stands.other {w : Waiter} (h : Stands b log s w) (hstep : Step s e s')
    (he : ∀ idle, e ≠ .returned w.number idle) : Stands b (log ++ [e]) s' w := by
  obtain ⟨hrung, howed⟩ := hstep.owed
  refine ⟨List.mem_append_left _ h.began, ?unreturned,
    fun l hl => Nat.le_trans (h.seen l hl) hrung, ?owed, fun hdone => (h.found hdone).snoc e⟩
  case unreturned =>
    intro idle hmem
    rcases List.mem_append.1 hmem with hold | hnew
    · exact h.unreturned idle hold
    · exact he idle (List.mem_singleton.1 hnew).symm
  case owed =>
    intro l hl hunheard
    have hseen := h.seen l (.inr hl)
    simp only [Bell.Listener.heard, decide_eq_false_iff_not] at hunheard
    have hunheard' : l.heard s.board.bell = false := by
      simp only [Bell.Listener.heard, decide_eq_false_iff_not]
      omega
    exact howed (by omega) (h.owed l hl hunheard')

/-- **A call that goes on.** If it finds nothing under way then this is the moment; otherwise it is
parked while something is. -/
theorem Stands.go {w : Waiter} {phase : Phase} (hrun : Run (start b) log s) (h : Stands b log s w)
    (hgoes : Goes s.board w.phase phase) (hboard : s'.board = s.board) :
    Stands b (log ++ [.went w.number]) s' { w with phase } := by
  have hbegan : .began w.number ∈ log ++ [.went w.number] := List.mem_append_left _ h.began
  have hunreturned : ∀ idle, .returned w.number idle ∉ log ++ [.went w.number] := by
    simpa using h.unreturned
  generalize hphase : w.phase = old at hgoes
  cases hgoes with
  | listen =>
    refine ⟨hbegan, hunreturned, ?seen, by simp, by simp⟩
    case seen =>
      rintro l (hl | hl)
      · obtain rfl := Phase.listening.inj hl
        rw [hboard]
        exact Nat.le_refl _
      · cases hl
  | look l =>
    have hseen : l.seen ≤ s'.board.bell.rung := hboard ▸ h.seen l (.inl hphase)
    by_cases hempty : s.board.inFlight.size = 0
    · have hdone : l.look s.board.inFlight.size = .done := if_pos hempty
      rw [hdone]
      exact ⟨hbegan, hunreturned, by simp, by simp,
        fun _ => ⟨log, [.went w.number], s, rfl, hrun, h.began, hempty⟩⟩
    · have hparked : l.look s.board.inFlight.size = .parked l := if_neg hempty
      rw [hparked]
      refine ⟨hbegan, hunreturned, ?seen, fun _ _ _ hempty' => absurd (hboard ▸ hempty') hempty,
        by simp⟩
      case seen =>
        rintro l' (hl | hl)
        · cases hl
        · obtain rfl := Bell.Waiter.parked.inj (Phase.waiting.inj hl)
          exact hseen
  | wake => exact ⟨hbegan, hunreturned, by simp, by simp, by simp⟩

/-- What is known of all calls that wait. -/
structure Sound (b : Board) (log : List Entry) (s : Drains) : Prop where
  numbers : (s.waiters.map (·.number)).Nodup
  numbered : ∀ w ∈ s.waiters, w.number < s.waits
  past : ∀ n idle, .returned n idle ∈ log → n < s.waits
  stands : ∀ w ∈ s.waiters, Stands b log s w

/-- No other call has the number of a call. -/
theorem Sound.apart {before after : List Waiter} {w : Waiter} (h : Sound b log s)
    (hwaiters : s.waiters = before ++ w :: after) :
    ∀ w' ∈ before ++ after, w'.number ≠ w.number := by
  have hnumbers := h.numbers
  rw [hwaiters, List.map_append, List.map_cons, List.nodup_middle, List.nodup_cons,
    ← List.map_append] at hnumbers
  exact fun w' hw' heq => hnumbers.1 (heq ▸ List.mem_map_of_mem hw')

/-- A step in which no call that waits takes part. -/
theorem Sound.aside (h : Sound b log s) (hstep : Step s e s') (hwaiters : s'.waiters = s.waiters)
    (hwaits : s'.waits = s.waits) (he : ∀ n idle, e ≠ .returned n idle) :
    Sound b (log ++ [e]) s' := by
  refine ⟨hwaiters ▸ h.numbers, ?_, ?_, ?_⟩
  · rw [hwaiters, hwaits]
    exact h.numbered
  · intro n idle hmem
    rw [hwaits]
    rcases List.mem_append.1 hmem with hold | hnew
    · exact h.past n idle hold
    · exact absurd (List.mem_singleton.1 hnew).symm (he n idle)
  · rw [hwaiters]
    exact fun w hw => (h.stands w hw).other hstep (he w.number)

theorem Sound.step (hrun : Run (start b) log s) (h : Sound b log s) (hstep : Step s e s') :
    Sound b (log ++ [e]) s' := by
  cases hstep with
  | restart hrestart hkeeps => exact h.aside (.restart hrestart hkeeps) rfl rfl (by simp)
  | remove hholders hover => exact h.aside (.remove hholders hover) rfl rfl (by simp)
  | ring hringing => exact h.aside (.ring hringing) rfl rfl (by simp)
  | begin =>
    have hold := fun w hw => (h.stands w hw).other .begin (by simp)
    refine ⟨?numbers, ?numbered, ?past, ?stands⟩
    case numbers =>
      simp only [List.map_append, List.nodup_append, h.numbers, true_and]
      simpa using fun w hw => Nat.ne_of_lt (h.numbered w hw)
    case numbered =>
      intro w hw
      rcases List.mem_append.1 hw with hw | hw
      · exact Nat.lt_succ_of_lt (h.numbered w hw)
      · rw [List.mem_singleton.1 hw]
        exact Nat.lt_succ_self _
    case past =>
      intro n idle hmem
      rcases List.mem_append.1 hmem with hmem | hmem
      · exact Nat.lt_succ_of_lt (h.past n idle hmem)
      · cases List.mem_singleton.1 hmem
    case stands =>
      intro w hw
      rcases List.mem_append.1 hw with hw | hw
      · exact hold w hw
      · obtain rfl := List.mem_singleton.1 hw
        refine ⟨by simp, fun idle hmem => ?_, by simp, by simp, by simp⟩
        rcases List.mem_append.1 hmem with hmem | hmem
        · exact Nat.lt_irrefl _ (h.past _ idle hmem)
        · cases List.mem_singleton.1 hmem
  | @go before after w phase hwaiters hgoes =>
    have hself : w ∈ s.waiters := hwaiters ▸ Restarts.mem_middle.2 (.inl rfl)
    have hothers : ∀ w' ∈ before ++ after, w' ∈ s.waiters :=
      fun w' hw' => hwaiters ▸ Restarts.mem_middle.2 (.inr hw')
    refine ⟨?numbers, ?numbered, ?past, ?stands⟩
    case numbers => simpa [hwaiters] using h.numbers
    case numbered =>
      intro w' hw'
      rcases Restarts.mem_middle.1 hw' with rfl | hold
      · exact h.numbered w hself
      · exact h.numbered w' (hothers w' hold)
    case past => simpa using h.past
    case stands =>
      intro w' hw'
      rcases Restarts.mem_middle.1 hw' with rfl | hold
      · exact (h.stands w hself).go hrun hgoes rfl
      · exact (h.stands w' (hothers w' hold)).other (.go hwaiters hgoes) (by simp)
  | @«return» before after w idle hwaiters hreturns =>
    have hself : w ∈ s.waiters := hwaiters ▸ Restarts.mem_middle.2 (.inl rfl)
    have hothers : ∀ w' ∈ before ++ after, w' ∈ s.waiters :=
      fun w' hw' => hwaiters ▸ Restarts.mem_middle.2 (.inr hw')
    have hsub : (before ++ after).Sublist s.waiters := by
      rw [hwaiters]
      exact (List.Sublist.refl before).append (List.sublist_cons_self w after)
    refine ⟨h.numbers.sublist (hsub.map _), fun w' hw' => h.numbered w' (hothers w' hw'),
      ?past, ?stands⟩
    case past =>
      intro n answer hmem
      rcases List.mem_append.1 hmem with hmem | hmem
      · exact h.past n answer hmem
      · obtain ⟨rfl, -⟩ := Entry.returned.inj (List.mem_singleton.1 hmem)
        exact h.numbered w hself
    case stands =>
      intro w' hw'
      refine (h.stands w' (hothers w' hw')).other (.return hwaiters hreturns) ?_
      intro answer heq
      exact h.apart hwaiters w' hw' (Entry.returned.inj heq).1.symm

/-- **The invariant holds along every run.** -/
theorem sound_run (h : Run (start b) log s) : Sound b log s := by
  induction h with
  | nil => exact ⟨List.nodup_nil, by simp [start], by simp, by simp [start]⟩
  | snoc hrun hstep ih => exact ih.step hrun hstep

/-! ## Draining -/

/-- What holds of every log and of the state that it leads to. -/
structure Drained (b : Board) (log : List Entry) (s : Drains) : Prop where
  /-- A call that returns with success was under way at a moment at which no deployment was, and
  every restart that had been accepted before had published its outcome. -/
  returned : ∀ n s', Step s (.returned n true) s' → (∀ idle, .returned n idle ∉ log) ∧
    ∃ l₀ l₁ m, log = l₀ ++ l₁ ∧ Run (start b) l₀ m ∧ .began n ∈ l₀ ∧
      m.board.inFlight.size = 0 ∧
      ∀ e ∈ restartsOf l₀, e.event = .accepted →
        ∃ o, ⟨e.call, e.tab, e.key, .published o⟩ ∈ restartsOf l₀
  /-- Nobody is parked unheard while nothing is under way, unless someone has taken out the last
  deployment and is about to ring the bell. -/
  owed : ∀ w ∈ s.waiters, ∀ l, w.phase = .waiting (.parked l) → l.heard s.board.bell = false →
    s.board.inFlight.size = 0 → 0 ∈ s.ringing
  /-- Ringing the bell wakes everyone who is parked. -/
  woken : ∀ s', Step s (.rang 0) s' →
    ∀ w ∈ s'.waiters, ∀ l, w.phase = .waiting (.parked l) → l.heard s'.board.bell = true

/-- **Waiting sees a moment of rest, and loses no bell**, however the steps of calls, workers and
those who wait come. -/
theorem run_drained (h : Run (start b) log s) : Drained b log s := by
  have hsound := sound_run h
  refine ⟨?returned, fun w hw => (hsound.stands w hw).owed, ?woken⟩
  case returned =>
    intro n s' hstep
    cases hstep with
    | @«return» before after w idle hwaiters hreturns =>
      have hstands := hsound.stands w (hwaiters ▸ Restarts.mem_middle.2 (.inl rfl))
      generalize hphase : w.phase = phase at hreturns
      cases hreturns
      obtain ⟨l₀, l₁, m, hlog, hrun, hbegan, hempty⟩ := hstands.found hphase
      exact ⟨hstands.unreturned, l₀, l₁, m, hlog, hrun, hbegan, hempty,
        fun e he haccepted => published_of_empty (sound_restarts hrun) hempty he haccepted⟩
  case woken =>
    intro s' hstep w hw l hl
    cases hstep with
    | ring hringing =>
      have hseen := (hsound.stands w hw).seen l (.inr hl)
      simp only [Bell.Listener.heard, decide_eq_true_eq]
      exact Nat.lt_succ_of_le hseen

/-- Someone waits for a restart that is under way. The cluster rejects it; they are woken when its
deployment is gone, look again and return. -/
theorem run_drained_rejected :
    let k : DeploymentKey := ⟨"default", "web"⟩
    let x : Cluster.Error := .setup "no credentials"
    let b : Board := { catalog := ⟨[]⟩, store := .ofSize 1 }
    ∃ s, Drained b
      [.restart ⟨0, 0, some k, .took⟩, .restart ⟨0, 0, some k, .accepted⟩, .began 0, .went 0,
        .went 0, .restart ⟨0, 0, some k, .did .patch⟩,
        .restart ⟨0, 0, some k, .published (.failed (.ofCluster k x))⟩,
        .restart ⟨0, 0, some k, .released⟩, .rang 0, .went 0, .went 0, .went 0,
        .returned 0 true] s := by
  intro k x b
  let script : Restart.Script := { patch := { ending := .failed x } }
  have taken : Run (start b) _ _ := .one (.restart (@Restarts.Step.take _ 0 k _ rfl) (by simp))
  have accepted := taken.snoc
    (.restart (.advance rfl (.accept ⟨1000⟩ script 0 rfl rfl)) (by simp [Restarts.Call.entry]))
  have begun := accepted.snoc .begin
  have listening := begun.snoc (.go rfl .listen)
  have parked := listening.snoc (.go rfl (.look _))
  have called := parked.snoc
    (.restart (.advance rfl (.act rfl rfl)) (by simp [Restarts.Call.entry]))
  have published := called.snoc
    (.restart (.advance rfl (.publish rfl)) (by simp [Restarts.Call.entry]))
  have removed := published.snoc (.remove rfl trivial)
  have rung := removed.snoc (.ring rfl)
  have woken := rung.snoc (.go rfl (.wake rfl))
  have again := woken.snoc (.go rfl .listen)
  have found := again.snoc (.go rfl (.look _))
  have returned := found.snoc (.return rfl .done)
  exact ⟨_, run_drained returned⟩

end Drains

end TabBoard
