import TabBoard.Board.Basic
import TabBoard.Proofs.Restart.Timeline
import TabBoard.Proofs.Store
import TabBoard.Proofs.Table

/-!
# Many restarts at a time

Any number of calls ask for restarts, and the worker of each restart that was accepted goes its own
way. What is indivisible is one locked look at the deployments under way, one emission, one call to
the cluster, one removal of a deployment. Between two such steps of one call every other call may
make any of its own.

`Restarts` is a board with the calls that hold a deployment. `Step` says what may happen next and
which entry it writes into the log, and `Run` chains steps. A call that holds a deployment is in one
of four phases (`Phase`), and `Advance` takes it from one to the next:

* it has taken the deployment, and its tab does not show it yet;
* its tab turned out to be unknown, and the deployment is still to be given back;
* it was accepted, and its worker has some acts before it;
* its outcome is published, and the deployment is still to be given back.

**Theorem (`run_requestRestart`, `run_finishRestart`).** The steps of one call with nothing between
them do to the board what `Board.requestRestart` and `Board.finishRestart` do.
-/

namespace TabBoard

namespace Restarts

open Restart (Act Outcome)

/-- How far a call is that holds a deployment. -/
inductive Phase where
  | taken
  | refused (e : UnknownTab)
  /-- The worker has these acts before it. -/
  | working (acts : List Act)
  | published
  deriving Repr, DecidableEq

/-- A call that holds a deployment. -/
structure Call where
  number : Nat
  tab : Nat
  key : DeploymentKey
  phase : Phase
  deriving Repr, DecidableEq

/-- What a call does in one step. -/
inductive Event where
  | refused (e : Restart.Error)
  | took
  | unknown (e : UnknownTab)
  | accepted
  | did (a : Act)
  | published (o : Outcome)
  | released
  deriving Repr, DecidableEq

/-- A step in the log: the number of the call, what it asked for, and what it did. -/
structure Entry where
  call : Nat
  tab : Nat
  key : Option DeploymentKey
  event : Event
  deriving Repr, DecidableEq

/-- The entry that a call writes. -/
def Call.entry (c : Call) (e : Event) : Entry := ⟨c.number, c.tab, some c.key, e⟩

end Restarts

/-- A board, the calls that hold a deployment, and how many calls there were. -/
structure Restarts where
  board : Board
  holders : List Restarts.Call := []
  calls : Nat := 0

namespace Restarts

open Restart (Act Outcome Script)

/-- Nothing is being restarted and nobody has asked. -/
def start (b : Board) : Restarts where
  board := { b with inFlight := {} }

/-- What a restart does in order, whatever the time. -/
def acts (key : DeploymentKey) (limit : Duration) (script : Script) (start : Nat) : List Act :=
  (Restart.timeline key limit script start).map (·.2)

/-! ## Steps -/

/-- What a call that holds a deployment can do next: the event, its phase and the board
afterwards. -/
inductive Advance (b : Board) (c : Call) : Event → Phase → Board → Prop
  | accept {b' : Board} (limit : Duration) (script : Script) (time : Nat)
      (hphase : c.phase = .taken) (hemit : b.emit c.tab .restarting = .ok b') :
      Advance b c .accepted (.working (acts c.key limit script time))
        (b'.measure Metrics.restartAccepted)
  | unknown {e : UnknownTab} (hphase : c.phase = .taken)
      (hemit : b.emit c.tab .restarting = .error e) :
      Advance b c (.unknown e) (.refused e) b
  | act {a : Act} {rest : List Act} (hphase : c.phase = .working (a :: rest))
      (hact : a.outcome? = none) :
      Advance b c (.did a) (.working rest) b
  | publish {o : Outcome} {rest : List Act} (hphase : c.phase = .working (.publish o :: rest)) :
      Advance b c (.published o) .published (b.publishOutcome c.tab o.status o.label)

/-- The call has nothing left to do but to give its deployment back. -/
def Phase.Over : Phase → Prop
  | .refused _ | .published => True
  | .taken | .working _ => False

/-- The next step, with its entry in the log. -/
inductive Step (s : Restarts) : Entry → Restarts → Prop
  /-- A call without a deployment, or with one that is being restarted, is refused. -/
  | refuse {tab : Nat} {key : Option DeploymentKey} {e : Restart.Error} {b : Board}
      (hkey : ∀ k, key = some k → s.board.inFlight.contains k = true)
      (hrequest : s.board.requestRestart tab key = (.error e, b)) :
      Step s ⟨s.calls, tab, key, .refused e⟩ { s with board := b, calls := s.calls + 1 }
  /-- A call takes its deployment. -/
  | take {tab : Nat} {key : DeploymentKey} {b : Board} (hoccupy : s.board.occupy tab key = .ok b) :
      Step s ⟨s.calls, tab, some key, .took⟩
        { board := b, holders := s.holders ++ [⟨s.calls, tab, key, .taken⟩], calls := s.calls + 1 }
  /-- A call that holds a deployment goes on. -/
  | advance {before after : List Call} {c : Call} {e : Event} {phase : Phase} {b : Board}
      (hholders : s.holders = before ++ c :: after) (hadvance : Advance s.board c e phase b) :
      Step s (c.entry e)
        { s with board := b, holders := before ++ { c with phase } :: after }
  /-- A call gives its deployment back. -/
  | release {before after : List Call} {c : Call}
      (hholders : s.holders = before ++ c :: after) (hover : c.phase.Over) :
      Step s (c.entry .released)
        { s with board := s.board.release c.key, holders := before ++ after }

inductive Run (s₀ : Restarts) : List Entry → Restarts → Prop
  | nil : Run s₀ [] s₀
  | snoc {log : List Entry} {s : Restarts} {e : Entry} {s' : Restarts} (hrun : Run s₀ log s)
      (hstep : Step s e s') : Run s₀ (log ++ [e]) s'

variable {s₀ s s' : Restarts} {log : List Entry} {e : Entry}

theorem Run.one (h : Step s e s') : Run s [e] s' := Run.nil.snoc h

/-- A run can be cut at any of its steps. -/
theorem Run.split {l₁ l₂ : List Entry} (h : Run s₀ (l₁ ++ e :: l₂) s) :
    ∃ m m', Run s₀ l₁ m ∧ Step m e m' ∧ Run m' l₂ s := by
  generalize hlog : l₁ ++ e :: l₂ = log at h
  induction h generalizing l₂ with
  | nil => simp at hlog
  | snoc hrun hstep ih =>
    rcases List.eq_nil_or_concat l₂ with rfl | ⟨l₂, e', rfl⟩
    · obtain ⟨rfl, heq⟩ := List.append_inj' hlog rfl
      obtain rfl := List.singleton_inj.1 heq
      exact ⟨_, _, hrun, hstep, .nil⟩
    · rw [List.concat_eq_append, ← List.cons_append, ← List.append_assoc] at hlog
      obtain ⟨hinit, hlast⟩ := List.append_inj' hlog rfl
      obtain ⟨m, m', h₁, hm, h₂⟩ := ih hinit
      rw [List.concat_eq_append, hlast]
      exact ⟨m, m', h₁, hm, h₂.snoc hstep⟩

/-! ## What a step does to the board -/

theorem emit_ok {b b' : Board} {tab : Nat} {status : Status} (h : b.emit tab status = .ok b') :
    b'.inFlight = b.inFlight ∧ tab < b.store.size ∧
      b'.store.statuses = b.store.statuses.set tab status := by
  unfold Board.emit at h
  cases hstore : b.store.emit tab status with
  | error e =>
    rw [hstore] at h
    cases h
  | ok store =>
    rw [hstore] at h
    cases h
    obtain ⟨hlt, rfl⟩ := Store.emit_ok_iff.1 hstore
    exact ⟨rfl, hlt, Store.statuses_emitted⟩

theorem emit_isOk {b : Board} {tab : Nat} (h : tab < b.store.size) (status : Status) :
    ∃ b', b.emit tab status = .ok b' := by
  unfold Board.emit
  rw [Store.emit_ok_iff.2 ⟨h, rfl⟩]
  exact ⟨_, rfl⟩

theorem publishOutcome_inFlight (b : Board) (tab : Nat) (status : Status) (label : String) :
    (b.publishOutcome tab status label).inFlight = b.inFlight := by
  unfold Board.publishOutcome
  cases h : b.emit tab status with
  | error e => rfl
  | ok b' => exact (emit_ok h).1

/-- Publishing an outcome stores its status; there is nothing to store for an unknown tab. -/
theorem publishOutcome_statuses (b : Board) (tab : Nat) (status : Status) (label : String) :
    (b.publishOutcome tab status label).store.statuses = b.store.statuses.set tab status := by
  unfold Board.publishOutcome
  cases h : b.emit tab status with
  | error e =>
    have hlarge : b.store.statuses.length ≤ tab := by
      by_contra hlt
      obtain ⟨b', hb'⟩ := emit_isOk (Nat.lt_of_not_le hlt) status
      rw [h] at hb'
      cases hb'
    exact (List.set_eq_of_length_le hlarge).symm
  | ok b' => exact (emit_ok h).2.2

theorem occupy_eq (b : Board) (tab : Nat) (key : DeploymentKey) :
    b.occupy tab key =
      if b.inFlight.contains key = true then .error (.inProgress key)
      else .ok ({ b with inFlight := b.inFlight.insert key tab }.measure
        (·.restartsInFlight (b.inFlight.insert key tab).size)) := rfl

/-- Taking a deployment adds it to those under way, and changes no status. -/
theorem occupy_ok {b b' : Board} {tab : Nat} {key : DeploymentKey}
    (h : b.occupy tab key = .ok b') :
    b.inFlight.get? key = none ∧ b'.inFlight = b.inFlight.insert key tab ∧
      b'.store = b.store := by
  rw [occupy_eq] at h
  split_ifs at h with hin
  cases h
  exact ⟨(Table.contains_eq_false_iff _ _).1 (Bool.eq_false_iff.2 hin), rfl, rfl⟩

/-- A refused call changes nothing but what is counted. -/
theorem requestRestart_refused {b b' : Board} {tab : Nat} {key : Option DeploymentKey}
    {e : Restart.Error} (hkey : ∀ k, key = some k → b.inFlight.contains k = true)
    (h : b.requestRestart tab key = (.error e, b')) :
    b'.inFlight = b.inFlight ∧ b'.store = b.store ∧
      e = key.elim (.notRestartable tab) .inProgress := by
  cases key with
  | none =>
    cases h
    exact ⟨rfl, rfl, rfl⟩
  | some k =>
    simp only [Board.requestRestart, occupy_eq, if_pos (hkey k rfl)] at h
    cases h
    exact ⟨rfl, rfl, rfl⟩

theorem requestRestart_busy_iff (b : Board) (i : Nat) (k : DeploymentKey) :
    (b.requestRestart i (some k)).1 = .error (.inProgress k) ↔ b.inFlight.contains k = true := by
  by_cases hin : b.inFlight.contains k = true
  · simp [Board.requestRestart, occupy_eq, hin]
  · simp only [Board.requestRestart, occupy_eq, if_neg hin, iff_false_right hin]
    split <;> simp

theorem inFlight_requestRestart {b b' : Board} {i : Nat} {k : DeploymentKey}
    (h : b.requestRestart i (some k) = (.ok (), b')) : b'.inFlight = b.inFlight.insert k i := by
  simp only [Board.requestRestart] at h
  cases hoccupied : b.occupy i k with
  | error e =>
    rw [hoccupied] at h
    cases h
  | ok occupied =>
    simp only [hoccupied] at h
    cases hemitted : occupied.emit i .restarting with
    | error e =>
      rw [hemitted] at h
      cases h
    | ok emitted =>
      rw [hemitted] at h
      cases h
      exact (emit_ok hemitted).1.trans (occupy_ok hoccupied).2.1

/-- **A restart keeps those of the same key from starting, and no others.** -/
theorem requestRestart_after {b b' : Board} {i : Nat} {k : DeploymentKey}
    (h : b.requestRestart i (some k) = (.ok (), b')) (j : Nat) (k' : DeploymentKey) :
    (b'.requestRestart j (some k')).1 = .error (.inProgress k') ↔
      k = k' ∨ (b.requestRestart j (some k')).1 = .error (.inProgress k') := by
  rw [requestRestart_busy_iff, requestRestart_busy_iff, inFlight_requestRestart h,
    Table.contains_eq_isSome, Table.contains_eq_isSome, Table.get?_insert]
  by_cases hk : k = k' <;> simp [hk]

/-! ## Steps that nothing comes between -/

/-- **A request is its steps.** With nothing between them they leave the board of
`Board.requestRestart`. -/
theorem run_requestRestart (s : Restarts) (tab : Nat) (key : Option DeploymentKey) :
    ∃ log s', Run s log s' ∧ s'.board = (s.board.requestRestart tab key).2 := by
  cases key with
  | none =>
    have hunbound : s.board.requestRestart tab none =
        (.error (.notRestartable tab), (s.board.requestRestart tab none).2) := rfl
    exact ⟨_, _, .one (.refuse (by simp) hunbound), rfl⟩
  | some k =>
    cases hin : s.board.inFlight.contains k with
    | true =>
      have hbusy : s.board.requestRestart tab (some k) =
          (.error (.inProgress k), (s.board.requestRestart tab (some k)).2) := by
        simp only [Board.requestRestart, occupy_eq, if_pos hin]
      exact ⟨_, _, .one (.refuse (fun _ hk => Option.some.inj hk ▸ hin) hbusy), rfl⟩
    | false =>
      obtain ⟨b, hb⟩ : ∃ b, s.board.occupy tab k = .ok b := by
        rw [occupy_eq, if_neg (by simp [hin])]
        exact ⟨_, rfl⟩
      have htake := Run.one (Step.take hb)
      cases hemit : b.emit tab .restarting with
      | ok b' =>
        have haccept := htake.snoc
          (.advance rfl (.accept ⟨0⟩ {} 0 rfl hemit))
        refine ⟨_, _, haccept, ?_⟩
        simp only [Board.requestRestart, hb, hemit]
      | error e =>
        have hrelease := (htake.snoc (.advance rfl (.unknown rfl hemit))).snoc
          (.release rfl trivial)
        refine ⟨_, _, hrelease, ?_⟩
        simp only [Board.requestRestart, hb, hemit]

/-- **Finishing a restart is its last two steps.** -/
theorem run_finishRestart {before after : List Call} {c : Call} {o : Outcome}
    (hholders : s.holders = before ++ c :: after) (hphase : c.phase = .working [.publish o]) :
    ∃ log s', Run s log s' ∧
      s'.board = s.board.finishRestart c.tab c.key o.status o.label ∧
      s'.holders = before ++ after :=
  ⟨_, _, (Run.one (.advance hholders (.publish hphase))).snoc (.release rfl trivial), rfl, rfl⟩

end Restarts

end TabBoard
