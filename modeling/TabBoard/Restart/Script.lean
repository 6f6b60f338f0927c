import TabBoard.Cluster.Watch
import TabBoard.Restart.Error
import TabBoard.Status

/-!
# What happens to a restart

`Script` says how the cluster behaves towards one restart: how its calls end, and what a watch
answers when it is asked for one event after the other. An answer that is limited by a deadline
counts if it is there when the deadline is noticed. A restart ends in an `Outcome`, and what it does
until then are its acts (`Act`).
-/

namespace TabBoard.Restart

inductive Outcome where
  | success
  | failed (e : Error)
  | panicked
  deriving Repr, DecidableEq, Inhabited

namespace Outcome

/-- The status that the tab takes. -/
def status : Outcome → Status
  | .success => .running
  | .failed e => .error e.statusMessage
  | .panicked => .error internalFailure

def label : Outcome → String
  | .success => "success"
  | .failed e => e.label
  | .panicked => "panic"

end Outcome

/-! ## How the cluster behaves -/

/-- How something asked of the cluster ends, if it ends. -/
inductive Ending (α : Type) where
  | value (a : α)
  | failed (e : Cluster.Error)
  | panicked
  | never
  deriving Repr, Inhabited

/-- Something asked of the cluster: it ends after a delay, in milliseconds. -/
structure Behaviour (α : Type) where
  delay : Nat := 0
  ending : Ending α
  deriving Repr, Inhabited

def Behaviour.map {α β : Type} (f : α → β) (b : Behaviour α) : Behaviour β where
  delay := b.delay
  ending :=
    match b.ending with
    | .value a => .value (f a)
    | .failed e => .failed e
    | .panicked => .panicked
    | .never => .never

/-- How the cluster behaves towards one restart: the three calls, the events of the watch in order,
and what comes of asking for one more. -/
structure Script where
  patch : Behaviour Unit := { ending := .value () }
  read : Behaviour Deployment := { ending := .value { metadata := { generation := some 1 } } }
  watch : Behaviour Unit := { ending := .value () }
  events : List (Behaviour Cluster.Event) := []
  /-- What comes after the events; a value is the end of the watch. -/
  after : Behaviour Unit := { ending := .value () }
  deriving Repr, Inhabited

/-- What comes of asking for one event after the other: an event, or nothing at the end of the
watch. -/
def Script.asks (s : Script) : List (Behaviour (Option Cluster.Event)) :=
  s.events.map (·.map some) ++ [s.after.map fun _ => none]

/-- What a restart gets to see of an ending. -/
inductive Reply (α : Type) where
  | value (a : α)
  | failed (e : Cluster.Error)
  | panicked
  /-- The deadline came first. -/
  | late
  deriving Repr, Inhabited

/-- When an unlimited call made at `now` is answered, and how; nothing if it never is. -/
def Behaviour.answer {α : Type} (b : Behaviour α) (now : Nat) : Option (Nat × Reply α) :=
  match b.ending with
  | .value a => some (now + b.delay, .value a)
  | .failed e => some (now + b.delay, .failed e)
  | .panicked => some (now + b.delay, .panicked)
  | .never => none

/-- When a call made at `now` and given up at the deadline is answered, and how. An answer that is
there when the deadline is noticed counts. -/
def Behaviour.answerBy {α : Type} (b : Behaviour α) (now deadline : Nat) : Nat × Reply α :=
  match b.answer now with
  | some (time, reply) =>
    if time ≤ max now deadline then (time, reply) else (max now deadline, .late)
  | none => (max now deadline, .late)

/-! ## What a restart does -/

inductive Act where
  | patch
  | read
  /-- Opens a watch, telling the cluster how many milliseconds are left. -/
  | watch (remaining : Nat)
  /-- Asks the watch for its next event. -/
  | ask
  /-- Releases the watch. -/
  | stop
  /-- Reports the outcome and sets the deployment free. -/
  | publish (o : Outcome)
  deriving Repr, DecidableEq, Inhabited

end TabBoard.Restart
