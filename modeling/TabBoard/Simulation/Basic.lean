import TabBoard.Board.Basic
import TabBoard.Restart.Worker

/-!
# A board in virtual time

A simulation runs a board against a scripted cluster and a scripted gateway. Its clock counts
milliseconds and moves only when someone waits.

Two kinds of agents work beside the one who runs the simulation: a worker for every restart under
way (`Worker`), and the dispatcher that sends what the store posted (`Dispatcher`), one event to
one connection at a time and in order. An agent acts when it is due; of agents due at the same time
the one that began to wait first acts first.

What agents and observers do is kept in `log` with its time.
-/

namespace TabBoard

namespace Simulation

/-- Something that the world outside gets to see. -/
inductive Entry where
  | patch (key : DeploymentKey)
  | read (key : DeploymentKey)
  | watch (key : DeploymentKey) (remaining : Nat)
  | stop (key : DeploymentKey)
  /-- The store posted a status and nobody dispatches. -/
  | posted (whom : Recipient) (u : Status.Update)
  | send (token : String) (event : OutboundEvent) (outcome : SendOutcome)
  | close (token : String) (outcome : SendOutcome)
  | sighting (s : Sighting)
  deriving Repr, DecidableEq, Inhabited

/-- A point in the order of waiting: a time, and a rank among those who wait for the same time. -/
structure Turn where
  due : Nat
  rank : Nat
  deriving Repr, DecidableEq, Inhabited

def Turn.before (a b : Turn) : Bool := a.due < b.due || (a.due == b.due && a.rank < b.rank)

structure Worker where
  tab : Nat
  key : DeploymentKey
  turn : Turn
  /-- What is left to do; nothing until it acts for the first time. -/
  acts : Option (List (Nat × Restart.Act)) := none
  deriving Repr, DecidableEq, Inhabited

/-- An event on its way to several connections. -/
structure Sending where
  event : OutboundEvent
  /-- The connection that the gateway is being called for, and what will come of it. -/
  current : String × String
  outcome : SendOutcome
  /-- The connections behind it, each as request id and token. -/
  rest : List (String × String)
  deriving Repr, DecidableEq, Inhabited

structure Dispatcher where
  /-- When it acts next, unless it has nothing to do. -/
  turn : Option Turn := none
  sending : Option Sending := none
  deriving Repr, DecidableEq, Inhabited

/-- How the gateway answers for a token, and after how many milliseconds. -/
structure Answer where
  outcome : SendOutcome := .delivered
  delay : Nat := 0
  deriving Repr, DecidableEq, Inhabited

/-- What becomes of the statuses that the store posts. -/
inductive Posting where
  /-- The store posts nothing. -/
  | none
  /-- They are logged. -/
  | logged
  | dispatched
  deriving Repr, DecidableEq, Inhabited

end Simulation

structure Simulation where
  board : Board
  clock : Nat := 0
  /-- The rank of the next one who waits. -/
  rank : Nat := 0
  posting : Simulation.Posting := .none
  /-- How long a restart may take. -/
  limit : Duration
  /-- How the cluster behaves towards each restart of a deployment, in order. -/
  scripts : Table DeploymentKey (List Restart.Script) := {}
  answers : Table String Simulation.Answer := {}
  workers : List Simulation.Worker := []
  dispatcher : Simulation.Dispatcher := {}
  log : List (Nat × Simulation.Entry) := []
  deriving Inhabited

namespace Simulation

def note (s : Simulation) (e : Entry) : Simulation := { s with log := s.log ++ [(s.clock, e)] }

/-- A turn at the given time, behind everyone who already waits for it. -/
def takeTurn (s : Simulation) (due : Nat) : Turn × Simulation :=
  (⟨due, s.rank⟩, { s with rank := s.rank + 1 })

/-! ## What the board left to do -/

def noteSightings (s : Simulation) : Simulation :=
  let seen := s.board.sightings
  seen.foldl (fun s e => s.note (.sighting e))
    { s with board := { s.board with sightings := [] } }

def takePosted (s : Simulation) : List (Recipient × Status.Update) × Simulation :=
  (s.board.store.outbox,
    { s with board := { s.board with store := { s.board.store with outbox := [] } } })

/-- Logs what was posted, or wakes the dispatcher for it. -/
def forward (s : Simulation) : Simulation :=
  match s.posting with
  | .none => s
  | .logged =>
    let (posted, s) := s.takePosted
    posted.foldl (fun s p => s.note (.posted p.1 p.2)) s
  | .dispatched =>
    if s.board.store.outbox.isEmpty || s.dispatcher.turn.isSome then s
    else
      let (turn, s) := s.takeTurn s.clock
      { s with dispatcher := { s.dispatcher with turn := some turn } }

/-- The simulation with another board, after what that board left to do. -/
def withBoard (s : Simulation) (b : Board) : Simulation :=
  ({ s with board := b }.noteSightings).forward

/-! ## The gateway -/

def answer (s : Simulation) (token : String) : Answer := (s.answers.get? token).getD {}

/-- Calls the gateway for the connections in turn, until it takes its time over one. -/
def sendNow (s : Simulation) (event : OutboundEvent) :
    List (String × String) → Simulation × Option (Sending × Nat)
  | [] => (s, none)
  | (id, token) :: rest =>
    let a := s.answer token
    let s := s.note (.send token event a.outcome)
    if a.delay = 0 then
      (s.withBoard (s.board.sent id token event.name a.outcome)).sendNow event rest
    else
      (s, some (⟨event, (id, token), a.outcome, rest⟩, s.clock + a.delay))

/-- Sends what was posted, until the gateway takes its time. -/
def dispatchPosted (s : Simulation) : List (Recipient × Status.Update) → Simulation
  | [] => { s with dispatcher := {} }
  | (whom, u) :: posted =>
    match s.sendNow (.ofUpdate u) (s.board.targets whom none) with
    | (s, none) => s.dispatchPosted posted
    | (s, some (sending, due)) =>
      let (turn, s) := s.takeTurn due
      { s with
        board := { s.board with store := { s.board.store with outbox := posted } }
        dispatcher := ⟨some turn, some sending⟩ }

def dispatch (s : Simulation) : Simulation :=
  let resumed := match s.dispatcher.sending with
    | none => (s, none)
    | some d =>
      let s := s.withBoard (s.board.sent d.current.1 d.current.2 d.event.name d.outcome)
      s.sendNow d.event d.rest
  match resumed with
  | (s, none) =>
    let (posted, s) := s.takePosted
    s.dispatchPosted posted
  | (s, some (sending, due)) =>
    let (turn, s) := s.takeTurn due
    { s with dispatcher := ⟨some turn, some sending⟩ }

/-! ## Restarts -/

/-- The behaviour of the cluster towards the next restart of a deployment. -/
def takeScript (s : Simulation) (key : DeploymentKey) : Restart.Script × Simulation :=
  match s.scripts.get? key with
  | some (script :: rest) => (script, { s with scripts := s.scripts.insert key rest })
  | _ => ({}, s)

def act (s : Simulation) (tab : Nat) (key : DeploymentKey) : Restart.Act → Simulation
  | .patch => s.note (.patch key)
  | .read => s.note (.read key)
  | .watch remaining => s.note (.watch key remaining)
  | .ask => s
  | .stop => s.note (.stop key)
  | .publish o => s.withBoard (s.board.finishRestart tab key o.status o.label)

/-- Does what is due of the acts of a worker, and lets it wait for the next one. -/
def perform (s : Simulation) (tab : Nat) (key : DeploymentKey) :
    List (Nat × Restart.Act) → Simulation
  | [] => s
  | (time, a) :: acts =>
    if time ≤ s.clock then (s.act tab key a).perform tab key acts
    else
      let (turn, s) := s.takeTurn time
      { s with workers := s.workers ++ [⟨tab, key, turn, some ((time, a) :: acts)⟩] }

def work (s : Simulation) (w : Worker) : Simulation :=
  let s := { s with workers := s.workers.filter (· ≠ w) }
  match w.acts with
  | some acts => s.perform w.tab w.key acts
  | none =>
    let (script, s) := s.takeScript w.key
    s.perform w.tab w.key (Restart.timeline w.key s.limit script s.clock)

/-! ## Time -/

def earlier (a b : Worker) : Worker := if b.turn.before a.turn then b else a

/-- The worker that acts next. -/
def nextWorker? (s : Simulation) : Option Worker :=
  match s.workers with
  | [] => none
  | w :: ws => some (ws.foldl earlier w)

/-- Lets the next agent act, if its turn comes before the given one. -/
def advanceOne (s : Simulation) (limit : Turn) : Option Simulation :=
  let goTo := fun (t : Turn) => { s with clock := max s.clock t.due }
  match s.nextWorker?, s.dispatcher.turn with
  | some w, some t =>
    if t.before w.turn then
      if t.before limit then some (goTo t).dispatch else none
    else if w.turn.before limit then some ((goTo w.turn).work w) else none
  | some w, none => if w.turn.before limit then some ((goTo w.turn).work w) else none
  | none, some t => if t.before limit then some (goTo t).dispatch else none
  | none, none => none

/-- Lets agents act while their turns come before the given one and `goOn` holds. -/
def runWhile (goOn : Simulation → Bool) (limit : Turn) : Nat → Simulation → Simulation
  | 0, s => s
  | turns + 1, s =>
    if goOn s then
      match s.advanceOne limit with
      | some s => runWhile goOn limit turns s
      | none => s
    else s

def total {α : Type} (count : α → Nat) (xs : List α) : Nat := xs.foldl (fun n x => n + count x) 0

/-- The turns that a worker has at most: one for each act. -/
def Worker.turnsLeft (w : Worker) : Nat := ((w.acts.map (·.length)).getD 0) + 1

/-- No more turns than these are left. A restart has seven acts at most, besides asking for each
event that is scripted, and posts one status; each posted status is sent to each connection at most
once. -/
def turnsLeft (s : Simulation) : Nat :=
  let connections := (s.board.registry.map Registry.size).getD 0
  let sending := (s.dispatcher.sending.map (·.rest.length + 1)).getD 0
  let scripted := total (fun e => total (·.events.length) e.2) s.scripts.entries
  total (·.turnsLeft) s.workers + 7 * s.workers.length + scripted + sending + 2 +
    (s.board.store.outbox.length + s.workers.length) * (connections + 1)

/-- Lets agents act until the given turn. -/
def runUntil (s : Simulation) (limit : Turn) : Simulation :=
  runWhile (fun _ => true) limit s.turnsLeft s

/-- The turn behind everything that happens up to the given time. -/
def endOf (time : Nat) : Turn := ⟨time + 1, 0⟩

def settle (s : Simulation) : Simulation := s.runUntil (endOf s.clock)

def wait (s : Simulation) (millis : Nat) : Simulation :=
  if millis = 0 then s
  else
    let (turn, s) := s.takeTurn (s.clock + millis)
    { s.runUntil turn with clock := turn.due }

end Simulation

end TabBoard
