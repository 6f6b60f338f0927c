import TabBoard.Board.Action
import TabBoard.Simulation.Basic

/-!
# Using a board in virtual time

The operations on a board as they are called from outside: each runs until it has its answer,
waiting where the gateway takes its time, and agents act meanwhile. Afterwards whoever is due acts
too (`Simulation.settle`, which the caller adds).
-/

namespace TabBoard.Simulation

/-! ## Time -/

/-- Lets the given time pass. What is due at its end has happened. -/
def advance (s : Simulation) (millis : Nat) : Simulation :=
  let time := s.clock + millis
  { s.runUntil (endOf time) with clock := time }

/-- Lets agents act while someone waits until no restart is under way. -/
def waitIdle (limit : Turn) : Nat → Restart.Bell.Waiter → Simulation →
    Restart.Bell.Waiter × Simulation
  | turns + 1, .parked l, s =>
    match s.advanceOne limit with
    | some s => waitIdle limit turns (s.board.poll (.parked l)) s
    | none => (.parked l, s)
  | _, w, s => (w, s)

/-- Waits until no restart is under way, for the given time at most, and says whether that came. -/
def drain (s : Simulation) (millis : Nat) : Bool × Simulation :=
  let time := s.clock + millis
  match waitIdle (endOf time) s.turnsLeft s.board.await s with
  | (.done, s) => (true, s)
  | (.parked _, s) => (false, { s with clock := time })

/-! ## Connections -/

def close (s : Simulation) (token : String) : Simulation :=
  let a := s.answer token
  (s.note (.close token a.outcome)).wait a.delay

/-- Registers a connection and closes the one it takes the place of. -/
def connect (s : Simulation) (id token url : String) : Simulation :=
  let (replaced, b) := s.board.connect id token url
  let s := s.withBoard b
  match replaced with
  | some token => s.close token
  | none => s

def disconnect (s : Simulation) (token : String) : Simulation :=
  s.withBoard (s.board.disconnect token)

def bind (s : Simulation) (id subject : String) : Simulation :=
  s.withBoard (s.board.bind id subject)

/-- Sends an event to the connections in turn, and counts the deliveries. -/
def sendTo (event : OutboundEvent) : List (String × String) → Simulation → Nat × Simulation
  | [], s => (0, s)
  | (id, token) :: rest, s =>
    let a := s.answer token
    let s := (s.note (.send token event a.outcome)).wait a.delay
    let s := s.withBoard (s.board.sent id token event.name a.outcome)
    let (n, s) := sendTo event rest s
    (if a.outcome.isDelivered then n + 1 else n, s)

/-- Sends an event, and says whether anyone accepted it. -/
def send (s : Simulation) (whom : Recipient) (subject : Option String) (event : OutboundEvent) :
    Bool × Simulation :=
  let (n, s) := sendTo event (s.board.targets whom subject) s
  (0 < n, s)

/-! ## Statuses and restarts -/

def emit (s : Simulation) (tab : Nat) (status : Status) : Except UnknownTab Simulation :=
  (s.board.emit tab status).map s.withBoard

def replay (s : Simulation) (id : String) : Simulation := s.withBoard (s.board.replay id)

/-- Asks for a restart, which a worker follows if it is accepted. -/
def requestRestart (s : Simulation) (tab : Nat) (key : Option DeploymentKey) :
    Except Restart.Error Unit × Simulation :=
  let (answer, b) := s.board.requestRestart tab key
  let s := s.withBoard b
  match answer, key with
  | .ok (), some key =>
    let (turn, s) := s.takeTurn s.clock
    (.ok (), { s with workers := s.workers ++ [{ tab, key, turn }] })
  | answer, _ => (answer, s)

/-! ## Requests -/

/-- Answers a request; `id` names the subscriber of a stream that it may open. -/
def handle (s : Simulation) (now : Moment) (id : String) (r : Http.Request) :
    Http.Response × Option EventStream × Simulation :=
  let sealed := fun (a : Http.Response) => a.sealed r.method
  match s.board.action now r with
  | .answer a => (sealed a, none, s)
  | .restart b =>
    let (answer, s) := s.requestRestart b.tab b.key
    (sealed (Board.restartResponse answer), none, s)
  | .openStream tab =>
    match s.board.subscribe id tab with
    | .error e => (sealed (.ofError (.ofUnknownTab e)), none, s)
    | .ok b =>
      (sealed .eventStream, some (b.openStream id b.settings.heartbeat), s.withBoard b)
  | .connect request token url subject =>
    let s := s.connect request token url
    let s := match subject with
      | some subject => s.bind request subject
      | none => s
    (sealed Board.callbackResponse, none, s)
  | .disconnect token => (sealed Board.callbackResponse, none, s.disconnect token)

end TabBoard.Simulation
