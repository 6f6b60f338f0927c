import TabBoard.Decimal.Natural
import TabBoard.Simulation.Calls

/-!
# Dashboards in virtual time

A scene is a simulation together with those who hold something of it: guards that wait for the
shutdown, subscriptions, the streams that subscriptions turn into, and the bodies of answers that
are streams. All of them go by names. A name that is taken again lets go of what it stood for.
-/

namespace TabBoard

/-- A simulation and what others hold of it. -/
structure Scene where
  sim : Simulation
  guards : Table String Shutdown.Guard := {}
  /-- The subscriptions, each with the id of its subscriber. -/
  subscriptions : Table String String := {}
  streams : Table String EventStream := {}
  bodies : Table String EventStream := {}
  /-- How many witnesses there are. -/
  witnesses : Nat := 0
  /-- How many ids were given out. -/
  ids : Nat := 0
  deriving Inhabited

namespace Scene

def withSim (s : Scene) (sim : Simulation) : Scene := { s with sim }

def withBoard (s : Scene) (b : Board) : Scene := s.withSim (s.sim.withBoard b)

/-- An id that was not given out before, of the length that all ids have. -/
def freshId (s : Scene) : String × Scene :=
  (s!"00000000-0000-4000-8000-{Decimal.padded 12 s.ids}", { s with ids := s.ids + 1 })

/-! ## Guards and witnesses -/

def addGuard (s : Scene) (name : String) : Scene :=
  { s with guards := s.guards.insert name s.sim.board.shutdown.guard }

/-- Asks a guard whether the shutdown began. -/
def pollGuard (s : Scene) (name : String) : Bool × Scene :=
  let (ready, g) := ((s.guards.get? name).getD {}).poll s.sim.board.shutdown
  (ready, { s with guards := s.guards.insert name g })

/-- Adds a witness of connects, or else of disconnects. -/
def addWitness (s : Scene) (ofConnects : Bool) (reaction : Reaction) : Scene :=
  let b := s.sim.board
  let witness := [Observer.witness s.witnesses reaction]
  let b :=
    if ofConnects then { b with connectObservers := b.connectObservers ++ witness }
    else { b with disconnectObservers := b.disconnectObservers ++ witness }
  { s.withBoard b with witnesses := s.witnesses + 1 }

/-! ## Subscriptions and streams -/

def endStream (s : Scene) : Option EventStream → Scene
  | some e => s.withBoard (s.sim.board.closeStream e)
  | none => s

def endSubscription (s : Scene) (name : String) : Scene :=
  match s.subscriptions.get? name with
  | some id => s.withBoard (s.sim.board.unsubscribe id)
  | none => s

/-- Subscribes to a tab, and gives the id of the subscriber. -/
def subscribe (s : Scene) (name : String) (tab : Nat) : Except UnknownTab String × Scene :=
  let (id, s) := s.freshId
  match s.sim.board.subscribe id tab with
  | .error e => (.error e, s)
  | .ok b =>
    let s := (s.withBoard b).endSubscription name
    (.ok id, { s with subscriptions := s.subscriptions.insert name id })

def receive (s : Scene) (name : String) : Option (List Status.Update) × Scene :=
  match s.subscriptions.get? name with
  | none => (none, s)
  | some id =>
    let (updates, b) := s.sim.board.receive id
    (some updates, s.withBoard b)

/-- Turns a subscription into a stream, and says whether there was one. -/
def openStream (s : Scene) (name : String) (heartbeat : Nat) : Bool × Scene :=
  match s.subscriptions.get? name with
  | none => (false, s)
  | some id =>
    let stream := s.sim.board.openStream id heartbeat
    let s := s.endStream (s.streams.get? name)
    (true, { s with
      subscriptions := s.subscriptions.erase name
      streams := s.streams.insert name stream })

/-- The frames that are ready, and whether the stream ended. -/
def frames (s : Scene) (e : EventStream) : (List Frame × Bool) × EventStream × Scene :=
  let (frames, e, b) := s.sim.board.frames s.sim.clock e
  ((frames, e.ended), e, s.withBoard b)

def streamFrames (s : Scene) (name : String) : Option (List Frame × Bool) × Scene :=
  match s.streams.get? name with
  | none => (none, s)
  | some e =>
    let (r, e, s) := s.frames e
    (some r, { s with streams := s.streams.insert name e })

def bodyFrames (s : Scene) (name : String) : Option (List Frame × Bool) × Scene :=
  match s.bodies.get? name with
  | none => (none, s)
  | some e =>
    let (r, e, s) := s.frames e
    (some r, { s with bodies := s.bodies.insert name e })

/-- Lets go of all that a name stands for: a subscription, a stream, a body. -/
def drop (s : Scene) (name : String) : List Bool × Scene :=
  let held :=
    [s.subscriptions.contains name, s.streams.contains name, s.bodies.contains name]
  let s := s.endSubscription name
  let s := s.endStream (s.streams.get? name)
  let s := s.endStream (s.bodies.get? name)
  (held, { s with
    subscriptions := s.subscriptions.erase name
    streams := s.streams.erase name
    bodies := s.bodies.erase name })

def dropAll (s : Scene) : Scene :=
  let s := s.subscriptions.keys.foldl endSubscription s
  let s := s.streams.entries.foldl (fun s e => s.endStream (some e.2)) s
  s.bodies.entries.foldl (fun s e => s.endStream (some e.2)) s

/-! ## Requests -/

/-- Answers a request. A body that is a stream is kept under the name, if there is one. -/
def handle (s : Scene) (now : Moment) (r : Http.Request) (name : Option String) :
    Http.Response × Scene :=
  let (id, s) := s.freshId
  let (response, stream, sim) := s.sim.handle now id r
  let s := s.withSim sim
  match stream, name with
  | none, _ => (response, s)
  | some e, none => (response, s.endStream (some e))
  | some e, some name =>
    if r.method = "HEAD" then (response, s.endStream (some e))
    else
      let s := s.endStream (s.bodies.get? name)
      (response, { s with bodies := s.bodies.insert name e })

end Scene

/-! ## What was sent -/

namespace Simulation

/-- An event that the gateway was asked to send, with the time. -/
structure Sent where
  time : Nat
  token : String
  event : OutboundEvent
  outcome : SendOutcome
  deriving Repr, DecidableEq, Inhabited

def Sent.ofEntry : Nat × Entry → Option Sent
  | (time, .send token event outcome) => some { time, token, event, outcome }
  | _ => none

def Sent.insert (s : Sent) : List Sent → List Sent
  | [] => [s]
  | t :: ts =>
    if s.time = t.time ∧ s.event = t.event ∧ t.token < s.token then t :: Sent.insert s ts
    else s :: t :: ts

/-- What was sent. The sends of one event at one time have no order of their own and stand in the
order of their tokens. -/
def sent (s : Simulation) : List Sent := (s.log.filterMap Sent.ofEntry).foldr Sent.insert []

end Simulation

end TabBoard
