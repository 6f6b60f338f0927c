import TabBoard.Catalog
import TabBoard.Delivery.EventStream
import TabBoard.Delivery.Gateway
import TabBoard.Delivery.Observers
import TabBoard.Delivery.Registry
import TabBoard.Metrics
import TabBoard.Restart.Bell
import TabBoard.Settings

/-!
# The board

Everything a running dashboard keeps: its tabs, their statuses, the connections at the gateway, the
restarts under way. Each operation is one indivisible step on it; what takes several steps, with
other things happening in between, is put together elsewhere (`Simulation`).

A gateway connection is registered in this order: the registry changes, the observers run, the
connection that was replaced is closed, and the subject is bound. `connect` does the first two and
says which token is left to close.

A restart takes its deployment (`occupy`) before its tab shows that it is restarting, and publishes
its outcome before it sets the deployment free (`publishOutcome`, `release`).
-/

namespace TabBoard

/-- What an observer does with a connection after it noted it. -/
inductive Reaction where
  | nothing
  | panic
  | bind (subject : String)
  | disconnect (token : String)
  deriving Repr, DecidableEq, Inhabited

/-- Someone who is told of every connect, or of every disconnect. -/
inductive Observer where
  /-- Sends the status of every tab to the connection. -/
  | replay
  /-- Notes what it sees. -/
  | witness (number : Nat) (reaction : Reaction)
  deriving Repr, DecidableEq, Inhabited

/-- What a witness saw: whether the registry knew the connection, and how many there were. -/
structure Sighting where
  observer : Nat
  id : String
  known : Bool
  total : Nat
  deriving Repr, DecidableEq, Inhabited

/-- The state of a running dashboard. -/
structure Board where
  catalog : Catalog
  settings : Settings := {}
  store : Store
  /-- The connections, if there is a gateway. -/
  registry : Option Registry := none
  connectObservers : List Observer := []
  disconnectObservers : List Observer := []
  sightings : List Sighting := []
  /-- The deployments that are being restarted, each with the tab it was asked for. -/
  inFlight : Table DeploymentKey Nat := {}
  /-- The bell that is rung when none is. -/
  bell : Restart.Bell := {}
  shutdown : Shutdown := {}
  metrics : Metrics := {}
  /-- The page of metrics, if they are exported. -/
  metricsPage : Option String := none
  deriving Repr, DecidableEq, Inhabited

namespace Board

def measure (b : Board) (f : Metrics → Metrics) : Board := { b with metrics := f b.metrics }

/-! ## Statuses -/

def emit (b : Board) (tab : Nat) (status : Status) : Except UnknownTab Board :=
  (b.store.emit tab status).map fun store =>
    { b with store }.measure (·.statusEmitted status.state.name)

def replay (b : Board) (id : String) : Board := { b with store := b.store.replay id }

/-! ## Direct subscribers -/

def subscribe (b : Board) (id : String) (tab : Nat) : Except UnknownTab Board :=
  (b.store.subscribe id tab).map fun store => { b with store }.measure Metrics.streamOpened

def unsubscribe (b : Board) (id : String) : Board :=
  { b with store := b.store.unsubscribe id }.measure Metrics.streamClosed

/-- The updates that wait for a subscriber, taken out. -/
def receive (b : Board) (id : String) : List Status.Update × Board :=
  let (updates, fanout) := b.store.fanout.takeAll id
  (updates, { b with store := { b.store with fanout } })

def openStream (b : Board) (id : String) (heartbeat : Nat) : EventStream where
  id
  heartbeat
  guard := b.shutdown.guard

/-- Ends a stream that has not ended by itself. -/
def closeStream (b : Board) (s : EventStream) : Board :=
  if s.ended then b else b.unsubscribe s.id

/-- The frames of a stream that are ready, and the stream afterwards. A stream that ends detaches
its subscriber. -/
def frames (b : Board) (now : Nat) (s : EventStream) : List Frame × EventStream × Board :=
  let waiting := ((b.store.fanout.inbox? s.id).map (·.queue.length)).getD 0
  let (frames, fanout, after) := s.drain now b.shutdown (waiting + 2) b.store.fanout
  let b := { b with store := { b.store with fanout } }
  (frames, after, if after.ended then b.closeStream s else b)

/-! ## Gateway connections -/

def bind (b : Board) (id subject : String) : Board :=
  match b.registry.bind (·.bind? id subject) with
  | some registry => { b with registry := some registry }.measure (·.identityBound true)
  | none => b.measure (·.identityBound false)

def sight (b : Board) (observer : Nat) (id : String) : Sighting where
  observer
  id
  known := b.registry.any (·.contains id)
  total := (b.registry.map Registry.size).getD 0

/-- Tells an observer of a connection. `disconnect` is how it disconnects a token. What a witness
leaves when it breaks off can be disposed of, so the next observer is told as well. -/
def tell (disconnect : String → Board → Board) (id : String) (o : Observer) (b : Board) :
    Option Panic × Board :=
  match o with
  | .replay => (none, b.replay id)
  | .witness number reaction =>
    let b := { b with sightings := b.sightings ++ [b.sight number id] }
    match reaction with
    | .nothing => (none, b)
    | .panic => (some .other, b)
    | .bind subject => (none, b.bind id subject)
    | .disconnect token => (none, disconnect token b)

/-- Removes the connection that has the token, and tells the observers. They may disconnect further
tokens, each of which takes a connection away. -/
def disconnectWithin : Nat → String → Board → Board
  | 0, _, b => b
  | connections + 1, token, b =>
    match b.registry with
    | none => b
    | some r =>
      match r.disconnect token with
      | (registry, .removed id) =>
        let b := { b with registry := some registry }.measure (·.disconnected registry.size)
        (notify (tell (disconnectWithin connections) id) (fun _ _ b => b) 0
          b.disconnectObservers b).2
      | (registry, _) => { b with registry := some registry }

def disconnect (b : Board) (token : String) : Board :=
  disconnectWithin ((b.registry.map Registry.size).getD 0 + 1) token b

/-- Registers a connection and tells the observers. Also gives the token that is left to close. -/
def connect (b : Board) (id token url : String) : Option String × Board :=
  match b.registry with
  | none => (none, b)
  | some r =>
    let (registry, replaced) := r.connect id token url
    let b := { b with registry := some registry }.measure (·.connected registry.size)
    let told := notify (tell (fun token b => b.disconnect token) id) (fun _ _ b => b) 0
      b.connectObservers b
    (replaced, told.2)

/-! ## Sending to gateway connections -/

/-- The connections that a delivery goes to, each as request id and token. -/
def targets (b : Board) (whom : Recipient) (subject : Option String) : List (String × String) :=
  (b.registry.map (·.targets whom subject)).getD []

/-- Works in what became of an event that was sent: a connection that the gateway does not know is
forgotten, if it is still the current one. -/
def sent (b : Board) (id token event : String) (outcome : SendOutcome) : Board :=
  let b := b.measure (·.eventSent event outcome.label)
  match outcome, b.registry with
  | .notFound, some r =>
    if r.isCurrent id token then
      let r := r.removeIfCurrent id token
      { b with registry := some r }.measure (·.activeConnections r.size)
    else b
  | _, _ => b

/-! ## Restarts -/

def remove (b : Board) (key : DeploymentKey) : Board :=
  let inFlight := b.inFlight.erase key
  { b with inFlight }.measure (·.restartsInFlight inFlight.size)

def ring (b : Board) (left : Nat) : Board := { b with bell := b.bell.after left }

/-- Sets a deployment free, and rings the bell if no restart is under way any more. -/
def release (b : Board) (key : DeploymentKey) : Board :=
  (b.remove key).ring (b.remove key).inFlight.size

def await (b : Board) : Restart.Bell.Waiter := b.bell.listen.look b.inFlight.size

/-- Someone who waits, when they are asked whether the wait is over. Whoever heard the bell begins
anew. -/
def poll (b : Board) : Restart.Bell.Waiter → Restart.Bell.Waiter
  | .parked l => if l.heard b.bell then b.await else .parked l
  | .done => .done

/-- Takes a deployment in hand for a tab, unless a restart of it is running. -/
def occupy (b : Board) (tab : Nat) (key : DeploymentKey) : Except Restart.Error Board :=
  if b.inFlight.contains key then .error (.inProgress key)
  else
    let inFlight := b.inFlight.insert key tab
    .ok ({ b with inFlight }.measure (·.restartsInFlight inFlight.size))

/-- Accepts the restart of a deployment for a tab, unless one is running. The tab is restarting
from then on. -/
def requestRestart (b : Board) (tab : Nat) (key : Option DeploymentKey) :
    Except Restart.Error Unit × Board :=
  match key with
  | none =>
    let e := Restart.Error.notRestartable tab
    (.error e, b.measure (·.restartRejected e.label))
  | some key =>
    match b.occupy tab key with
    | .error e => (.error e, b.measure (·.restartRejected e.label))
    | .ok b =>
      match b.emit tab .restarting with
      | .ok b => (.ok (), b.measure Metrics.restartAccepted)
      | .error e => (.error (.status e), b.release key)

def publishOutcome (b : Board) (tab : Nat) (status : Status) (label : String) : Board :=
  ((b.emit tab status).toOption.getD b).measure (·.restartFinished label)

/-- Publishes how a restart ended, and only then sets the deployment free. -/
def finishRestart (b : Board) (tab : Nat) (key : DeploymentKey) (status : Status)
    (label : String) : Board :=
  (b.publishOutcome tab status label).release key

end Board

end TabBoard
