import TabBoard.Delivery.Gateway
import TabBoard.Delivery.Store
import TabBoard.Proofs.Registry

/-!
# Statuses on their way through the gateway

Emissions and replays append to the outbox of the store. One dispatcher takes the items in order,
looks in the registry whom an item goes to, and calls the gateway for one connection after the
other. Meanwhile anything may happen: emissions, connections that come and go, replays for those
that came.

A schedule is a list of moves (`Move`) in any order, and `Traffic.run` makes them one by one. A move
that cannot be made changes nothing. The order in which the registry lists the connections is not
known, so the dispatcher may use any (`Move.aim`), and the gateway may answer anything
(`Move.call`).

Besides the store, the registry and the dispatcher a state keeps what happened: the emissions, the
items that were queued, the connections each item was aimed at, and the calls to the gateway.
Nothing that happens depends on these, except that they number the items.
-/

namespace TabBoard

namespace Traffic

/-- An item that the dispatcher took: how many it took before, whom it is for and what it says. -/
structure Job where
  number : Nat
  whom : Recipient
  update : Status.Update
  deriving Repr, DecidableEq

/-- What the dispatcher is about. Connections are given as request id and token. -/
inductive Dispatcher where
  | idle
  /-- It has not looked yet whom the item goes to. -/
  | holding (job : Job)
  | calling (job : Job) (target : String × String) (rest : List (String × String))
  /-- The answer of the gateway is not worked in yet. -/
  | answered (job : Job) (target : String × String) (outcome : SendOutcome)
      (rest : List (String × String))
  deriving Repr, DecidableEq

namespace Dispatcher

/-- About to call the gateway for some connections in turn. -/
def aimedAt (job : Job) : List (String × String) → Dispatcher
  | [] => .idle
  | target :: rest => .calling job target rest

def job? : Dispatcher → Option Job
  | .idle => none
  | .holding job | .calling job _ _ | .answered job _ _ _ => some job

/-- The connections for which the gateway is still to be called with an item. -/
def left (n : Nat) : Dispatcher → List (String × String)
  | .idle | .holding _ => []
  | .calling job target rest => if job.number = n then target :: rest else []
  | .answered job _ _ rest => if job.number = n then rest else []

end Dispatcher

/-- A call to the gateway for one connection, with its answer. -/
structure Send where
  job : Job
  token : String
  outcome : SendOutcome
  deriving Repr, DecidableEq

def Send.event (x : Send) : OutboundEvent := .ofUpdate x.job.update

/-- An item that was queued, with the number of emissions that its tab had seen. -/
structure Posted where
  whom : Recipient
  update : Status.Update
  edition : Nat
  deriving Repr, DecidableEq

inductive Move where
  | emit (tab : Nat) (status : Status)
  /-- The registry changes; a request id that was connected is to be greeted. -/
  | change (c : Registry.Change)
  /-- The statuses are replayed to a request id. -/
  | replay (id : String)
  /-- The observer of connections replays the statuses to a request id that was connected. -/
  | greet (id : String)
  /-- The dispatcher takes the next item. -/
  | take
  /-- The dispatcher looks whom its item goes to, and finds the connections in this order. -/
  | aim (order : List (String × String))
  /-- The dispatcher calls the gateway for the next connection. -/
  | call (outcome : SendOutcome)
  /-- The dispatcher works in what the gateway answered. -/
  | settle
  deriving Repr, DecidableEq

end Traffic

/-- Statuses on their way, with all that happened. -/
structure Traffic where
  store : Store
  registry : Registry := {}
  /-- The request ids that were connected and are still to be greeted. -/
  greeting : List String := []
  dispatcher : Traffic.Dispatcher := .idle
  emitted : List Status.Update := []
  posted : List Traffic.Posted := []
  taken : Nat := 0
  /-- The connections that each item was aimed at. -/
  aims : List (List (String × String)) := []
  sends : List Traffic.Send := []
  deriving Repr, DecidableEq

namespace Traffic

/-- All tabs running, and nobody connected. -/
def start (tabs : Nat) : Traffic where
  store := .ofSize tabs true

def edition (s : Traffic) (tab : Nat) : Nat := (s.emitted.filter (·.tab = tab)).length

def history (s : Traffic) (tab : Nat) : List Status :=
  .running :: (s.emitted.filter (·.tab = tab)).map (·.status)

/-! ## Moves -/

/-- An item with the number of emissions that its tab has seen. -/
def stamp (s : Traffic) (item : Recipient × Status.Update) : Posted :=
  ⟨item.1, item.2, s.edition item.2.tab⟩

/-- Takes over a store, and notes what it appended to the outbox. -/
def queue (s : Traffic) (store : Store) : Traffic :=
  { s with
    store
    posted := s.posted ++ (store.outbox.drop s.store.outbox.length).map s.stamp }

/-- The request ids that a change of the registry makes the observers run for. -/
def newcomers : Registry.Change → List String
  | .connect id _ _ => [id]
  | .disconnect _ | .lost _ _ | .bind _ _ => []

/-- The registry after an answer of the gateway. -/
def answer (r : Registry) (target : String × String) : SendOutcome → Registry
  | .notFound => r.apply (.lost target.1 target.2)
  | .delivered | .rejected _ | .unreachable _ => r

def step (s : Traffic) : Move → Traffic
  | .emit tab status =>
    match s.store.emit tab status with
    | .ok store =>
      let s : Traffic := { s with emitted := s.emitted ++ [⟨tab, status⟩] }
      s.queue store
    | .error _ => s
  | .change c =>
    { s with registry := s.registry.apply c, greeting := s.greeting ++ newcomers c }
  | .replay id => s.queue (s.store.replay id)
  | .greet id =>
    if id ∈ s.greeting then
      let s : Traffic := { s with greeting := s.greeting.erase id }
      s.queue (s.store.replay id)
    else s
  | .take =>
    match s.dispatcher, s.store.outbox with
    | .idle, (whom, u) :: outbox =>
      { s with
        store := { s.store with outbox }
        dispatcher := .holding ⟨s.taken, whom, u⟩
        taken := s.taken + 1 }
    | _, _ => s
  | .aim order =>
    match s.dispatcher with
    | .holding job =>
      if order.isPerm (s.registry.targets job.whom none) then
        { s with dispatcher := .aimedAt job order, aims := s.aims ++ [order] }
      else s
    | _ => s
  | .call outcome =>
    match s.dispatcher with
    | .calling job target rest =>
      { s with
        dispatcher := .answered job target outcome rest
        sends := s.sends ++ [⟨job, target.2, outcome⟩] }
    | _ => s
  | .settle =>
    match s.dispatcher with
    | .answered job target outcome rest =>
      { s with registry := answer s.registry target outcome, dispatcher := .aimedAt job rest }
    | _ => s

def moves (s : Traffic) (ms : List Move) : Traffic := ms.foldl step s

def run (tabs : Nat) (ms : List Move) : Traffic := (start tabs).moves ms

/-! ## What was sent -/

/-- The calls to the gateway that told a token of a tab, in order. -/
def sentTo (s : Traffic) (token : String) (tab : Nat) : List Send :=
  s.sends.filter fun x => x.token = token ∧ x.job.update.tab = tab

/-- The edition of the status that a call told. -/
def editionOf (s : Traffic) (x : Send) : Nat :=
  (s.posted[x.job.number]?.map (·.edition)).getD 0

/-- The token belongs to a live connection. -/
def Registered (s : Traffic) (token : String) : Prop := (s.registry.tokens.get? token).isSome

/-- The dispatcher has looked whom an item goes to. -/
def Aimed (s : Traffic) (n : Nat) : Prop := n < s.aims.length

/-- The gateway was called with an item for everyone whom it goes to. -/
def Done (s : Traffic) (n : Nat) : Prop := s.Aimed n ∧ s.dispatcher.left n = []

/-- The outbox is empty, the dispatcher has nothing to do, and everyone was greeted. -/
structure Quiet (s : Traffic) : Prop where
  outbox : s.store.outbox = []
  dispatcher : s.dispatcher = .idle
  greeting : s.greeting = []

end Traffic

end TabBoard
