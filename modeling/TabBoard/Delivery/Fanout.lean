import TabBoard.Status

/-!
# Fan-out to direct subscribers

Each subscriber is registered for one tab and owns an inbox. A delivery appends to the inboxes of
the subscribers that it concerns; a subscriber whose inbox is gone is dropped when a delivery
concerns it. An inbox outlives the registration of its subscriber: what was delivered can still be
taken out.
-/

namespace TabBoard

inductive Recipient where
  | one (id : String)
  | all
  deriving Repr, DecidableEq, Inhabited

def Recipient.toText : Recipient → String
  | .one id => id
  | .all => "*"

namespace Fanout

structure Subscriber where
  id : String
  tab : Nat
  deriving Repr, DecidableEq, Inhabited

/-- The updates that were delivered to a subscriber and not taken out yet. -/
structure Inbox where
  id : String
  queue : List Status.Update := []
  deriving Repr, DecidableEq, Inhabited

end Fanout

structure Fanout where
  subscribers : List Fanout.Subscriber := []
  inboxes : List Fanout.Inbox := []
  deriving Repr, DecidableEq, Inhabited

namespace Fanout

def size (f : Fanout) : Nat := f.subscribers.length

def isRegistered (f : Fanout) (id : String) : Bool := f.subscribers.any (·.id = id)

def hasInbox (f : Fanout) (id : String) : Bool := f.inboxes.any (·.id = id)

def inbox? (f : Fanout) (id : String) : Option Inbox := f.inboxes.find? (·.id = id)

/-- Registers a new subscriber whose inbox holds the given updates. -/
def register (f : Fanout) (id : String) (tab : Nat) (queue : List Status.Update := []) : Fanout :=
  ⟨f.subscribers ++ [⟨id, tab⟩], f.inboxes ++ [⟨id, queue⟩]⟩

def concerns (whom : Recipient) (u : Status.Update) (s : Subscriber) : Bool :=
  match whom with
  | .all => s.tab = u.tab
  | .one id => s.id = id

/-- Appends the update to the inboxes of the subscribers it concerns and drops those of them that
have no inbox. -/
def deliver (f : Fanout) (whom : Recipient) (u : Status.Update) : Fanout where
  subscribers := f.subscribers.filter fun s => !concerns whom u s || f.hasInbox s.id
  inboxes := f.inboxes.map fun i =>
    if f.subscribers.any fun s => s.id = i.id ∧ concerns whom u s then
      { i with queue := i.queue ++ [u] }
    else i

/-- Ends a registration, and says whether there was one. -/
def remove (f : Fanout) (id : String) : Bool × Fanout :=
  (f.isRegistered id, { f with subscribers := f.subscribers.filter (·.id ≠ id) })

/-- Throws an inbox away, and says whether there was one. -/
def dropInbox (f : Fanout) (id : String) : Bool × Fanout :=
  (f.hasInbox id, { f with inboxes := f.inboxes.filter (·.id ≠ id) })

/-- The first update in an inbox, taken out. -/
def take? (f : Fanout) (id : String) : Option Status.Update × Fanout :=
  match f.inbox? id with
  | some ⟨_, u :: queue⟩ =>
    (some u, { f with
      inboxes := f.inboxes.map fun i => if i.id = id then { i with queue } else i })
  | _ => (none, f)

def takeAll (f : Fanout) (id : String) : List Status.Update × Fanout :=
  match f.inbox? id with
  | some i =>
    (i.queue, { f with
      inboxes := f.inboxes.map fun i => if i.id = id then { i with queue := [] } else i })
  | none => ([], f)

end Fanout

end TabBoard
