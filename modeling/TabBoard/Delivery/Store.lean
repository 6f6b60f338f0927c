import TabBoard.Delivery.Fanout
import TabBoard.Restart.Error

/-!
# The store of statuses

The last known status of every tab, with the delivery of every change. A change is stored, handed to
the direct subscribers of the tab and, where statuses also leave through a gateway, appended to the
outbox, all in one step. So whoever subscribes at the same time either finds the new status in the
store or receives the change.

A direct subscriber's inbox starts with the status that the tab has at that moment. A gateway
connection is sent the status of every tab (`replay`).
-/

namespace TabBoard

/-- The statuses of the tabs, the direct subscribers, and what waits to leave through the
gateway. -/
structure Store where
  statuses : List Status
  fanout : Fanout := {}
  /-- Whether changes also leave through a gateway. -/
  external : Bool := false
  outbox : List (Recipient × Status.Update) := []
  deriving Repr, DecidableEq, Inhabited

namespace Store

/-- All tabs running. -/
def ofSize (tabs : Nat) (external : Bool := false) : Store where
  statuses := List.replicate tabs .running
  external

def size (s : Store) : Nat := s.statuses.length

def current (s : Store) (tab : Nat) : Except UnknownTab Status :=
  match s.statuses[tab]? with
  | some status => .ok status
  | none => .error ⟨tab, s.size⟩

/-- Appends a delivery to the outbox if there is a gateway. -/
def post (s : Store) (whom : Recipient) (u : Status.Update) : Store :=
  if s.external then { s with outbox := s.outbox ++ [(whom, u)] } else s

/-- Stores the status of a tab and hands it to everyone. -/
def emit (s : Store) (tab : Nat) (status : Status) : Except UnknownTab Store :=
  if tab < s.size then
    let u : Status.Update := ⟨tab, status⟩
    .ok ({ s with
      statuses := s.statuses.set tab status
      fanout := s.fanout.deliver .all u }.post .all u)
  else .error ⟨tab, s.size⟩

def subscribe (s : Store) (id : String) (tab : Nat) : Except UnknownTab Store :=
  match s.statuses[tab]? with
  | some status => .ok { s with fanout := s.fanout.register id tab [⟨tab, status⟩] }
  | none => .error ⟨tab, s.size⟩

def unsubscribe (s : Store) (id : String) : Store :=
  { s with fanout := ((s.fanout.remove id).2.dropInbox id).2 }

/-- Sends the status of every tab to one connection. -/
def replay (s : Store) (id : String) : Store :=
  (s.statuses.zipIdx.map fun (status, tab) => (⟨tab, status⟩ : Status.Update)).foldl
    (·.post (.one id) ·) s

end Store

end TabBoard
