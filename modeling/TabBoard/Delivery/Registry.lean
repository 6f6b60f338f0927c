import TabBoard.Delivery.Fanout
import TabBoard.Table

/-!
# The registry of gateway connections

A client is known by its request id, and the gateway by the token of its current connection. The
registry keeps both directions: the connection of each request id, and the request id of each token
(`Registry.Consistent` says that they agree).

Each function below is one indivisible step. Sending takes several: `targets` picks the
connections, and what the gateway answers for each of them is worked in later, when the registry
may have changed.
-/

namespace TabBoard

/-- The subject of everyone when nobody has to identify themselves. -/
def localUser : String := "local-user"

structure Connection where
  token : String
  url : String
  /-- Who is behind it, once that is known. -/
  subject : Option String := none
  deriving Repr, DecidableEq, Inhabited

structure Registry where
  connections : Table String Connection := {}
  tokens : Table String String := {}
  deriving Repr, DecidableEq, Inhabited

namespace Registry

/-- A token leads to a request id exactly when the connection of the request id has the token. -/
def Consistent (r : Registry) : Prop :=
  ∀ token id, r.tokens.get? token = some id ↔
    ∃ c, r.connections.get? id = some c ∧ c.token = token

def size (r : Registry) : Nat := r.connections.size

def contains (r : Registry) (id : String) : Bool := r.connections.contains id

def connection? (r : Registry) (id : String) : Option Connection := r.connections.get? id

def isCurrent (r : Registry) (id token : String) : Bool :=
  (r.connections.get? id).any (·.token = token)

/-- Forgets a connection if it is the current one. -/
def removeIfCurrent (r : Registry) (id token : String) : Registry :=
  if r.isCurrent id token then ⟨r.connections.erase id, r.tokens.erase token⟩ else r

/-- A token that appears under another request id invalidates the connection it had. -/
def releaseToken (r : Registry) (id token : String) : Registry :=
  match r.tokens.get? token with
  | some owner => if owner = id then r else r.removeIfCurrent owner token
  | none => r

/-- The token that a new connection of the request id takes the place of. -/
def replaced (r : Registry) (id token : String) : Option String :=
  ((r.connections.get? id).map (·.token)).filter (· ≠ token)

/-- Registers a connection. Also gives the token it takes the place of, if any. -/
def connect (r : Registry) (id token url : String) : Registry × Option String :=
  let r := r.releaseToken id token
  let old := r.replaced id token
  let tokens := match old with
    | some old => r.tokens.erase old
    | none => r.tokens
  (⟨r.connections.insert id { token, url }, tokens.insert token id⟩, old)

inductive Disconnected where
  /-- Nobody has the token. -/
  | unknown
  /-- The token leads to a request id that has another connection by now. -/
  | stale
  | removed (id : String)
  deriving Repr, DecidableEq

def disconnect (r : Registry) (token : String) : Registry × Disconnected :=
  match r.tokens.get? token with
  | none => (r, .unknown)
  | some id =>
    if r.isCurrent id token then (r.removeIfCurrent id token, .removed id)
    else ({ r with tokens := r.tokens.erase token }, .stale)

/-- Attaches a subject to a live connection. Nothing if there is none. -/
def bind? (r : Registry) (id subject : String) : Option Registry :=
  if r.contains id then
    some { r with connections := r.connections.modify id ({ · with subject := some subject }) }
  else none

/-- The connection takes part in a broadcast that is narrowed to a subject. -/
def matchesSubject (subject : Option String) (c : Connection) : Bool :=
  match subject with
  | none => true
  | some s => c.subject.any fun t => t = s ∨ t = localUser

/-- The connections that a delivery goes to, each as request id and token. -/
def targets (r : Registry) (whom : Recipient) (subject : Option String) : List (String × String) :=
  match whom with
  | .one id => ((r.connections.get? id).map fun c => (id, c.token)).toList
  | .all =>
    (r.connections.entries.filter fun e => matchesSubject subject e.2).map
      fun e => (e.1, e.2.token)

end Registry

end TabBoard
