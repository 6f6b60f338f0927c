import TabBoard.Json.Decode
import TabBoard.Json.Printer

/-!
# The status of a tab

A tab is running, restarting or in error; only an error carries a message. An `Update` says which
tab took which status.

On the wire a status is an object of `state` and `message`, and an update has `tab_index` in front
of these two.
-/

namespace TabBoard

/-- The live state of what is behind a tab. -/
inductive Status.State where
  | running
  | restarting
  | error
  deriving Repr, DecidableEq, Inhabited

/-- The last known status of a tab. -/
structure Status where
  state : Status.State
  /-- What went wrong; present exactly for an error. -/
  message : Option String := none
  deriving Repr, DecidableEq, Inhabited

namespace Status

namespace State

structure Unknown where
  name : String
  deriving Repr, DecidableEq

def Unknown.message (e : Unknown) : String := s!"Invalid status state: {e.name}"

def name : State → String
  | .running => "running"
  | .restarting => "restarting"
  | .error => "error"

def table : List (String × State) :=
  [("running", .running), ("restarting", .restarting), ("error", .error)]

def ofName (s : String) : Except Unknown State :=
  match table.lookup s with
  | some state => .ok state
  | none => .error ⟨s⟩

@[simp] theorem ofName_name (s : State) : ofName s.name = .ok s := by
  cases s <;> rfl

end State

def running : Status := ⟨.running, none⟩

def restarting : Status := ⟨.restarting, none⟩

def error (message : String) : Status := ⟨.error, some message⟩

/-- The members of a status on the wire. -/
def members (s : Status) : List (String × Json) :=
  [("state", .text s.state.name), ("message", .optText s.message)]

def toJson (s : Status) : Json := .ofMembers s.members

/-- Reads a status. An array has to name both fields. -/
def decoder : Json.Decoder Status := fun depth j => do
  let r ← Json.record ["state", "message"] depth j
  let state ← r.required "state" (.oneOf State.table)
  let message ← r.nullable "message" .text
  return { state, message }

structure Update where
  tab : Nat
  status : Status
  deriving Repr, DecidableEq, Inhabited

namespace Update

def toJson (u : Update) : Json := .ofMembers (("tab_index", .nat u.tab) :: u.status.members)

def decoder : Json.Decoder Update := fun depth j => do
  let r ← Json.record ["tab_index", "state", "message"] depth j
  let tab ← r.required "tab_index" (.nat 18446744073709551615)
  let state ← r.required "state" (.oneOf State.table)
  let message ← r.nullable "message" .text
  return ⟨tab, { state, message }⟩

end Update

end Status

end TabBoard
