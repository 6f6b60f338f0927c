import TabBoard.Json.Decode

/-!
# Refusals of the cluster

`Cluster.Status` is the object by which the cluster explains a refusal. `Cluster.Error` is what can
come of a call: the cluster refuses, the exchange breaks off, the answer cannot be decoded, or the
client is not set up for the call.
-/

namespace TabBoard.Cluster

/-- The object by which the cluster explains itself. -/
structure Status where
  code : Option Nat := none
  reason : Option String := none
  message : Option String := none
  deriving Repr, DecidableEq, Inhabited

namespace Status

def describe (s : Status) : String :=
  match s.reason, s.message with
  | some reason, some message => s!"{reason}: {message}"
  | some reason, none => reason
  | none, some message => message
  | none, none =>
    match s.code with
    | some code => s!"watch error (code {code})"
    | none => "watch error"

def decoder : Json.Decoder Status := fun depth j => do
  let r ← Json.record ["code", "reason", "message"] depth j
  let code ← r.get? "code" (.nat 65535)
  let reason ← r.get? "reason" .text
  let message ← r.get? "message" .text
  return { code, reason, message }

def toJson (s : Status) : Json := .ofMembers
  [("code", (s.code.map Json.nat).getD .null), ("reason", .optText s.reason),
    ("message", .optText s.message)]

end Status

/-- Why a call to the cluster came to nothing. -/
inductive Error where
  /-- The cluster answered with a status other than success. -/
  | rejected (status : Nat) (reason : String) (message : Option String)
  /-- There was no answer, or only a part of one. -/
  | transport (message : String)
  /-- The answer is not the object that was asked for. -/
  | undecodable (message : String)
  /-- The client lacks what the call needs. -/
  | setup (message : String)
  deriving Repr, DecidableEq, Inhabited

namespace Error

def reason : Error → String
  | .rejected _ reason (some message) =>
    if message = "" then reason else s!"{reason}: {message}"
  | .rejected _ reason none => reason
  | .transport message => message
  | .undecodable message => message
  | .setup message => message

def status : Error → Option Nat
  | .rejected status _ _ => some status
  | _ => none

def message (e : Error) : String :=
  match e with
  | .rejected .. => s!"Kubernetes API error: {e.reason}"
  | .transport m => s!"HTTP request error: {m}"
  | .undecodable m => s!"Watch decode error: {m}"
  | .setup m => s!"Kubernetes client configuration error: {m}"

end Error

end TabBoard.Cluster
