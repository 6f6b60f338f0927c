import TabBoard.Auth.Extract
import TabBoard.Http.MediaType
import TabBoard.Http.Route
import TabBoard.Table
import TabBoard.Url.Parser

/-!
# Callbacks of the gateway

The gateway reports every connect and disconnect of a client. A report is an object whose member
`action` says which of the two it is, or an array that starts with the action. A connect carries the
request of the client, from whose address the client's request id is taken.

The checks run in this order: the query can be read, the secret is right (`checkSecret`), the body
is JSON and says what it should (`Callback.ofBody`), the address names a request id (`requestId`).

The message for a body that cannot be taken ends before the cause, which the program adds in the
words of its JSON reader. All other messages are complete.
-/

namespace TabBoard.Http

/-- A client's request as the gateway saw it. -/
structure Forwarded where
  url : String
  headers : Auth.Headers := []
  deriving Repr, DecidableEq, Inhabited

inductive Callback where
  | connect (token : String) (request : Forwarded)
  | disconnect (token : String) (reason : Option String) (request : Option Forwarded)
  deriving Repr, DecidableEq, Inhabited

namespace Forwarded

/-- Header values by name; the last one of each name counts. -/
def headersDecoder : Json.Decoder Auth.Headers
  | depth + 1, .object members => do
    let texts ← members.mapM fun (name, value) => do
      match name with
      | some name => return (name, ← Json.Decoder.text depth value)
      | none => throw Json.Fault.malformed
    return (texts.foldl (fun t (name, value) => t.insert name value) ({} : Table _ _)).entries
  | _, j => .error (Json.blame j)

def decoder : Json.Decoder Forwarded := fun depth j => do
  let r ← Json.record ["url", "headers"] depth j
  let url ← r.required "url" .text
  let headers ← r.getD "headers" [] headersDecoder
  return { url, headers }

end Forwarded

/-! ## Reading a report -/

namespace Callback

inductive Action where
  | connect
  | disconnect
  deriving Repr, DecidableEq, Inhabited

def Action.table : List (String × Action) := [("connect", .connect), ("disconnect", .disconnect)]

/-- The action that a value names, spelled exactly. -/
def actionOf : Json → Except Json.Fault Action
  | .string (some s) => ((Action.table.lookup s).map Except.ok).getD (.error .mismatch)
  | j => .error (Json.blame j)

/-- Sets the action apart from the other members, which are read in passing. -/
def splitAction (depth : Nat) (action : Option Action) :
    List (Option String × Json) → Except Json.Fault (Action × List (Option String × Json))
  | [] => ((action.map fun a => .ok (a, [])).getD (.error .mismatch))
  | (none, _) :: _ => .error .malformed
  | (some name, value) :: members =>
    if name = "action" then
      if action.isSome then .error .mismatch
      else
        match actionOf value with
        | .ok a => splitAction depth (some a) members
        | .error e => .error e
    else if value.readable depth then
      (splitAction depth action members).map fun (a, rest) => (a, (some name, value) :: rest)
    else .error .malformed

def fields (action : Action) : Json.Decoder Callback := fun depth j => do
  match action with
  | .connect =>
    let r ← Json.record ["token", "request"] depth j
    return .connect (← r.required "token" .text) (← r.required "request" Forwarded.decoder)
  | .disconnect =>
    let r ← Json.record ["token", "reason", "request"] depth j
    return .disconnect (← r.required "token" .text) (← r.get? "reason" .text)
      (← r.get? "request" Forwarded.decoder)

/-- Reads a report. The action is judged where it stands, and the fields once all of them are
read. -/
def decoder : Json.Decoder Callback
  | depth + 1, .object members => do
    let (action, members) ← splitAction depth none members
    fields action (depth + 1) (.object members)
  | depth + 1, .array (item :: items) => do
    let action ← actionOf item
    if Json.readableItems depth items then fields action (depth + 1) (.array items)
    else throw .malformed
  | _, j => .error (Json.blame j)

/-- The most octets that the body of a report has. -/
def bodyLimit : Nat := 2097152

def ofBody (contentType : Option String) (body : Body) : Except Error Callback :=
  let isJson := ((contentType.bind MediaType.ofText?).map MediaType.isJson).getD false
  if !isJson then
    .error (.badRequest
      "Malformed callback: Expected request with \x60Content-Type: application/json\x60")
  else if bodyLimit < body.octets.length then
    .error (.badRequest
      "Malformed callback: Failed to buffer the request body: length limit exceeded")
  else
    match (Json.Document.ofOctets body.octets).decode decoder with
    | .ok c => .ok c
    | .error .malformed =>
      .error (.badRequest "Malformed callback: Failed to parse the request body as JSON")
    | .error .mismatch =>
      .error (.badRequest
        "Malformed callback: Failed to deserialize the JSON body into the target type")

end Callback

/-! ## The secret -/

/-- The secret in a query, if there is one; nothing at all if there are several. -/
def suppliedSecret? (query : String) : Option (Option String) :=
  match (Form.pairs query).filter (·.1 = "secret") with
  | [] => some none
  | [p] => some (some p.2)
  | _ => none

/-- In production a callback has to bring the configured secret. -/
def checkSecret (production : Bool) (configured supplied : Option String) : Except Error Unit :=
  if !production then .ok ()
  else
    match configured with
    | none => .error (.unauthorized "Callback secret is not configured")
    | some secret =>
      if supplied = some secret then .ok () else .error (.unauthorized "Invalid callback secret")

/-! ## The request id -/

/-- The address that forwarded addresses are relative to. -/
def forwardedBase : Url where
  scheme := "http"
  authority := some { host := .domain "gateway.invalid" }
  path := .segments [""]

/-- The request id that an address names: the first parameter of that name, without blanks at its
ends, decides. -/
def requestId (url : String) : Except Error String :=
  match Url.parse (some forwardedBase) url with
  | .error e => .error (.badRequest s!"Invalid request url '{url}': {e.message}")
  | .ok u =>
    let id := ((u.queryPairs.lookup "request_id").map Text.trimmed).getD ""
    if id = "" then .error (.badRequest "Missing request_id in request url")
    else if id.toList.contains ':' then
      .error (.badRequest "request_id must not contain ':'")
    else .ok id

end TabBoard.Http
