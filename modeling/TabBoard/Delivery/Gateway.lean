import TabBoard.Http.Message
import TabBoard.Status

/-!
# The event gateway

The gateway holds the connections of the clients and is told over HTTP what to send to which token.
An event has a name and a text of data; a request without an event asks for the connection to be
closed.

Why the gateway was not reached is told in one text (`SendOutcome.ofReply`), where the program has
the words of its HTTP library.
-/

namespace TabBoard

structure OutboundEvent where
  name : String
  data : String
  deriving Repr, DecidableEq, Inhabited

def OutboundEvent.tabStatus : String := "tab_status"

/-- The event for a status that a tab took. -/
def OutboundEvent.ofUpdate (u : Status.Update) : OutboundEvent :=
  ⟨OutboundEvent.tabStatus, u.toJson.render⟩

inductive SendOutcome where
  | delivered
  /-- The gateway does not know the token. -/
  | notFound
  | rejected (status : Nat)
  | unreachable (reason : String)
  deriving Repr, DecidableEq, Inhabited

namespace SendOutcome

def isDelivered : SendOutcome → Bool
  | .delivered => true
  | _ => false

def label : SendOutcome → String
  | .delivered => "success"
  | .notFound => "not_found"
  | .rejected _ => "rejected"
  | .unreachable _ => "unreachable"

/-- What a reply means; no reply means that the gateway was not reached. -/
def ofReply : Option Http.Reply → SendOutcome
  | none => .unreachable "no reply"
  | some r =>
    if r.status = 200 then .delivered
    else if r.status = 404 then .notFound
    else .rejected r.status

end SendOutcome

structure Gateway where
  url : String
  deriving Repr, DecidableEq, Inhabited

namespace Gateway

/-- The gateway at a base address, with or without slashes at its end. -/
def ofBase (base : String) : Gateway :=
  ⟨String.ofList ((base.toList.reverse.dropWhile (· = '/')).reverse) ++ "/internal/send"⟩

/-- The body of a request: the token, the event if there is one, and whether to close. -/
def body (token : String) (event : Option OutboundEvent) : Json :=
  .ofMembers (
    [("token", .text token)] ++
    (match event with
      | some e => [("event", .ofMembers [("name", .text e.name), ("data", .text e.data)])]
      | none => []) ++
    [("close", .bool event.isNone)])

def bodyDecoder : Json.Decoder (String × Option OutboundEvent × Bool) := fun depth j => do
  let r ← Json.record ["token", "event", "close"] depth j
  let token ← r.required "token" .text
  let event ← r.get? "event" fun depth j => do
    let e ← Json.record ["name", "data"] depth j
    return (⟨← e.required "name" .text, ← e.required "data" .text⟩ : OutboundEvent)
  let close ← r.required "close" .bool
  return (token, event, close)

/-- The request that asks the gateway to send an event, or to close the connection. -/
def request (g : Gateway) (token : String) (event : Option OutboundEvent) : Http.Outgoing where
  method := "POST"
  url := g.url
  headers := [("content-type", "application/json")]
  body := (body token event).render

end Gateway

end TabBoard
