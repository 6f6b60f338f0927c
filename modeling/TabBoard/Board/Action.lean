import TabBoard.Board.Basic
import TabBoard.Http.Callback
import TabBoard.Http.Route
import TabBoard.Moment

/-!
# What a request asks for

`Board.action` decides a request by looking at the board and leaves the board as it is. Most
requests are answered by that alone; the others ask for something to be done.
-/

namespace TabBoard

/-- What a request asks for. -/
inductive Action where
  /-- Nothing but an answer. -/
  | answer (r : Http.Response)
  | restart (b : Binding)
  | openStream (tab : Nat)
  | connect (id token url : String) (subject : Option String)
  | disconnect (token : String)
  deriving Repr, DecidableEq, Inhabited

namespace Board

open Http (Response)

def version : String := "0.1.0"

def tabJson (t : Tab) : Json :=
  .ofMembers [("text", .text t.caption), ("iconUrl", .text t.iconUrl),
    ("iframeUrl", .text t.frameUrl), ("restartable", .bool t.restartable),
    ("tabColor", .optText t.color)]

def configJson (b : Board) : Json :=
  .ofMembers [("tabs", .array (b.catalog.tabs.map tabJson))]

def healthJson (b : Board) (now : Moment) : Json :=
  .ofMembers [
    ("status", .text (if b.shutdown.triggered then "shutting_down" else "healthy")),
    ("version", .text version),
    ("transport", .text b.settings.transport.name),
    ("components", .ofMembers [
      ("status_store", .text "operational"),
      ("gateway", .text (if b.registry.isSome then "operational" else "disabled")),
      ("auth", .text (if b.settings.auth.enabled then "enabled" else "disabled"))]),
    ("tabs", .nat b.catalog.size),
    ("active_connections", .nat ((b.registry.map Registry.size).getD 0)),
    ("stream_subscribers", .nat b.store.fanout.size),
    ("in_flight_restarts", .nat b.inFlight.size),
    ("timestamp", .text now.toNanos)]

def readiness (b : Board) : Response :=
  if b.shutdown.triggered then .text 503 "Shutting down" else .text 200 "Ready"

def metricsResponse (b : Board) : Response :=
  match b.metricsPage with
  | some page => .text 200 page
  | none => .text 404 "Metrics exporter not installed"

/-- An answer, if it can be given. -/
def answerOr (r : Except Http.Error Action) : Action :=
  match r with
  | .ok a => a
  | .error e => .answer (.ofError e)

def restartAction (b : Board) (segment : String) : Except Http.Error Action := do
  let index ← Http.tabIndex segment
  let binding ← (b.catalog.restartable index).mapError Http.Error.ofCatalog
  return .restart binding

def statusAction (b : Board) (segment : String) : Except Http.Error Action := do
  let index ← Http.tabIndex segment
  let status ← (b.store.current index).mapError Http.Error.ofUnknownTab
  return .answer (.json 200 status.toJson)

def streamAction (b : Board) (segment : String) : Except Http.Error Action := do
  let index ← Http.tabIndex segment
  let _ ← (b.store.current index).mapError Http.Error.ofUnknownTab
  return .openStream index

def reportAction (b : Board) (now : Moment) (r : Http.Request) (secret : Option String) :
    Except Http.Error Action := do
  if b.registry.isNone then throw (.notFound "Gateway transport is not enabled")
  Http.checkSecret b.settings.production b.settings.callbackSecret secret
  match ← Http.Callback.ofBody (r.header? "content-type") r.body with
  | .connect token request =>
    let id ← Http.requestId request.url
    let subject := b.settings.auth.subject? now.seconds request.headers
    return .connect id token request.url subject
  | .disconnect token _ _ => return .disconnect token

def callbackAction (b : Board) (now : Moment) (r : Http.Request) : Action :=
  match Http.suppliedSecret? r.query with
  | none => .answer (.text 400 "Failed to deserialize query string")
  | some secret => answerOr (b.reportAction now r secret)

def routeAction (b : Board) (now : Moment) (r : Http.Request) : Http.Route → Action
  | .config => .answer (.json 200 b.configJson)
  | .restart segment => answerOr (b.restartAction segment)
  | .status segment => answerOr (b.statusAction segment)
  | .stream segment => answerOr (b.streamAction segment)
  | .callback => b.callbackAction now r
  | .health => .answer (.json 200 (b.healthJson now))
  | .live => .answer (.text 200 "OK")
  | .ready => .answer b.readiness
  | .metrics => .answer b.metricsResponse

def action (b : Board) (now : Moment) (r : Http.Request) : Action :=
  let route := Http.Route.ofPath? r.path
  if r.method = "OPTIONS" then
    .answer {
      status := 200
      headers := [("access-control-allow-methods", "*"), ("access-control-allow-headers", "*")] ++
        (route.map Http.Route.allow).toList }
  else
    match route with
    | none => .answer { status := 404 }
    | some route =>
      if route.methods.contains r.method then b.routeAction now r route
      else .answer { status := 405, headers := [route.allow] }

def restartResponse : Except Restart.Error Unit → Response
  | .ok () => .json 200 (.ofMembers [("status", .text "restarting")])
  | .error e => .ofError (.ofRestart e)

def callbackResponse : Response := .json 200 (.ofMembers [("status", .text "ok")])

end Board

end TabBoard
