import TabBoard.Cluster.Watch
import TabBoard.Duration
import TabBoard.Files.Basic
import TabBoard.Http.Message
import TabBoard.Json.Printer
import TabBoard.Tab
import TabBoard.Url.Parser

/-!
# Talking to the cluster

A client is known by the address of the cluster and by the token that its requests carry. There are
three calls on a deployment: mark it for a restart, read it, and watch it. For each of them the
client says which request to send and what the reply means. A watch stays open while its reply
arrives (`OpenWatch`).

The texts of errors end before the cause that the program adds in the words of a library: why the
file of a token cannot be read (`Client.token?`), why a body holds no deployment
(`deploymentOfReply`), and why there is no reply or not all of it (`accepted`, `OpenWatch.await`).
-/

namespace TabBoard.Cluster

open Text.Utf8 (Octets)

/-- What a request is authorized with. -/
inductive Credential where
  | anonymous
  | token (text : String)
  /-- The file that holds the token, which is read anew for each request. -/
  | file (path : String)
  deriving Repr, DecidableEq, Inhabited

structure Client where
  base : Url
  credential : Credential := .anonymous
  deriving Repr, DecidableEq, Inhabited

namespace Client

/-- The client of the cluster at an address. The address has to be a URL whose path can be
extended. -/
def ofAddress [Url.Idna] (address : String) : Except Error Client :=
  match Url.ofText address with
  | .error e => .error (.setup s!"invalid API server URL '{address}': {e.message}")
  | .ok base =>
    if base.cannotBeBase then
      .error (.setup s!"API server URL '{base.toText}' cannot be used as a base")
    else .ok { base }

/-! ## Addresses -/

def deploymentsUrl (c : Client) (space : String) : Url :=
  ["apis", "apps", "v1", "namespaces", space, "deployments"].foldl Url.pushSegment
    c.base.popEmptySegment

def deploymentUrl (c : Client) (key : DeploymentKey) : Url :=
  (c.deploymentsUrl key.space).pushSegment key.name

/-- The address of a watch on a deployment, which the cluster ends after a time in whole seconds. -/
def watchUrl (c : Client) (key : DeploymentKey) (limit : Duration) : Url :=
  (c.deploymentsUrl key.space).appendPairs
    [("watch", "true"), ("fieldSelector", "metadata.name=" ++ key.name),
      ("timeoutSeconds", toString (max limit.secs 1))]

/-! ## Requests -/

variable {m : Type → Type} [Monad m] [FileSystem m]

/-- The token of the next request. -/
def token? (c : Client) : m (Except Error (Option String)) := do
  match c.credential with
  | .anonymous => return .ok none
  | .token text => return .ok (some text)
  | .file path =>
    match ← Files.readText path with
    | some text => return .ok (some (Text.trimmed text))
    | none => return .error (.setup s!"cannot read token {path}")

def request (c : Client) (method : String) (url : Url) (headers : List (String × String))
    (body : String) : m (Except Error Http.Outgoing) := do
  match ← c.token? with
  | .error e => return .error e
  | .ok token =>
    let authorization := (token.map fun t => ("authorization", "Bearer " ++ t)).toList
    if authorization.all fun h => Http.isHeaderValue h.2 then
      let headers := [("accept", "application/json")] ++ authorization ++ headers
      return .ok { method, url := url.toText, headers, body }
    else return .error (.transport "the token cannot stand in a header")

/-- The mark that makes the cluster start every pod of a deployment anew. -/
def restartMark (marker : String) : Json :=
  .ofMembers [("spec", .ofMembers [("template", .ofMembers [("metadata", .ofMembers
    [("annotations", .ofMembers [("kubectl.kubernetes.io/restartedAt", .text marker)])])])])]

def patch (c : Client) (key : DeploymentKey) (marker : String) : m (Except Error Http.Outgoing) :=
  c.request "PATCH" (c.deploymentUrl key)
    [("content-type", "application/strategic-merge-patch+json")] (restartMark marker).render

def read (c : Client) (key : DeploymentKey) : m (Except Error Http.Outgoing) :=
  c.request "GET" (c.deploymentUrl key) [] ""

def watch (c : Client) (key : DeploymentKey) (limit : Duration) :
    m (Except Error Http.Outgoing) :=
  c.request "GET" (c.watchUrl key limit) [] ""

end Client

/-! ## Replies -/

/-- The cluster's words for a refusal. A body that explains nothing is as good as none. -/
def Error.ofReply (r : Http.Reply) : Error :=
  let body := if r.cut then "" else Text.Utf8.decodeLossy r.body
  let status := ((Json.Document.ofText body).decode Status.decoder).toOption.getD {}
  let reason := (status.reason.filter (· ≠ "")).getD (Http.phrase r.status)
  .rejected r.status reason status.message

/-- The reply, if there is one and it is no refusal. -/
def accepted (reply : Option Http.Reply) : Except Error Http.Reply :=
  match reply with
  | none => .error (.transport "no reply")
  | some r => if r.isSuccess then .ok r else .error (.ofReply r)

def deploymentOfReply (reply : Option Http.Reply) : Except Error Deployment := do
  let r ← accepted reply
  if r.cut then throw (.transport "the reply was cut short")
  match (Json.Document.ofOctets r.body).decode Deployment.decoder with
  | .ok d => return d
  | .error _ => throw (.undecodable "invalid deployment object")

/-! ## Open watches -/

/-- A watch and what has yet to arrive of its reply. -/
structure OpenWatch where
  lines : Lines := {}
  chunks : List Octets := []
  cut : Bool := false
  /-- The connection is held. -/
  connected : Bool := true
  deriving Repr, DecidableEq, Inhabited

namespace OpenWatch

def ofReply (reply : Option Http.Reply) : Except Error OpenWatch :=
  (accepted reply).map fun r => { chunks := r.chunks, cut := r.cut }

def stop (w : OpenWatch) : OpenWatch := { w with connected := false }

/-- The next event once nothing more arrives. -/
def finish (lines : Lines) : Except Error (Option Event) × OpenWatch :=
  let (event, lines) := lines.finish
  ((event.map (·.map some)).getD (.ok none), { lines, connected := false })

/-- The next event while chunks arrive. -/
def await (cut : Bool) (lines : Lines) : List Octets → Except Error (Option Event) × OpenWatch
  | [] =>
    match lines.next with
    | (some event, lines) => (event.map some, { lines, cut })
    | (none, lines) =>
      if cut then
        (.error (.transport "the reply was cut short"), { lines, connected := false })
      else finish lines
  | chunk :: chunks =>
    match lines.next with
    | (some event, lines) => (event.map some, { lines, chunks := chunk :: chunks, cut })
    | (none, lines) => await cut (lines.push chunk) chunks

/-- The next event, or nothing once the watch is over. Lines that arrived before the connection was
let go are still given out. -/
def next (w : OpenWatch) : Except Error (Option Event) × OpenWatch :=
  if w.connected then await w.cut w.lines w.chunks else finish w.lines

end OpenWatch

end TabBoard.Cluster
