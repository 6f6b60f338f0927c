import TabBoard.Decimal.Natural
import TabBoard.Http.Error
import TabBoard.Json.Printer
import TabBoard.Text.Percent

/-!
# Requests, routes and responses

A request is looked at by its method and the path of its address. Every route takes one method; a
route that takes `GET` takes `HEAD` as well, and answers it without a body. `OPTIONS` is answered
for every path. Every response may be read by pages of any site.
-/

namespace TabBoard.Http

/-- The body of a request: octets, whether or not they spell a text. -/
structure Body where
  octets : Text.Utf8.Octets := []
  deriving Repr, DecidableEq, Inhabited

instance : Coe String Body := ⟨fun s => ⟨Text.Utf8.encode s⟩⟩

structure Request where
  method : String
  uri : String
  headers : List (String × String) := []
  body : Body := {}
  deriving Repr, DecidableEq, Inhabited

namespace Request

def address (r : Request) : List Char := r.uri.toList.takeWhile (· != '#')

def path (r : Request) : List Char := r.address.takeWhile (· != '?')

def query (r : Request) : String := String.ofList ((r.address.dropWhile (· != '?')).drop 1)

/-- The first header of the given name, whatever its case. -/
def header? (r : Request) (name : String) : Option String :=
  (r.headers.find? fun h => Text.sameIgnoringCase h.1 name).map (·.2)

end Request

/-- An answer of this server. A stream has no text. -/
structure Response where
  status : Nat
  headers : List (String × String) := []
  body : Option String := some ""
  deriving Repr, DecidableEq, Inhabited

namespace Response

def json (status : Nat) (j : Json) : Response where
  status
  headers := [("content-type", "application/json")]
  body := some j.render

def text (status : Nat) (s : String) : Response where
  status
  headers := [("content-type", "text/plain; charset=utf-8")]
  body := some s

def ofError (e : Error) : Response := .json e.status e.body

def eventStream : Response where
  status := 200
  headers := [("content-type", "text/event-stream"), ("cache-control", "no-cache"),
    ("x-accel-buffering", "no")]
  body := none

/-- The response as it leaves: for pages of any site, and without its body if only the head was
asked for. -/
def sealed (r : Response) (method : String) : Response where
  status := r.status
  headers := r.headers ++ [("access-control-allow-origin", "*")]
  body := if method = "HEAD" then r.body.map fun _ => "" else r.body

end Response

inductive Route where
  | config
  | restart (index : String)
  | status (index : String)
  | stream (index : String)
  | callback
  | health
  | live
  | ready
  | metrics
  deriving Repr, DecidableEq, Inhabited

namespace Route

def ofPath? (path : List Char) : Option Route :=
  match (Text.splitAll '/' path).map String.ofList with
  | ["", "api", "config"] => some .config
  | ["", "api", "restart", index] => if index = "" then none else some (.restart index)
  | ["", "api", "status", index] => if index = "" then none else some (.status index)
  | ["", "api", "status", index, "stream"] => if index = "" then none else some (.stream index)
  | ["", "api", "sse", "callback"] => some .callback
  | ["", "health"] => some .health
  | ["", "live"] => some .live
  | ["", "ready"] => some .ready
  | ["", "metrics"] => some .metrics
  | _ => none

def methods : Route → List String
  | .restart _ => ["POST"]
  | .callback => ["POST"]
  | _ => ["GET", "HEAD"]

def allow (r : Route) : String × String := ("allow", ",".intercalate r.methods)

end Route

/-- The tab that a segment of a path names. -/
def tabIndex (segment : String) : Except Error Nat :=
  match Text.Utf8.decode? (Text.Percent.decode (Text.Utf8.encode segment)) with
  | none => .error (.notFound "Unknown tab: Invalid UTF-8 in \x60idx\x60")
  | some s =>
    match Decimal.natural? Decimal.max64 s with
    | some n => .ok n
    | none => .error (.notFound s!"Unknown tab: Cannot parse \x60{s}\x60 to a \x60u64\x60")

end TabBoard.Http
