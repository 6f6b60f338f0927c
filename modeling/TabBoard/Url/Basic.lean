import TabBoard.Form
import TabBoard.Url.Host

/-!
# URLs

A URL in its parts, how it is written, and how a path or a query is extended.

The common schemes (`http`, `https`, `ws`, `wss`, `ftp`, `file`) always have a path of segments. A
URL of another scheme may have a path without structure, which nothing can be resolved against.
-/

namespace TabBoard

namespace Url

/-- How the scheme treats slashes, hosts and paths. -/
inductive SchemeKind where
  | file
  | common
  | other
  deriving Repr, DecidableEq, Inhabited

/-- The kind of a scheme, and the port that goes without saying. -/
def schemeKind (scheme : String) : SchemeKind :=
  if scheme = "file" then .file
  else if ["http", "https", "ws", "wss", "ftp"].contains scheme then .common
  else .other

def defaultPort? (scheme : String) : Option Nat :=
  [("http", 80), ("ws", 80), ("https", 443), ("wss", 443), ("ftp", 21)].lookup scheme

/-- A slash, or a backslash where the scheme treats it as one. -/
def SchemeKind.isSlash (kind : SchemeKind) (c : Char) : Bool :=
  c == '/' || (kind != .other && c == '\\')

inductive Path where
  /-- A text without structure. -/
  | opaqueText (text : String)
  /-- Segments, each behind a slash. -/
  | segments (parts : List String)
  deriving Repr, DecidableEq, Inhabited

structure Authority where
  user : String := ""
  password : String := ""
  host : Url.Host
  port : Option Nat := none
  deriving Repr, DecidableEq, Inhabited

end Url

structure Url where
  scheme : String
  authority : Option Url.Authority := none
  path : Url.Path
  query : Option String := none
  fragment : Option String := none
  deriving Repr, DecidableEq, Inhabited

namespace Url

/-! ## Character sets -/

def inFragmentSet (c : Char) : Bool :=
  Text.Percent.isControl c || c == ' ' || c == '"' || c == '<' || c == '>' || c == '\x60'

def inPathSet (c : Char) : Bool :=
  inFragmentSet c || c == '#' || c == '?' || c == '\x7b' || c == '\x7d'

def inUserSet (c : Char) : Bool := inPathSet c || "/:;=@[\\]^|".toList.contains c

def inQuerySet (kind : SchemeKind) (c : Char) : Bool :=
  Text.Percent.isControl c || c == ' ' || c == '"' || c == '#' || c == '<' || c == '>' ||
    (kind != .other && c == '\'')

/-- What is encoded in a segment that comes from elsewhere. -/
def inSegmentSet (kind : SchemeKind) (c : Char) : Bool :=
  inPathSet c || c == '/' || c == '%' || (kind != .other && c == '\\')

/-! ## Writing -/

def Path.toText : Path → String
  | .opaqueText text => text
  | .segments parts => String.join (parts.map ("/" ++ ·))

def Authority.toText (a : Authority) : String :=
  let user := a.user ++ (if a.password = "" then "" else ":" ++ a.password)
  (if user = "" then "" else user ++ "@") ++ a.host.toText ++
    (match a.port with
      | some p => s!":{p}"
      | none => "")

/-- The path and the query, as they stand in a request line. -/
def target (u : Url) : String :=
  u.path.toText ++
    (match u.query with
      | some q => "?" ++ q
      | none => "")

def toText (u : Url) : String :=
  u.scheme ++ ":" ++
    (match u.authority with
      | some a => "//" ++ a.toText
      | none => if u.path.toText.startsWith "//" then "/." else "") ++
    u.target ++
    (match u.fragment with
      | some f => "#" ++ f
      | none => "")

/-! ## Reading the query -/

def queryPairs (u : Url) : List (String × String) :=
  match u.query with
  | some q => Form.pairs q
  | none => []

/-! ## Extending -/

/-- Nothing can be resolved against the URL. -/
def cannotBeBase (u : Url) : Bool :=
  match u.path with
  | .opaqueText _ => true
  | .segments _ => false

/-- Line breaks and tabs never count in a URL. -/
def isDropped (c : Char) : Bool := c == '\t' || c == '\n' || c == '\r'

/-- What a text looks like as a segment of a path. -/
def encodeSegment (kind : SchemeKind) (s : String) : String :=
  String.ofList (Text.Percent.encode (inSegmentSet kind) s.toList)

/-- A path with one more segment. An empty path is a single slash that the first segment stands
behind. A segment that turns out to be `.` or `..` leads nowhere and back, and leaves a slash. -/
def Path.push (kind : SchemeKind) (s : String) : Path → Path
  | .opaqueText text => .opaqueText text
  | .segments parts =>
    if s = "." then .segments (if parts = [""] then [""] else parts ++ [""])
    else if s = ".." then .segments (parts.dropLast ++ [""])
    else if parts = [""] then .segments [encodeSegment kind s]
    else .segments (parts ++ [encodeSegment kind s])

/-- The URL with one more segment, without its line breaks and tabs. The texts `.` and `..` are not
segments and change nothing. -/
def pushSegment (u : Url) (s : String) : Url :=
  if s = "." ∨ s = ".." then u
  else
    let s := String.ofList (s.toList.filter fun c => !isDropped c)
    { u with path := u.path.push (schemeKind u.scheme) s }

/-- The URL without an empty segment at its end. -/
def popEmptySegment (u : Url) : Url :=
  match u.path with
  | .segments parts =>
    if parts.getLast? = some "" ∧ 1 < parts.length then
      { u with path := .segments parts.dropLast }
    else u
  | .opaqueText _ => u

/-- The URL with more pairs in its query. -/
def appendPairs (u : Url) (ps : List (String × String)) : Url :=
  let more := Form.encode ps
  { u with query := some (match u.query with
      | some q => if q = "" then more else q ++ "&" ++ more
      | none => more) }

end Url

end TabBoard
