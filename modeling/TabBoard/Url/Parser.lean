import TabBoard.Url.Basic

/-!
# Reading URLs

`Url.parse?` reads a URL, alone or relative to a base. Blanks and control characters at its ends
and line breaks and tabs anywhere do not count. What has a scheme stands alone, unless the scheme
is that of the base and no two slashes follow.
-/

namespace TabBoard.Url

/-- The characters of a URL that count. -/
def relevant (s : String) : List Char :=
  (Text.trimBy (·.toNat ≤ 0x20) s.toList).filter fun c => !isDropped c

/-- The scheme in lower case, and what follows its colon. -/
def scheme? (cs : List Char) : Option (String × List Char) :=
  match cs with
  | c :: _ =>
    if c.isAlpha then
      let isPart := fun (c : Char) => c.isAlphanum || c == '+' || c == '-' || c == '.'
      match cs.dropWhile isPart with
      | ':' :: rest => some (Text.asciiLower (String.ofList (cs.takeWhile isPart)), rest)
      | _ => none
    else none
  | [] => none

/-- The query and the fragment, for a text that starts with the mark of one of them. -/
def queryAndFragment (kind : SchemeKind) (cs : List Char) : Option String × Option String :=
  let fragment? (cs : List Char) : Option String :=
    match cs with
    | '#' :: rest => some (String.ofList (Text.Percent.encode inFragmentSet rest))
    | _ => none
  match cs with
  | '?' :: rest =>
    (some (String.ofList
      (Text.Percent.encode (inQuerySet kind) (rest.takeWhile (· != '#')))),
      fragment? (rest.dropWhile (· != '#')))
  | cs => (none, fragment? cs)

def isPathEnd (c : Char) : Bool := c == '?' || c == '#'

def splitPath (kind : SchemeKind) (cs : List Char) : List (List Char) :=
  Text.splitAll '/' (cs.map fun c => if kind.isSlash c then '/' else c)

/-- A segment that stands for the current place, or for the one above. -/
def isDot (s : String) : Bool := [".", "%2e"].contains (Text.asciiLower s)

def isDoubleDot (s : String) : Bool :=
  ["..", ".%2e", "%2e.", "%2e%2e"].contains (Text.asciiLower s)

/-- Goes through the pieces of a path, with `done` in front of them. -/
def walk (done : List String) : List String → List String
  | [] => done
  | [last] =>
    if isDoubleDot last then done.dropLast ++ [""]
    else if isDot last then done ++ [""]
    else done ++ [last]
  | s :: rest =>
    if isDoubleDot s then walk done.dropLast rest
    else if isDot s then walk done rest
    else walk (done ++ [s]) rest

/-- The segments of a path relative to those in front of it. -/
def segmentsFrom (kind : SchemeKind) (front : List String) (cs : List Char) : List String :=
  walk front ((splitPath kind cs).map fun p => String.ofList (Text.Percent.encode inPathSet p))

/-- The path that follows an authority: its first slash goes without saying. -/
def rootedPath (kind : SchemeKind) (cs : List Char) : Path :=
  match cs with
  | [] => if kind == .other then .segments [] else .segments [""]
  | c :: rest => .segments (segmentsFrom kind [] (if kind.isSlash c then rest else cs))

/-- A URL from its front, with path, query and fragment read from the rest. -/
def finish (scheme : String) (authority : Option Authority) (cs : List Char) : Url :=
  let kind := schemeKind scheme
  let (query, fragment) := queryAndFragment kind (cs.dropWhile fun c => !isPathEnd c)
  { scheme, authority, query, fragment,
    path := rootedPath kind (cs.takeWhile fun c => !isPathEnd c) }

/-- The port behind a colon, with what follows it. -/
def port? (scheme : String) (cs : List Char) : Except Error (Option Nat × List Char) :=
  let digits := cs.takeWhile Char.isDigit
  let rest := cs.dropWhile Char.isDigit
  let atEnd := match rest with
    | [] => true
    | c :: _ => c == '/' || c == '\\' || c == '?' || c == '#'
  let n := digits.foldl (fun n c => n * 10 + (c.toNat - '0'.toNat)) 0
  if 65535 < n ∨ !atEnd then .error .invalidPort
  else if digits.isEmpty ∨ defaultPort? scheme = some n then .ok (none, rest)
  else .ok (some n, rest)

/-- The characters of a host and what follows them: it ends at a colon outside of brackets, at a
slash, or where the path ends. -/
def spanHost (kind : SchemeKind) (inBrackets : Bool) : List Char → List Char × List Char
  | [] => ([], [])
  | c :: cs =>
    if (c == ':' && !inBrackets) || kind.isSlash c || isPathEnd c then ([], c :: cs)
    else
      let inside := if c == '[' then true else if c == ']' then false else inBrackets
      let (host, rest) := spanHost kind inside cs
      (c :: host, rest)

/-- The user and password in front of the last `@` of the authority, and what follows it. -/
def userInfo? (kind : SchemeKind) (cs : List Char) :
    Except Error (String × String × List Char) :=
  let isEnd := fun c => kind.isSlash c || isPathEnd c
  let front := cs.takeWhile fun c => !isEnd c
  if front.contains '@' then
    let reversed := front.reverse
    let host := (reversed.takeWhile (· != '@')).reverse
    let user := ((reversed.dropWhile (· != '@')).drop 1).reverse
    let rest := host ++ cs.dropWhile fun c => !isEnd c
    if user.isEmpty && host.isEmpty && !rest.isEmpty then .error .emptyHost
    else
      let encode := fun part => String.ofList (Text.Percent.encode inUserSet part)
      match Text.splitOnce ':' user with
      | some (name, password) => .ok (encode name, encode password, rest)
      | none => .ok (encode user, "", rest)
  else .ok ("", "", cs)

/-- The authority behind two slashes, and what follows it. -/
def authority? [Idna] (scheme : String) (cs : List Char) :
    Except Error (Authority × List Char) := do
  let kind := schemeKind scheme
  let (user, password, cs) ← userInfo? kind cs
  let (hostChars, cs) := spanHost kind false cs
  if hostChars.isEmpty ∧ kind = .common then throw .emptyHost
  let host ← if kind = .other then Host.ofOpaque hostChars else Host.ofChars hostChars
  if hostChars.isEmpty ∧ (cs.head? = some ':' ∨ user ≠ "" ∨ password ≠ "") then throw .emptyHost
  match cs with
  | ':' :: rest =>
    let (port, rest) ← port? scheme rest
    return ({ user, password, host, port }, rest)
  | cs => return ({ user, password, host }, cs)

def afterSlashes [Idna] (scheme : String) (cs : List Char) : Except Error Url := do
  let (authority, rest) ← authority? scheme cs
  return finish scheme (some authority) rest

/-- A letter and a colon or bar at the front of a path of files, which is no host. -/
def startsWithDrive (cs : List Char) : Bool :=
  match cs with
  | [c, d] => c.isAlpha && (d == ':' || d == '|')
  | _ => false

/-- What follows the colon of a file's URL. A host may stand behind two slashes. -/
def fileUrl [Idna] (cs : List Char) : Except Error Url :=
  let isSlash := SchemeKind.file.isSlash
  match cs with
  | a :: b :: rest =>
    if isSlash a && isSlash b then
      let isEnd := fun c => isSlash c || isPathEnd c
      let hostChars := rest.takeWhile fun c => !isEnd c
      let behind := rest.dropWhile fun c => !isEnd c
      if hostChars.isEmpty then .ok (finish "file" (some { host := .domain "" }) behind)
      else if startsWithDrive hostChars then
        .ok (finish "file" (some { host := .domain "" }) rest)
      else
        match Host.ofChars hostChars with
        | .ok (.domain "localhost") => .ok (finish "file" (some { host := .domain "" }) behind)
        | .ok host => .ok (finish "file" (some { host }) behind)
        | .error e => .error e
    else .ok (finish "file" (some { host := .domain "" }) cs)
  | cs => .ok (finish "file" (some { host := .domain "" }) cs)

/-- What follows the colon of a URL of an uncommon scheme. -/
def otherUrl [Idna] (scheme : String) (cs : List Char) : Except Error Url :=
  match cs with
  | '/' :: '/' :: rest => afterSlashes scheme rest
  | '/' :: _ => .ok (finish scheme none cs)
  | cs =>
    let (query, fragment) := queryAndFragment .other (cs.dropWhile fun c => !isPathEnd c)
    let path := String.ofList
      (Text.Percent.encode Text.Percent.isControl (cs.takeWhile fun c => !isPathEnd c))
    .ok { scheme, path := .opaqueText path, query, fragment }

/-- The segments of a base that a relative path replaces the last of. -/
def Path.front : Path → List String
  | .segments parts => parts.dropLast
  | .opaqueText _ => []

/-- A URL relative to a base of a common scheme. -/
def relative [Idna] (base : Url) (cs : List Char) : Except Error Url :=
  let kind := schemeKind base.scheme
  match cs with
  | [] => .ok { base with fragment := none }
  | '?' :: _ =>
    let (query, fragment) := queryAndFragment kind cs
    .ok { base with query, fragment }
  | '#' :: _ => .ok { base with fragment := (queryAndFragment kind cs).2 }
  | c :: rest =>
    if kind.isSlash c then
      match rest with
      | d :: after =>
        if kind.isSlash d then
          -- Two plain slashes start the host at once; other slashes may follow any number of times.
          if c == '/' && d == '/' then afterSlashes base.scheme after
          else afterSlashes base.scheme (after.dropWhile kind.isSlash)
        else .ok (finish base.scheme base.authority cs)
      | [] => .ok (finish base.scheme base.authority cs)
    else
      let (query, fragment) := queryAndFragment kind (cs.dropWhile fun c => !isPathEnd c)
      let path := segmentsFrom kind base.path.front (cs.takeWhile fun c => !isPathEnd c)
      .ok { base with path := .segments path, query, fragment }

/-- Reads a URL, relative to a base if one is given. -/
def parse [Idna] (base : Option Url) (s : String) : Except Error Url :=
  let cs := relevant s
  match scheme? cs with
  | some (scheme, rest) =>
    match schemeKind scheme with
    | .file => fileUrl rest
    | .other => otherUrl scheme rest
    | .common =>
      let slashes := (rest.takeWhile (SchemeKind.common.isSlash)).length
      match base with
      | some base =>
        if slashes < 2 ∧ base.scheme = scheme then relative base rest
        else afterSlashes scheme (rest.dropWhile SchemeKind.common.isSlash)
      | none => afterSlashes scheme (rest.dropWhile SchemeKind.common.isSlash)
  | none =>
    match base with
    | some base => relative base cs
    | none => .error .relativeWithoutBase

/-- Reads a URL that stands alone. -/
def ofText [Idna] (s : String) : Except Error Url := parse none s

end TabBoard.Url
