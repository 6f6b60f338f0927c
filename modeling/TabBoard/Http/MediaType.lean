import TabBoard.Text.Blank

/-!
# Media types

The value of a `content-type` header: a type, a subtype with an optional suffix behind its last `+`,
and parameters. The value has to be well formed to its end to mean anything.

JSON is `application/json` and everything of type `application` with the suffix `json`.
-/

namespace TabBoard.Http

/-- A media type without its parameters, in lower case. -/
structure MediaType where
  type : String
  subtype : String
  suffix : Option String := none
  deriving Repr, DecidableEq, Inhabited

namespace MediaType

/-- A character that names, and values without quotes, are made of. -/
def isToken (c : Char) : Bool := c.isAlphanum || "!#$%&'*+-.^_|~\x60".toList.contains c

/-- A character that a quoted value may hold. A quote at its very start is one of them. -/
def isQuotable (c : Char) : Bool := 0x20 ≤ c.toNat && c.toNat < 0x7F

/-- What part of a list of parameters was read so far. -/
inductive ParameterState where
  /-- In front of a name. -/
  | start
  | name
  /-- Behind the equals sign. -/
  | valueStart
  | value
  | quoted (isEmpty : Bool)
  /-- Behind a closing quote. -/
  | closed
  deriving Repr, DecidableEq

/-- The characters are parameters, each in front of a semicolon or at the end. -/
def parametersFrom : ParameterState → List Char → Bool
  | .start, [] => true
  | .start, c :: cs =>
    if c = ' ' then parametersFrom .start cs else isToken c && parametersFrom .name cs
  | .name, [] => false
  | .name, c :: cs =>
    if c = '=' then parametersFrom .valueStart cs else isToken c && parametersFrom .name cs
  | .valueStart, [] => true
  | .valueStart, c :: cs =>
    if c = '"' then parametersFrom (.quoted true) cs else isToken c && parametersFrom .value cs
  | .value, [] => true
  | .value, c :: cs =>
    if c = ';' then parametersFrom .start cs else isToken c && parametersFrom .value cs
  | .quoted _, [] => false
  | .quoted isEmpty, c :: cs =>
    if c = '"' && !isEmpty then parametersFrom .closed cs
    else isQuotable c && parametersFrom (.quoted false) cs
  | .closed, [] => true
  | .closed, c :: cs =>
    if c = ';' then parametersFrom .start cs else c == ' ' && parametersFrom .closed cs

/-- The subtype and the suffix behind its last `+`. -/
def splitSuffix (cs : List Char) : List Char × Option (List Char) :=
  match Text.splitOnce '+' cs.reverse with
  | some (suffix, subtype) =>
    if subtype.isEmpty then (cs, none) else (subtype.reverse, some suffix.reverse)
  | none => (cs, none)

def ofText? (s : String) : Option MediaType :=
  let lower := fun cs => Text.asciiLower (String.ofList cs)
  match Text.splitOnce '/' s.toList with
  | none => none
  | some (type, rest) =>
    let sub := rest.takeWhile (· != ';')
    let wellFormed := !type.isEmpty && type.all isToken && sub.all isToken &&
      match rest.dropWhile (· != ';') with
      | [] => true
      | _ :: parameters => !sub.isEmpty && parametersFrom .start parameters
    if wellFormed then
      let (subtype, suffix) := splitSuffix sub
      some { type := lower type, subtype := lower subtype, suffix := suffix.map lower }
    else none

def isJson (m : MediaType) : Bool :=
  m.type == "application" && (m.subtype == "json" || m.suffix == some "json")

end MediaType

end TabBoard.Http
