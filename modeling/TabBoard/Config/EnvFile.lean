import TabBoard.Config.Basic
import TabBoard.Files.Basic

/-!
# Files with variables

A file of variables holds lines of the form `NAME=value`, with an optional word `export` before the
name. A variable that is set already keeps its value.

A value ends at a blank, behind which only a comment may stand. Single quotes keep everything as it
is. In double quotes, and without quotes, a backslash protects the next character, and `$NAME` and
`${NAME}` stand for the value of a variable that is known by then. A quoted value may span
several lines.

The first line that is wrong ends the reading; what stands before it counts.
-/

namespace TabBoard.Config.EnvFile

/-! ## Lines -/

/-- What a line that may go on looks like at some place in it. -/
inductive Place where
  | plain
  /-- Behind a blank, where a comment may begin. -/
  | blank
  | single
  | double
  /-- Behind a backslash, outside quotes. -/
  | escape
  | singleEscape
  | doubleEscape
  deriving Repr, DecidableEq, Inhabited

/-- The place where a backslash or a quote leads to. -/
def Place.opened : Char → Place
  | '\\' => .escape
  | '"' => .double
  | '\'' => .single
  | _ => .plain

def Place.step (p : Place) (c : Char) : Place :=
  match p with
  | .plain => if Text.isBlank c && c != '\n' && c != '\r' then .blank else opened c
  | .blank => opened c
  | .single => if c = '\\' then .singleEscape else if c = '\'' then .plain else .single
  | .double => if c = '\\' then .doubleEscape else if c = '"' then .plain else .double
  | .escape => .plain
  | .singleEscape => .single
  | .doubleEscape => .double

/-- The line up to its comment, with the place where it ends if it has no comment. -/
def scan (p : Place) : List Char → List Char × Option Place
  | [] => ([], some p)
  | c :: rest =>
    if p = .blank ∧ c = '#' then ([], none)
    else
      let (kept, ending) := scan (p.step c) rest
      (c :: kept, ending)

def withoutBreak (cs : List Char) : List Char :=
  match cs.reverse with
  | '\n' :: '\r' :: rest => rest.reverse
  | '\n' :: rest => rest.reverse
  | _ => cs

/-- The next statement and the lines behind it. `none` among the lines is one that is no text. -/
def statement (before : List Char) (p : Place) :
    List (Option (List Char)) → Option (List Char × List (Option (List Char)))
  | [] => none
  | none :: _ => none
  | some line :: lines =>
    let all := before ++ line
    if ((all.dropWhile Text.isBlank).head? == some '#') then some ([], lines)
    else
      match scan p line with
      | (kept, none) => some (before ++ kept, lines)
      | (_, some .plain) => some (withoutBreak all, lines)
      | (_, some p) => statement all p lines

theorem length_of_statement {before : List Char} {p : Place} {lines : List (Option (List Char))}
    {cs : List Char} {rest : List (Option (List Char))}
    (h : statement before p lines = some (cs, rest)) : rest.length < lines.length := by
  induction lines generalizing before p with
  | nil => simp [statement] at h
  | cons line lines ih =>
    cases line with
    | none => simp [statement] at h
    | some line =>
      simp only [statement] at h
      split at h
      · grind
      · split at h
        · grind
        · grind
        · exact Nat.lt_succ_of_lt (ih h)

/-- The lines of a file, each with its break. -/
def linesFrom (current : Text.Utf8.Octets) : Text.Utf8.Octets → List Text.Utf8.Octets
  | [] => if current.isEmpty then [] else [current.reverse]
  | b :: rest => if b = 10 then (b :: current).reverse :: linesFrom [] rest
    else linesFrom (b :: current) rest

/-! ## Values -/

/-- A letter or digit, as they may stand in the name behind a dollar sign. Of the characters beyond
ASCII these are taken to be all but the signs between letters of the Latin alphabet and the blocks
of punctuation and symbols. -/
def isNameChar (c : Char) : Bool :=
  c.isAlphanum ||
    (0xC0 ≤ c.val && c.val != 0xD7 && c.val != 0xF7 &&
      !(0x2000 ≤ c.val && c.val ≤ 0x206F) && !(0x20A0 ≤ c.val && c.val ≤ 0x20CF) &&
      !(0x2190 ≤ c.val && c.val ≤ 0x245F) && !(0x2500 ≤ c.val && c.val ≤ 0x2BFF) &&
      !(0x3000 ≤ c.val && c.val ≤ 0x3004) && !(0x3008 ≤ c.val && c.val ≤ 0x3020) &&
      !(0xE000 ≤ c.val && c.val ≤ 0xF8FF) && !(0x1F000 ≤ c.val && c.val ≤ 0x1FAFF))

inductive Quotes where
  | none
  | single
  | double
  deriving Repr, DecidableEq, Inhabited

structure Value where
  text : List Char := []
  quotes : Quotes := .none
  escaped : Bool := false
  /-- Only a comment may follow. -/
  ended : Bool := false
  /-- The name behind a dollar sign, and whether it stands in braces. -/
  name : Option (List Char × Bool) := none
  deriving Repr, DecidableEq, Inhabited

namespace Value

def put (v : Value) (c : Char) : Value := { v with text := v.text ++ [c] }

def substitute (env : Environment) (v : Value) : Value :=
  match v.name with
  | some (name, _) =>
    { v with text := v.text ++ (env.text (String.ofList name) "").toList, name := none }
  | none => v

def escape (v : Value) (c : Char) : Option Value :=
  let v := { v with escaped := false }
  if ['\\', '\'', '"', '$', ' '].contains c then some (v.put c)
  else if c = 'n' then some (v.put '\n')
  else none

/-- The value with a character of a name, or the one behind it. -/
def extend (env : Environment) (v : Value) (name : List Char) (braces : Bool) (c : Char) : Value :=
  if isNameChar c then { v with name := some (name ++ [c], braces) }
  else if braces then
    if c = '\x7d' then v.substitute env else { v with name := some (name ++ [c], braces) }
  else if c = '\x7b' ∧ name = [] then { v with name := some ([], true) }
  else
    let v := v.substitute env
    if c = '$' then { v with name := some ([], false) } else v.put c

/-- The value with a character that has no context of its own. -/
def plain (v : Value) (c : Char) : Value :=
  if c = '$' then { v with name := some ([], false) }
  else if c = '\\' then { v with escaped := true }
  else if v.quotes = .double then
    if c = '"' then { v with quotes := .none } else v.put c
  else if c = '\'' then { v with quotes := .single }
  else if c = '"' then { v with quotes := .double }
  else if c = ' ' ∨ c = '\t' then { v with ended := true }
  else v.put c

def step (env : Environment) (v : Value) (c : Char) : Option Value :=
  if v.escaped then v.escape c
  else if v.quotes = .single then
    some (if c = '\'' then { v with quotes := .none } else v.put c)
  else
    match v.name with
    | some (name, braces) => some (v.extend env name braces c)
    | none => some (v.plain c)

/-- The value with all of a text, up to a comment. -/
def readFrom (env : Environment) (v : Value) : List Char → Option Value
  | [] => some v
  | c :: rest =>
    if v.ended then
      if c = ' ' ∨ c = '\t' then readFrom env v rest
      else if c = '#' then some v
      else none
    else (v.step env c).bind fun v => readFrom env v rest

/-- The finished value; quotes and braces have to be closed. -/
def finish (env : Environment) (v : Value) : Option String :=
  if v.quotes ≠ .none ∨ (v.name.any (·.2)) then none
  else some (String.ofList (v.substitute env).text)

def ofText? (env : Environment) (cs : List Char) : Option String :=
  (readFrom env {} cs).bind (finish env)

end Value

/-! ## Statements -/

/-- The name at the start of a text, and what follows behind blanks. -/
def name? (cs : List Char) : Option (String × List Char) :=
  let inName := fun (c : Char) => c.isAlphanum || c == '_' || c == '.'
  match cs with
  | c :: _ =>
    if c.isAlpha || c == '_' then
      some (String.ofList (cs.takeWhile inName),
        (cs.dropWhile inName).dropWhile Text.isBlank)
    else none
  | [] => none

/-- The name that a statement sets, and what stands behind the equals sign. -/
def target? (cs : List Char) : Option (String × List Char) := do
  let (name, rest) ← name? cs
  match rest with
  | '=' :: rest => return (name, rest)
  | _ =>
    if name = "export" then
      match ← name? rest with
      | (name, '=' :: rest) => return (name, rest)
      | _ => none
    else none

/-- Reads a statement: nothing if it is wrong, and no variable if there is nothing in it. -/
def assignment? (env : Environment) (cs : List Char) : Option (Option (String × String)) :=
  let cs := (Text.trimEndBy Text.isBlank cs).dropWhile Text.isBlank
  if cs = [] ∨ cs.head? = some '#' then some none
  else
    (target? cs).bind fun (name, rest) =>
      let rest := rest.dropWhile Text.isBlank
      if rest = [] ∨ rest.head? = some '#' then some (some (name, ""))
      else (Value.ofText? env rest).map fun value => some (name, value)

/-- The environment with the variables of the lines that it does not have. -/
def addLines (env : Environment) (lines : List (Option (List Char))) : Environment :=
  match _h : statement [] .plain lines with
  | none => env
  | some (cs, rest) =>
    match assignment? env cs with
    | none => env
    | some none => addLines env rest
    | some (some (name, value)) =>
      addLines (if env.contains name then env else env.insert name value) rest
termination_by lines.length
decreasing_by all_goals exact length_of_statement _h

/-- The mark that a file may start with. -/
def byteOrderMark : Text.Utf8.Octets := [0xEF, 0xBB, 0xBF]

def addFile (env : Environment) (content : Text.Utf8.Octets) : Environment :=
  let content := if byteOrderMark.isPrefixOf content then content.drop 3 else content
  addLines env ((linesFrom [] content).map fun line =>
    (Text.Utf8.decode? line).map String.toList)

end TabBoard.Config.EnvFile
