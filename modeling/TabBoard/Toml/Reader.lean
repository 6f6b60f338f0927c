import TabBoard.Toml.Scalar

/-!
# Reading TOML

`Toml.ofText?` reads a document, or nothing if there is a fault anywhere in it. A document is read
line by line into the parts behind its headers, which `Toml.ofParts` puts together.

Arrays and tables in braces may go over several lines, and end with a comma. They may be nested 80
deep. Functions that take a number of steps use at most one for each character.
-/

namespace TabBoard.Toml

/-! ## Blanks and comments -/

def isSpace (c : Char) : Bool := c == ' ' || c == '\t'

def skipSpace (cs : List Char) : List Char := cs.dropWhile isSpace

def lineBreak? : List Char → Option (List Char)
  | '\n' :: cs => some cs
  | '\r' :: '\n' :: cs => some cs
  | _ => none

/-- A character that comments and strings on one line may hold. -/
def isPrintable (c : Char) : Bool := c == '\t' || (0x20 ≤ c.toNat && c.toNat != 0x7F)

def skipComment : List Char → List Char
  | '#' :: cs => cs.dropWhile isPrintable
  | cs => cs

/-- What follows the end of a line on which nothing but a comment is left. -/
def endOfLine? (cs : List Char) : Option (List Char) :=
  match skipComment (skipSpace cs) with
  | [] => some []
  | cs => lineBreak? cs

/-- What follows blanks, comments and line breaks. -/
def skipLines : Nat → List Char → List Char
  | 0, cs => cs
  | steps + 1, cs =>
    let cs := skipComment (skipSpace cs)
    match lineBreak? cs with
    | some cs => skipLines steps cs
    | none => cs

/-! ## Strings -/

/-- The character with the number that so many hexadecimal digits write. -/
def codePoint? (width : Nat) (cs : List Char) : Option (Char × List Char) :=
  let digits := cs.take width
  let n := ofBase 16 digits
  if digits.length = width ∧ digits.all (isDigitOf 16) ∧
      (n < 0xD800 ∨ (0xDFFF < n ∧ n < 0x110000)) then
    some (Char.ofNat n, cs.drop width)
  else none

/-- The character that an escape stands for, behind its backslash. -/
def escape? : List Char → Option (Char × List Char)
  | 'b' :: cs => some ('\x08', cs)
  | 't' :: cs => some ('\t', cs)
  | 'n' :: cs => some ('\n', cs)
  | 'f' :: cs => some ('\x0c', cs)
  | 'r' :: cs => some ('\r', cs)
  | 'e' :: cs => some ('\x1b', cs)
  | '"' :: cs => some ('"', cs)
  | '\\' :: cs => some ('\\', cs)
  | 'x' :: cs => codePoint? 2 cs
  | 'u' :: cs => codePoint? 4 cs
  | 'U' :: cs => codePoint? 8 cs
  | _ => none

/-- A string on one line with escapes, behind its quote; `done` holds what was read, last first. -/
def basic? (done : List Char) : Nat → List Char → Option (String × List Char)
  | steps + 1, c :: cs =>
    if c = '"' then some (String.ofList done.reverse, cs)
    else if c = '\\' then
      match escape? cs with
      | some (c, cs) => basic? (c :: done) steps cs
      | none => none
    else if isPrintable c then basic? (c :: done) steps cs
    else none
  | _, _ => none

/-- A string on one line without escapes, behind its quote. -/
def literal? (cs : List Char) : Option (String × List Char) :=
  match cs.dropWhile fun c => isPrintable c && c != '\'' with
  | '\'' :: rest =>
    some (String.ofList (cs.takeWhile fun c => isPrintable c && c != '\''), rest)
  | _ => none

/-- How many of the quotes in front belong to the string that they close; nothing if they are too
few to close it. -/
def closing? (quote : Char) (cs : List Char) : Option Nat :=
  let n := min 5 (cs.takeWhile (· == quote)).length
  if n < 3 then none else some (n - 3)

/-- A string of several lines with escapes, behind its quotes. A backslash at the end of a line
takes the blanks up to the next character away. -/
def multilineBasic? (done : List Char) : Nat → List Char → Option (String × List Char)
  | 0, _ => none
  | steps + 1, cs =>
    match closing? '"' cs with
    | some n => some (String.ofList (List.replicate n '"' ++ done).reverse, cs.drop (n + 3))
    | none =>
      match cs with
      | [] => none
      | '\\' :: cs =>
        match lineBreak? (skipSpace cs) with
        | some cs => multilineBasic? done steps
            (cs.dropWhile fun c => isSpace c || c == '\n' || c == '\r')
        | none =>
          match escape? cs with
          | some (c, cs) => multilineBasic? (c :: done) steps cs
          | none => none
      | '\r' :: '\n' :: cs => multilineBasic? ('\n' :: '\r' :: done) steps cs
      | c :: cs =>
        if isPrintable c || c == '\n' then multilineBasic? (c :: done) steps cs else none

/-- A string of several lines without escapes, behind its quotes. -/
def multilineLiteral? (done : List Char) : Nat → List Char → Option (String × List Char)
  | 0, _ => none
  | steps + 1, cs =>
    match closing? '\'' cs with
    | some n => some (String.ofList (List.replicate n '\'' ++ done).reverse, cs.drop (n + 3))
    | none =>
      match cs with
      | [] => none
      | '\r' :: '\n' :: cs => multilineLiteral? ('\n' :: '\r' :: done) steps cs
      | c :: cs =>
        if isPrintable c || c == '\n' then multilineLiteral? (c :: done) steps cs else none

/-- A line break right behind the opening quotes does not count. -/
def skipFirstBreak (cs : List Char) : List Char := (lineBreak? cs).getD cs

def string? (cs : List Char) : Option (String × List Char) :=
  match cs with
  | '"' :: '"' :: '"' :: cs => multilineBasic? [] (cs.length + 1) (skipFirstBreak cs)
  | '"' :: cs => basic? [] (cs.length + 1) cs
  | '\'' :: '\'' :: '\'' :: cs => multilineLiteral? [] (cs.length + 1) (skipFirstBreak cs)
  | '\'' :: cs => literal? cs
  | _ => none

/-! ## Keys -/

def isBare (c : Char) : Bool := c.isAlphanum || c == '_' || c == '-'

def simpleKey? (cs : List Char) : Option (String × List Char) :=
  match cs with
  | '"' :: cs => basic? [] (cs.length + 1) cs
  | '\'' :: cs => literal? cs
  | cs =>
    let bare := cs.takeWhile isBare
    if bare.isEmpty then none else some (String.ofList bare, cs.dropWhile isBare)

/-- The parts of a key between its dots, and what follows the blanks behind it. -/
def key? : Nat → List Char → Option (List String × List Char)
  | 0, _ => none
  | steps + 1, cs =>
    match simpleKey? (skipSpace cs) with
    | none => none
    | some (part, cs) =>
      match skipSpace cs with
      | '.' :: cs => (key? steps cs).map fun (parts, cs) => (part :: parts, cs)
      | cs => some ([part], cs)

/-! ## Values -/

/-- The characters of a value without quotes: they end at a comma, a bracket, a comment or a line
break. -/
def isScalarPart (c : Char) : Bool := !",]\x7d#\n\r".toList.contains c

mutual

/-- A value, with what follows it. `depth` counts the arrays and tables that may open. -/
def value? (depth steps : Nat) (cs : List Char) : Option (Toml × List Char) :=
  match steps with
  | 0 => none
  | steps + 1 =>
    match cs with
    | '[' :: cs =>
      match depth with
      | 0 => none
      | depth + 1 => items? depth steps [] cs
    | '{' :: cs =>
      match depth with
      | 0 => none
      | depth + 1 => pairs? depth steps [] cs
    | '"' :: _ => (string? cs).map fun (s, cs) => (.text s, cs)
    | '\'' :: _ => (string? cs).map fun (s, cs) => (.text s, cs)
    | cs =>
      (scalar? (Text.trimEndBy isSpace (cs.takeWhile isScalarPart))).map
        fun v => (v, cs.dropWhile isScalarPart)

/-- The items of an array, behind its bracket or a comma; `done` holds those in front, last
first. -/
def items? (depth steps : Nat) (done : List Toml) (cs : List Char) : Option (Toml × List Char) :=
  match steps with
  | 0 => none
  | steps + 1 =>
    match skipLines cs.length cs with
    | ']' :: cs => some (.array done.reverse, cs)
    | cs =>
      match value? depth steps cs with
      | none => none
      | some (v, cs) =>
        match skipLines cs.length cs with
        | ',' :: cs => items? depth steps (v :: done) cs
        | ']' :: cs => some (.array (v :: done).reverse, cs)
        | _ => none

/-- The pairs of a table in braces, behind its brace or a comma. -/
def pairs? (depth steps : Nat) (entries : Entries) (cs : List Char) :
    Option (Toml × List Char) :=
  match steps with
  | 0 => none
  | steps + 1 =>
    match skipLines cs.length cs with
    | '}' :: cs => some (.table .inline entries, cs)
    | cs =>
      match key? cs.length cs with
      | some (key, '=' :: cs) =>
        match value? depth steps (skipSpace cs) with
        | none => none
        | some (v, cs) =>
          match addPair entries (key, v), skipLines cs.length cs with
          | some entries, ',' :: cs => pairs? depth steps entries cs
          | some entries, '}' :: cs => some (.table .inline entries, cs)
          | _, _ => none
      | _ => none

end

/-! ## Documents -/

/-- How deep arrays and tables in braces may nest. -/
def depthLimit : Nat := 80

/-- The header behind its first bracket: its key, whether it stands in double brackets, and what
follows its line. -/
def header? (cs : List Char) : Option (List String × Bool × List Char) :=
  match cs with
  | '[' :: cs =>
    match key? cs.length cs with
    | some (key, ']' :: ']' :: cs) => (endOfLine? cs).map fun cs => (key, true, cs)
    | _ => none
  | cs =>
    match key? cs.length cs with
    | some (key, ']' :: cs) => (endOfLine? cs).map fun cs => (key, false, cs)
    | _ => none

/-- A key, an equals sign and a value, and what follows their line. -/
def pair? (cs : List Char) : Option ((List String × Toml) × List Char) :=
  match key? cs.length cs with
  | some (key, '=' :: cs) =>
    match value? depthLimit (2 * cs.length + 1) (skipSpace cs) with
    | some (v, cs) => (endOfLine? cs).map fun cs => ((key, v), cs)
    | none => none
  | _ => none

/-- What was read so far: the pairs in front of the first header, and the parts behind it, last
first. -/
structure Progress where
  front : List (List String × Toml) := []
  parts : List Part := []
  deriving Inhabited

/-- Adds a pair to the part that was begun last. -/
def Progress.add (p : Progress) (pair : List String × Toml) : Progress :=
  match p.parts with
  | [] => { p with front := p.front ++ [pair] }
  | part :: parts => { p with parts := { part with pairs := part.pairs ++ [pair] } :: parts }

def lines? (p : Progress) : Nat → List Char → Option Progress
  | 0, _ => none
  | steps + 1, cs =>
    match skipSpace cs with
    | [] => some p
    | '[' :: cs =>
      match header? cs with
      | some (path, isItem, cs) =>
        lines? { p with parts := ⟨path, isItem, []⟩ :: p.parts } steps cs
      | none => none
    | cs =>
      match endOfLine? cs with
      | some cs => lines? p steps cs
      | none =>
        match pair? cs with
        | some (pair, cs) => lines? (p.add pair) steps cs
        | none => none

/-- A mark of the order of octets in front of a document does not count. -/
def skipMark : List Char → List Char
  | '\uFEFF' :: cs => cs
  | cs => cs

def ofText? (s : String) : Option Toml :=
  let cs := skipMark s.toList
  match lines? {} (cs.length + 1) cs with
  | some p => ofParts p.front p.parts.reverse
  | none => none

end TabBoard.Toml
