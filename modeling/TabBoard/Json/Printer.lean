import TabBoard.Json.Basic

/-!
# Writing JSON

`render` writes a value on one line without blanks. A quote, a backslash and the control characters
are escaped, the five that have a letter by it and the others by four hexadecimal digits; every
other character stands for itself.

Values that no text shows (`string none`, `broken`) are written `null`.
-/

namespace TabBoard.Json

/-- The lower-case hexadecimal digit of a number below sixteen. -/
def hexDigit (n : Nat) : Char :=
  if n < 10 then Char.ofNat ('0'.toNat + n) else Char.ofNat ('a'.toNat + (n - 10))

def escape (c : Char) : List Char :=
  if c = '"' then ['\\', '"']
  else if c = '\\' then ['\\', '\\']
  else if c = '\x08' then ['\\', 'b']
  else if c = '\x0c' then ['\\', 'f']
  else if c = '\n' then ['\\', 'n']
  else if c = '\r' then ['\\', 'r']
  else if c = '\t' then ['\\', 't']
  else if c < ' ' then ['\\', 'u', '0', '0', hexDigit (c.toNat / 16), hexDigit (c.toNat % 16)]
  else [c]

def quote (s : String) : List Char := '"' :: s.toList.flatMap escape ++ ['"']

/-- A number, digit by digit as it was read. -/
def Number.render (n : Number) : List Char :=
  (if n.negative then ['-'] else []) ++ (toString n.whole).toList ++
    (if n.fraction.isEmpty then [] else '.' :: n.fraction) ++
    (match n.exponent with
      | none => []
      | some e => 'e' :: (toString e).toList)

mutual

def chars : Json → List Char
  | .null => ['n', 'u', 'l', 'l']
  | .bool true => ['t', 'r', 'u', 'e']
  | .bool false => ['f', 'a', 'l', 's', 'e']
  | .number n => n.render
  | .string (some s) => quote s
  | .string none => ['n', 'u', 'l', 'l']
  | .broken => ['n', 'u', 'l', 'l']
  | .array [] => ['[', ']']
  | .array (item :: items) => '[' :: chars item ++ itemChars items ++ [']']
  | .object [] => ['{', '}']
  | .object ((name, value) :: members) =>
    '{' :: quote (name.getD "") ++ ':' :: chars value ++ memberChars members ++ ['}']

/-- The items behind the first, each behind a comma. -/
def itemChars : List Json → List Char
  | [] => []
  | item :: items => ',' :: chars item ++ itemChars items

/-- The members behind the first, each behind a comma. -/
def memberChars : List (Option String × Json) → List Char
  | [] => []
  | (name, value) :: members =>
    ',' :: quote (name.getD "") ++ ':' :: chars value ++ memberChars members

end

/-- The value on one line. -/
def render (j : Json) : String := String.ofList (chars j)

/-! ## Sorted members -/

/-- Puts a member in its place among members sorted by name; a later one replaces an earlier one
of the same name. -/
def insertMember (name : Option String) (value : Json) :
    List (Option String × Json) → List (Option String × Json)
  | [] => [(name, value)]
  | (n, v) :: rest =>
    if name.getD "" < n.getD "" then (name, value) :: (n, v) :: rest
    else if name.getD "" = n.getD "" then (name, value) :: rest
    else (n, v) :: insertMember name value rest

mutual

/-- The value with the members of its objects sorted by name, the last of each name kept. -/
def sorted : Json → Json
  | .array items => .array (sortedItems items)
  | .object members => .object (sortedMembers [] members)
  | j => j

def sortedItems : List Json → List Json
  | [] => []
  | item :: items => item.sorted :: sortedItems items

/-- `done` holds the members already in place. -/
def sortedMembers (done : List (Option String × Json)) :
    List (Option String × Json) → List (Option String × Json)
  | [] => done
  | (name, value) :: members => sortedMembers (insertMember name value.sorted done) members

end

end TabBoard.Json
