import TabBoard.Json.Basic
import TabBoard.Text.Utf8

/-!
# Reading JSON

`Document.ofSymbols` reads one value from a text and says whether anything but blanks follows it.
The reader never fails: where the text stops being JSON it leaves `Json.broken` and stops, so that
what stands in front of the fault can be judged first.

A text is a list of characters in which `none` stands for octets that spell none (`Text.Utf8`).
Such a `none` is part of a string or else a fault.

The functions take a bound on the number of steps; each step takes a character of the input, and
`Document.ofSymbols` passes one more than there are characters.
-/

namespace TabBoard.Json

/-- Characters to read, `none` for octets that spell no character. -/
abbrev Input := List (Option Char)

/-- Skips the four blanks that JSON knows. -/
def skipBlank : Input → Input
  | some ' ' :: rest => skipBlank rest
  | some '\t' :: rest => skipBlank rest
  | some '\n' :: rest => skipBlank rest
  | some '\r' :: rest => skipBlank rest
  | input => input

def hexDigit? (c : Char) : Option Nat :=
  if '0' ≤ c ∧ c ≤ '9' then some (c.toNat - '0'.toNat)
  else if 'a' ≤ c ∧ c ≤ 'f' then some (c.toNat - 'a'.toNat + 10)
  else if 'A' ≤ c ∧ c ≤ 'F' then some (c.toNat - 'A'.toNat + 10)
  else none

/-- The number that four hexadecimal digits write. -/
def hexQuad? (a b c d : Char) : Option Nat :=
  match hexDigit? a, hexDigit? b, hexDigit? c, hexDigit? d with
  | some a, some b, some c, some d => some (((a * 16 + b) * 16 + c) * 16 + d)
  | _, _, _, _ => none

/-- The first and the second half of a pair of surrogates. -/
def isHighSurrogate (n : Nat) : Bool := 0xD800 ≤ n && n < 0xDC00

def isLowSurrogate (n : Nat) : Bool := 0xDC00 ≤ n && n < 0xE000

/-- The character that a pair of surrogates stands for. -/
def ofSurrogates (high low : Nat) : Char :=
  Char.ofNat (0x10000 + (high - 0xD800) * 1024 + (low - 0xDC00))

/-- The character that a one-letter escape stands for. -/
def escaped? : Char → Option Char
  | '"' => some '"'
  | '\\' => some '\\'
  | '/' => some '/'
  | 'b' => some '\x08'
  | 'f' => some '\x0c'
  | 'n' => some '\n'
  | 'r' => some '\r'
  | 't' => some '\t'
  | _ => none

/-- The characters of a string behind its opening quote, and the input behind its closing one.

`done` holds the characters already read, last first; it is `none` once something was read that is
no character. `high` is the first half of a pair of surrogates when only that was just read. -/
def stringBody (high : Option Nat) (done : Option (List Char)) :
    Input → Option (Option String × Input)
  | [] => none
  | none :: rest => stringBody none none rest
  | some '"' :: rest =>
    some ((if high.isSome then none else done).map fun cs => String.ofList cs.reverse, rest)
  | some '\\' :: some 'u' :: some a :: some b :: some c :: some d :: rest =>
    match hexQuad? a b c d, high with
    | none, _ => none
    | some n, some h =>
      stringBody none (if isLowSurrogate n then done.map (ofSurrogates h n :: ·) else none) rest
    | some n, none =>
      if isHighSurrogate n then stringBody (some n) done rest
      else
        stringBody none (if isLowSurrogate n then none else done.map (Char.ofNat n :: ·)) rest
  | some '\\' :: some e :: rest =>
    match escaped? e with
    | some c => stringBody none (if high.isSome then none else done.map (c :: ·)) rest
    | none => none
  | some '\\' :: _ => none
  | some c :: rest =>
    if c < ' ' then none
    else stringBody none (if high.isSome then none else done.map (c :: ·)) rest

def string? (input : Input) : Option (Option String × Input) := stringBody none (some []) input

/-- The digits at the front. `done` holds those already read, last first. -/
def digitsFrom (done : List Char) : Input → List Char × Input
  | some c :: rest =>
    if c.isDigit then digitsFrom (c :: done) rest else (done.reverse, some c :: rest)
  | rest => (done.reverse, rest)

def natOfDigits (digits : List Char) : Nat :=
  digits.foldl (fun n c => n * 10 + (c.toNat - '0'.toNat)) 0

/-- The digits behind the point, if there is one. -/
def fraction? : Input → Option (List Char × Input)
  | some '.' :: rest =>
    match digitsFrom [] rest with
    | ([], _) => none
    | (digits, rest) => some (digits, rest)
  | rest => some ([], rest)

/-- The sign and digits of a power of ten. -/
def exponentDigits? (input : Input) : Option (Option Int × Input) :=
  let (negative, input) : Bool × Input :=
    match input with
    | some '+' :: rest => (false, rest)
    | some '-' :: rest => (true, rest)
    | rest => (false, rest)
  match digitsFrom [] input with
  | ([], _) => none
  | (digits, rest) =>
    let n : Int := natOfDigits digits
    some (some (if negative then -n else n), rest)

/-- The power of ten, if there is one. -/
def exponent? : Input → Option (Option Int × Input)
  | some 'e' :: rest => exponentDigits? rest
  | some 'E' :: rest => exponentDigits? rest
  | rest => some (none, rest)

/-- A number behind its sign: no digit follows a leading zero. -/
def number? (negative : Bool) (input : Input) : Option (Number × Input) :=
  match digitsFrom [] input with
  | ([], _) => none
  | ('0' :: _ :: _, _) => none
  | (digits, rest) =>
    match fraction? rest with
    | none => none
    | some (fraction, rest) =>
      match exponent? rest with
      | none => none
      | some (exponent, rest) =>
        some (⟨negative, natOfDigits digits, fraction, exponent⟩, rest)

/-- The rest of the input behind the given word. -/
def word? : List Char → Input → Option Input
  | [], rest => some rest
  | c :: cs, some d :: rest => if c = d then word? cs rest else none
  | _ :: _, _ => none

/-- A value that needs no look inside, with what follows it. -/
def leaf (value : Json) : Option Input → Json × Option Input
  | some rest => (value, some rest)
  | none => (.broken, none)

def numberLeaf : Option (Number × Input) → Json × Option Input
  | some (n, rest) => (.number n, some rest)
  | none => (.broken, none)

mutual

/-- A value and the input behind it; no input where the text stops being JSON. -/
def value (steps : Nat) (input : Input) : Json × Option Input :=
  match steps with
  | 0 => (.broken, none)
  | steps + 1 =>
    match skipBlank input with
    | some '{' :: rest =>
      match skipBlank rest with
      | some '}' :: rest => (.object [], some rest)
      | rest => let (ms, rest) := members steps rest; (.object ms, rest)
    | some '[' :: rest =>
      match skipBlank rest with
      | some ']' :: rest => (.array [], some rest)
      | rest => let (vs, rest) := items steps rest; (.array vs, rest)
    | some '"' :: rest =>
      match string? rest with
      | some (text, rest) => (.string text, some rest)
      | none => (.broken, none)
    | some 't' :: rest => leaf (.bool true) (word? ['r', 'u', 'e'] rest)
    | some 'f' :: rest => leaf (.bool false) (word? ['a', 'l', 's', 'e'] rest)
    | some 'n' :: rest => leaf .null (word? ['u', 'l', 'l'] rest)
    | some '-' :: rest => numberLeaf (number? true rest)
    | some c :: rest =>
      if c.isDigit then numberLeaf (number? false (some c :: rest)) else (.broken, none)
    | _ => (.broken, none)

/-- The items of an array behind its bracket, which is not closed at once. -/
def items (steps : Nat) (input : Input) : List Json × Option Input :=
  match steps with
  | 0 => ([.broken], none)
  | steps + 1 =>
    match value steps input with
    | (v, none) => ([v], none)
    | (v, some rest) =>
      match skipBlank rest with
      | some ']' :: rest => ([v], some rest)
      | some ',' :: rest => let (vs, rest) := items steps rest; (v :: vs, rest)
      | _ => ([v, .broken], none)

/-- The members of an object behind its brace, which is not closed at once. A member whose name
or colon is missing has a broken value. -/
def members (steps : Nat) (input : Input) : List (Option String × Json) × Option Input :=
  match steps with
  | 0 => ([(none, .broken)], none)
  | steps + 1 =>
    match skipBlank input with
    | some '"' :: rest =>
      match string? rest with
      | none => ([(none, .broken)], none)
      | some (name, rest) =>
        match skipBlank rest with
        | some ':' :: rest =>
          match value steps rest with
          | (v, none) => ([(name, v)], none)
          | (v, some rest) =>
            match skipBlank rest with
            | some '}' :: rest => ([(name, v)], some rest)
            | some ',' :: rest => let (ms, rest) := members steps rest; ((name, v) :: ms, rest)
            | _ => ([(name, v), (none, .broken)], none)
        | _ => ([(name, .broken)], none)
    | _ => ([(none, .broken)], none)

end

/-- One value, and whether anything but blanks stands behind it. -/
structure Document where
  value : Json
  trailing : Bool
  deriving Repr, BEq, Inhabited

namespace Document

/-- The document that the characters write. -/
def ofSymbols (input : Input) : Document :=
  match Json.value (2 * input.length + 2) input with
  | (v, none) => ⟨v, false⟩
  | (v, some rest) => ⟨v, !(skipBlank rest).isEmpty⟩

def ofText (s : String) : Document := ofSymbols (s.toList.map some)

def ofOctets (octets : Text.Utf8.Octets) : Document := ofSymbols (Text.Utf8.symbols octets)

/-- The value, if the whole text is JSON. -/
def whole? (d : Document) : Option Json :=
  if d.value.complete && !d.trailing then some d.value else none

end Document

end TabBoard.Json
