import TabBoard.Text.Blank
import TabBoard.Text.LowerCase
import TabBoard.Text.Percent
import TabBoard.Url.Punycode

/-!
# Hosts of URLs

A host is a domain, an address of four octets or an address of eight pieces in brackets. Domains are
percent-decoded and written in ASCII. A domain whose last label is a number has to be an address: up
to four numbers, each decimal, octal behind `0` or hexadecimal behind `0x`, the last of which fills
the octets that are left.

How international names are written in ASCII is the business of UTS #46, whose tables are not part
of this library. So the reading of names is a parameter (`Idna`). The dashboard runs with a reading
that is exact for names of ASCII without encoded labels and only approximates the tables for others
(`asciiDomain?`): characters beyond ASCII are put into lower case and wide forms are folded, but
there is no other mapping, no composition, and no check for unassigned characters.
-/

namespace TabBoard

namespace Url

inductive Error where
  | relativeWithoutBase
  | emptyHost
  | invalidPort
  | invalidIpv4
  | invalidIpv6
  | invalidDomain
  | invalidDomainCharacter
  deriving Repr, DecidableEq, Inhabited

def Error.message : Error → String
  | .relativeWithoutBase => "relative URL without a base"
  | .emptyHost => "empty host"
  | .invalidPort => "invalid port number"
  | .invalidIpv4 => "invalid IPv4 address"
  | .invalidIpv6 => "invalid IPv6 address"
  | .invalidDomain => "invalid international domain name"
  | .invalidDomainCharacter => "invalid domain character"

inductive Host where
  | domain (name : String)
  | ipv4 (address : Nat)
  | ipv6 (pieces : List Nat)
  deriving Repr, DecidableEq, Inhabited

namespace Host

/-! ## Addresses of four octets -/

def digit? (base : Nat) (c : Char) : Option Nat :=
  let d := if '0' ≤ c ∧ c ≤ '9' then some (c.toNat - '0'.toNat)
    else if 'a' ≤ c ∧ c ≤ 'f' then some (c.toNat - 'a'.toNat + 10)
    else if 'A' ≤ c ∧ c ≤ 'F' then some (c.toNat - 'A'.toNat + 10)
    else none
  d.filter (· < base)

def natOf? (base : Nat) (cs : List Char) : Option Nat :=
  cs.foldlM (fun n c => (digit? base c).map (n * base + ·)) 0

/-- A number of an address; none where there is no number at all. -/
def ipv4Number? : List Char → Option Nat
  | [] => none
  | '0' :: 'x' :: cs => natOf? 16 cs
  | '0' :: 'X' :: cs => natOf? 16 cs
  | ['0'] => some 0
  | '0' :: cs => natOf? 8 cs
  | cs => natOf? 10 cs

/-- The last label, not counting an empty one at the end, is a number. -/
def endsInNumber (domain : List Char) : Bool :=
  let labels := (Text.splitAll '.' domain).reverse
  let last? := match labels with
    | [] :: rest => rest.head?
    | labels => labels.head?
  match last? with
  | none => false
  | some last => (!last.isEmpty && last.all Char.isDigit) || (ipv4Number? last).isSome

def ipv4? (domain : List Char) : Option Nat := do
  let labels := (Text.splitAll '.' domain)
  let labels := if labels.getLast? = some [] then labels.dropLast else labels
  if 4 < labels.length then none
  let numbers ← labels.mapM ipv4Number?
  let last ← numbers.getLast?
  let front := numbers.dropLast
  if Nat.pow 256 (4 - front.length) ≤ last ∨ front.any (255 < ·) then none
  return (front.zipIdx.foldl (fun n (x, i) => n + x * Nat.pow 256 (3 - i)) last)

/-! ## Addresses of eight pieces -/

/-- A piece: up to four hexadecimal digits. -/
def piece? (cs : List Char) : Option Nat :=
  if cs.isEmpty ∨ 4 < cs.length then none else natOf? 16 cs

/-- One of four decimal numbers, without leading zeros. -/
def octet? (cs : List Char) : Option Nat :=
  if cs.isEmpty ∨ 3 < cs.length ∨ (cs.head? = some '0' ∧ cs.length ≠ 1) then none
  else (natOf? 10 cs).filter (· ≤ 255)

/-- Two pieces written as four decimal numbers. -/
def dotted? (cs : List Char) : Option (List Nat) := do
  match ← (Text.splitAll '.' cs).mapM octet? with
  | [a, b, c, d] => some [a * 256 + b, c * 256 + d]
  | _ => none

/-- The pieces between colons; the last may be four decimal numbers if `atEnd`. -/
def pieces? (atEnd : Bool) (cs : List Char) : Option (List Nat) :=
  if cs.isEmpty then some []
  else
    let parts := Text.splitAll ':' cs
    match parts.getLast? with
    | none => none
    | some last =>
      if atEnd ∧ last.contains '.' then do
        return (← parts.dropLast.mapM piece?) ++ (← dotted? last)
      else parts.mapM piece?

/-- The text before and behind the first two colons. -/
def splitDoubleColon : List Char → Option (List Char × List Char)
  | ':' :: ':' :: rest => some ([], rest)
  | c :: rest => (splitDoubleColon rest).map fun (l, r) => (c :: l, r)
  | [] => none

def ipv6? (cs : List Char) : Option (List Nat) :=
  match splitDoubleColon cs with
  | some (left, right) => do
    let l ← pieces? false left
    let r ← pieces? true right
    let n := l.length + r.length
    if 8 ≤ n then none
    return l ++ List.replicate (8 - n) 0 ++ r
  | none => (pieces? true cs).filter (·.length = 8)

def zerosAtFront (pieces : List Nat) : Nat := (pieces.takeWhile (· == 0)).length

/-- Where the longest run of zeros starts, and its length; the first of equally long ones. -/
def longestZeros (start : Nat) : List Nat → Nat × Nat
  | [] => (start, 0)
  | p :: rest =>
    let here := zerosAtFront (p :: rest)
    let later := longestZeros (start + 1) rest
    if later.2 ≤ here then (start, here) else later

/-- A number in lower-case hexadecimal digits. -/
def hex (n : Nat) : String := String.ofList (Nat.toDigits 16 n)

/-- An address of eight pieces, its longest run of two or more zeros left out. -/
def ipv6Text (pieces : List Nat) : String :=
  let (start, length) := longestZeros 0 pieces
  if length < 2 then ":".intercalate (pieces.map hex)
  else
    ":".intercalate ((pieces.take start).map hex) ++ "::" ++
      ":".intercalate ((pieces.drop (start + length)).map hex)

def toText : Host → String
  | .domain name => name
  | .ipv4 a => s!"{a / 16777216}.{a / 65536 % 256}.{a / 256 % 256}.{a % 256}"
  | .ipv6 pieces => s!"[{ipv6Text pieces}]"

/-! ## Domains -/

end Host

/-- A reading of names: how a domain is written in ASCII. -/
class Idna where
  /-- The domain that octets write, in ASCII and lower case. -/
  ascii? : Text.Utf8.Octets → Option (List Char)

namespace Host

/-- The characters of ASCII that no domain holds. -/
def isForbidden (c : Char) : Bool :=
  c.toNat ≤ 0x20 || c.toNat == 0x7F || "#%/:<>?@[\\]^|".toList.contains c

/-- Some characters beyond ASCII that a domain may hold but that leave no trace. -/
def isIgnored (c : Char) : Bool :=
  c.toNat == 0xAD || c.toNat == 0x200B || c.toNat == 0x2060 || c.toNat == 0xFEFF ||
    (0xFE00 ≤ c.toNat && c.toNat ≤ 0xFE0F)

/-- Some characters beyond ASCII that no domain holds. -/
def isUnassignable (c : Char) : Bool :=
  let n := c.toNat
  (0x80 ≤ n && n ≤ 0x9F) || (0x200E ≤ n && n ≤ 0x200F) || (0x2028 ≤ n && n ≤ 0x202E) ||
    (0x2061 ≤ n && n ≤ 0x206F) || (0xE000 ≤ n && n ≤ 0xF8FF) || (0xFFF0 ≤ n && n ≤ 0xFFFF) ||
    0xE0000 ≤ n

/-- A character as it counts in a domain: full stops of other scripts are full stops, and wide forms
of ASCII are ASCII. -/
def foldWidth (c : Char) : Char :=
  let n := c.toNat
  if n == 0x3002 || n == 0xFF0E || n == 0xFF61 then '.'
  else if 0xFF01 ≤ n && n ≤ 0xFF5E then Char.ofNat (n - 0xFEE0)
  else c

/-- A character that a domain keeps as it is. -/
def isKept (c : Char) : Bool :=
  !isForbidden c && !isUnassignable c && !isIgnored c && foldWidth c == c &&
    Text.lowerCase c.toString == c.toString

/-- A label in ASCII. One that encodes others has to encode something that needs it, as it is
kept. -/
def asciiLabel? (label : List Char) : Option (List Char) :=
  if label.all (·.toNat < 128) then
    match label with
    | 'x' :: 'n' :: '-' :: '-' :: rest =>
      match Punycode.decode rest with
      | some cs => if cs.all (·.toNat < 128) || !cs.all isKept then none else some label
      | none => none
    | _ => some label
  else some ("xn--".toList ++ Punycode.encode label)

/-- A domain in ASCII and lower case. Names beyond ASCII, and labels that encode some, are only
approximated. -/
def asciiDomain? (octets : Text.Utf8.Octets) : Option (List Char) := do
  let s ← Text.Utf8.decode? octets
  let cs := (s.toList.filter fun c => !isIgnored c).map foldWidth
  let cs := (Text.lowerCase (String.ofList cs)).toList
  if cs.any fun c => isForbidden c || isUnassignable c then none
  let labels ← (Text.splitAll '.' cs).mapM asciiLabel?
  return List.intercalate ['.'] labels

instance : Idna := ⟨asciiDomain?⟩

def ofBrackets (cs : List Char) : Except Error Host :=
  if cs.getLast? = some ']' then
    match ipv6? ((cs.drop 1).dropLast) with
    | some pieces => .ok (.ipv6 pieces)
    | none => .error .invalidIpv6
  else .error .invalidIpv6

/-- The host of a URL of one of the common schemes. -/
def ofChars [Idna] (cs : List Char) : Except Error Host :=
  if cs.head? = some '[' then ofBrackets cs
  else
    match Idna.ascii? (Text.Percent.decode (Text.Utf8.encode (String.ofList cs))) with
    | none => .error .invalidDomain
    | some [] => .error .emptyHost
    | some ascii =>
      if endsInNumber ascii then
        match ipv4? ascii with
        | some address => .ok (.ipv4 address)
        | none => .error .invalidIpv4
      else .ok (.domain (String.ofList ascii))

/-- The characters that no host of another scheme holds. -/
def isForbiddenOpaque (c : Char) : Bool := "\x00\t\n\r #/:<>?@[\\]^|".toList.contains c

/-- The host of a URL of another scheme: kept as it is. -/
def ofOpaque (cs : List Char) : Except Error Host :=
  if cs.head? = some '[' then ofBrackets cs
  else if cs.any isForbiddenOpaque then .error .invalidDomainCharacter
  else .ok (.domain (String.ofList (Text.Percent.encode Text.Percent.isControl cs)))

end Host

end Url

end TabBoard
