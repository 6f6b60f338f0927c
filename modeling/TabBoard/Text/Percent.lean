import TabBoard.Text.Utf8

/-!
# Percent encoding

An octet is written `%XX` with two hexadecimal digits when a character set asks for it; the octets
of characters beyond ASCII always are. Decoding takes every `%` that two hexadecimal digits follow,
and leaves any other as it is.
-/

namespace TabBoard.Text.Percent

open Utf8 (Octets)

/-- The value of the octet that is a hexadecimal digit. -/
def hexValue? (b : UInt8) : Option UInt8 :=
  if 0x30 ≤ b && b ≤ 0x39 then some (b - 0x30)
  else if 0x41 ≤ b && b ≤ 0x46 then some (b - 0x41 + 10)
  else if 0x61 ≤ b && b ≤ 0x66 then some (b - 0x61 + 10)
  else none

/-- The octets that a percent-encoded sequence stands for. -/
def decode : Octets → Octets
  | 0x25 :: a :: b :: rest =>
    match hexValue? a, hexValue? b with
    | some x, some y => (x * 16 + y) :: decode rest
    | _, _ => 0x25 :: decode (a :: b :: rest)
  | b :: rest => b :: decode rest
  | [] => []

/-- The upper-case hexadecimal digit of a number below sixteen. -/
def upperDigit (n : Nat) : Char :=
  if n < 10 then Char.ofNat ('0'.toNat + n) else Char.ofNat ('A'.toNat + (n - 10))

def encodeOctet (b : UInt8) : List Char :=
  ['%', upperDigit (b.toNat / 16), upperDigit (b.toNat % 16)]

/-- A character, encoded if it is in the set or beyond ASCII. -/
def encodeChar (inSet : Char → Bool) (c : Char) : List Char :=
  if c.toNat < 0x80 && !inSet c then [c]
  else (Utf8.encode (String.singleton c)).flatMap encodeOctet

/-- Encodes the characters of the set and those beyond ASCII. -/
def encode (inSet : Char → Bool) (cs : List Char) : List Char := cs.flatMap (encodeChar inSet)

def isControl (c : Char) : Bool := c.toNat < 0x20 || c.toNat == 0x7F

end TabBoard.Text.Percent
