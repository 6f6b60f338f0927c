import TabBoard.Text.Utf8

/-!
# Base 64

Three octets are written as four characters of six bits each. Decoding is strict: no foreign
characters, no lone last character, and no bits left over that are not zero. The web alphabet is
written without padding, the standard one with as many `=` as are missing to four.
-/

namespace TabBoard.Crypto.Base64

open Text.Utf8 (Octets)

/-- The six bits of a character that both alphabets share. -/
def sextet? (c62 c63 : Char) (c : Char) : Option Nat :=
  if 'A' ≤ c ∧ c ≤ 'Z' then some (c.toNat - 'A'.toNat)
  else if 'a' ≤ c ∧ c ≤ 'z' then some (c.toNat - 'a'.toNat + 26)
  else if '0' ≤ c ∧ c ≤ '9' then some (c.toNat - '0'.toNat + 52)
  else if c = c62 then some 62
  else if c = c63 then some 63
  else none

def ofSextets : List Nat → Option Octets
  | a :: b :: c :: d :: rest =>
    (ofSextets rest).map fun octets =>
      (a * 4 + b / 16).toUInt8 :: (b % 16 * 16 + c / 4).toUInt8 :: (c % 4 * 64 + d).toUInt8 ::
        octets
  | [a, b, c] =>
    if c % 4 = 0 then some [(a * 4 + b / 16).toUInt8, (b % 16 * 16 + c / 4).toUInt8] else none
  | [a, b] => if b % 16 = 0 then some [(a * 4 + b / 16).toUInt8] else none
  | [_] => none
  | [] => some []

/-- Decodes the web alphabet, without padding. -/
def decodeWeb (s : String) : Option Octets := do
  ofSextets (← s.toList.mapM (sextet? '-' '_'))

/-- Decodes the standard alphabet, with padding. -/
def decodeStandard (cs : List Char) : Option Octets := do
  let body := cs.takeWhile (· != '=')
  let padding := cs.dropWhile (· != '=')
  if cs.length % 4 ≠ 0 ∨ 2 < padding.length ∨ padding.any (· != '=') then none
  ofSextets (← body.mapM (sextet? '+' '/'))

end TabBoard.Crypto.Base64
