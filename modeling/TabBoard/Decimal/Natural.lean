/-!
# Reading natural numbers

Decimal digits, at least one, perhaps behind a plus sign. Leading zeros do not matter.
-/

namespace TabBoard.Decimal

def ofDigits (digits : List Char) : Nat :=
  digits.foldl (fun n c => n * 10 + (c.toNat - '0'.toNat)) 0

/-- The digits behind a plus sign, or all characters. -/
def unsigned : List Char → List Char
  | '+' :: cs => cs
  | cs => cs

/-- The number that the text writes, if it is at most `limit`. -/
def natural? (limit : Nat) (s : String) : Option Nat :=
  let digits := unsigned s.toList
  if !digits.isEmpty && digits.all Char.isDigit && ofDigits digits ≤ limit then
    some (ofDigits digits)
  else none

def max16 : Nat := 65535

def max64 : Nat := 18446744073709551615

/-- The number with zeros in front, `width` digits at least. -/
def padded (width n : Nat) : String :=
  let digits := (toString n).toList
  String.ofList (List.replicate (width - digits.length) '0' ++ digits)

end TabBoard.Decimal
