import TabBoard.Decimal.Natural

/-!
# Doubles as exact fractions

A double is an integer times a power of two. `nearest` gives the double closest to a fraction as a
fraction again, so that arithmetic on doubles can be done with natural numbers; of two equally close
doubles it takes the one with the even significand. `fixed` writes a fraction with a given number of
places; a half goes to the even digit.

Only numbers from zero up are needed, and none so small or so large that a double cannot hold it
with all its 53 binary digits.
-/

namespace TabBoard.Decimal

structure Ratio where
  num : Nat
  den : Nat := 1
  deriving Repr, DecidableEq, Inhabited

namespace Ratio

def add (a b : Ratio) : Ratio := ⟨a.num * b.den + b.num * a.den, a.den * b.den⟩

end Ratio

/-- The integer nearest to a fraction; a half goes to the even integer. -/
def roundEven (num den : Nat) : Nat :=
  let q := num / den
  let r := num % den
  if 2 * r < den then q
  else if 2 * r = den then (if q % 2 = 0 then q else q + 1)
  else q + 1

/-- How many binary digits the significand of a double has. -/
def significandBits : Nat := 53

/-- The double nearest to a fraction. -/
def nearest (x : Ratio) : Ratio :=
  if x.num = 0 then ⟨0, 1⟩
  else
    let bitsNum := Nat.log2 x.num
    let bitsDen := Nat.log2 x.den
    -- `x` lies between `2 ^ (e - 1)` and `2 ^ (e + 1)` for `e = bitsNum - bitsDen`.
    let up := significandBits + 1 + bitsDen - bitsNum
    let down := bitsNum - bitsDen - (significandBits + 1)
    let scaledNum := x.num * Nat.pow 2 up
    let scaledDen := x.den * Nat.pow 2 down
    let excess := Nat.log2 (scaledNum / scaledDen) + 1 - significandBits
    let m := roundEven scaledNum (scaledDen * Nat.pow 2 excess)
    ⟨m * Nat.pow 2 excess * Nat.pow 2 down, Nat.pow 2 up⟩

def fixed (places : Nat) (x : Ratio) : String :=
  let n := roundEven (x.num * Nat.pow 10 places) x.den
  toString (n / Nat.pow 10 places) ++ "." ++ padded places (n % Nat.pow 10 places)

end TabBoard.Decimal
