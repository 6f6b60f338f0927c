/-!
# Punycode

Labels of international domain names in ASCII. The characters beyond ASCII are written as the
distances between them, in a variable-length notation of base 36 whose digit thresholds adapt.
-/

namespace TabBoard.Url.Punycode

def digitChar (d : Nat) : Char :=
  if d < 26 then Char.ofNat ('a'.toNat + d) else Char.ofNat ('0'.toNat + (d - 26))

def digitValue? (c : Char) : Option Nat :=
  if 'a' ≤ c ∧ c ≤ 'z' then some (c.toNat - 'a'.toNat)
  else if 'A' ≤ c ∧ c ≤ 'Z' then some (c.toNat - 'A'.toNat)
  else if '0' ≤ c ∧ c ≤ '9' then some (c.toNat - '0'.toNat + 26)
  else none

/-- The threshold of the digit at distance `k`. -/
def threshold (k bias : Nat) : Nat :=
  if k ≤ bias then 1 else if bias + 26 ≤ k then 26 else k - bias

theorem threshold_pos (k bias : Nat) : 1 ≤ threshold k bias := by
  unfold threshold; split <;> (try split) <;> omega

/-- Divides by 35 until the number is small, counting in steps of 36. -/
def shrink (delta k : Nat) : Nat × Nat :=
  if h : 455 < delta then shrink (delta / 35) (k + 36) else (delta, k)
termination_by delta
decreasing_by exact Nat.div_lt_self (by omega) (by omega)

def adapt (delta count : Nat) (first : Bool) : Nat :=
  let d := if first then delta / 700 else delta / 2
  let (d, k) := shrink (d + d / count) 0
  k + 36 * d / (d + 38)

def distanceDigits (bias k q : Nat) : List Char :=
  let t := threshold k bias
  if q < t then [digitChar q]
  else digitChar (t + (q - t) % (36 - t)) :: distanceDigits bias (k + 36) ((q - t) / (36 - t))
termination_by q
decreasing_by
  have h := threshold_pos k bias
  have : (q - threshold k bias) / (36 - threshold k bias) ≤ q - threshold k bias :=
    Nat.div_le_self _ _
  omega

structure Progress where
  out : List Char
  delta : Nat
  bias : Nat
  handled : Nat

/-- Looks at one character while those with number `n` are written. -/
def writeChar (basic n : Nat) (p : Progress) (c : Char) : Progress :=
  if c.toNat < n then { p with delta := p.delta + 1 }
  else if c.toNat = n then
    { out := p.out ++ distanceDigits p.bias 36 p.delta
      delta := 0
      bias := adapt p.delta (p.handled + 1) (p.handled == basic)
      handled := p.handled + 1 }
  else p

/-- Writes the characters with the given numbers, which are ascending; `last` is the number up to
which all are written. -/
def writeNumbers (label : List Char) (basic : Nat) : Nat → List Nat → Progress → Progress
  | _, [], p => p
  | last, n :: rest, p =>
    let p := { p with delta := p.delta + (n - last) * (p.handled + 1) }
    let p := label.foldl (writeChar basic n) p
    writeNumbers label basic (n + 1) rest { p with delta := p.delta + 1 }

/-- The label in ASCII, without the mark `xn--`. -/
def encode (label : List Char) : List Char :=
  let basic := label.filter (·.toNat < 128)
  let numbers := ((label.map Char.toNat).filter (128 ≤ ·)).mergeSort (· ≤ ·) |>.eraseDups
  let p := writeNumbers label basic.length 128 numbers ⟨[], 0, 72, basic.length⟩
  basic ++ (if basic.isEmpty then [] else ['-']) ++ p.out

/-- Reads a distance: `w` is the weight of the next digit, `i` the sum so far. -/
def readDistance (bias : Nat) : Nat → Nat → Nat → List Char → Option (Nat × List Char)
  | _, _, _, [] => none
  | k, w, i, c :: rest =>
    match digitValue? c with
    | none => none
    | some d =>
      let t := threshold k bias
      if d < t then some (i + d * w, rest)
      else readDistance bias (k + 36) (w * (36 - t)) (i + d * w) rest

/-- Reads the characters beyond ASCII into `out`, at most one for each character of the input. -/
def readChars (bias n i : Nat) (out : List Char) : Nat → List Char → Option (List Char)
  | _, [] => some out
  | 0, _ => none
  | steps + 1, input =>
    match readDistance bias 36 1 i input with
    | none => none
    | some (j, rest) =>
      let count := out.length + 1
      let n := n + j / count
      let pos := j % count
      if n < 0xD800 || (0xE000 ≤ n && n < 0x110000) then
        readChars (adapt (j - i) count (i == 0)) n (pos + 1)
          (out.take pos ++ Char.ofNat n :: out.drop pos) steps rest
      else none

/-- The label that ASCII stands for, without the mark `xn--`. -/
def decode (ascii : List Char) : Option (List Char) :=
  let reversed := ascii.reverse
  let tail := (reversed.takeWhile (· != '-')).reverse
  let basic := ((reversed.dropWhile (· != '-')).drop 1).reverse
  readChars 72 128 0 basic (tail.length + 1) tail

end TabBoard.Url.Punycode
