import TabBoard.Decimal.Natural
import TabBoard.Json.Reader
import TabBoard.Text.Blank
import TabBoard.Toml.Basic

/-!
# TOML numbers, dates and times

What stands without quotes: truth values, whole numbers in four bases, numbers with a point or a
power of ten, dates and times. Digits may be grouped by underscores between them.
-/

namespace TabBoard.Toml

/-- The digits without the underscores between them, if all characters are of the class. -/
def ungrouped? (isDigit : Char → Bool) (cs : List Char) : Option (List Char) :=
  let groups := Text.splitAll '_' cs
  if groups.all fun g => !g.isEmpty && g.all isDigit then some groups.flatten else none

def ofBase (base : Nat) (digits : List Char) : Nat :=
  digits.foldl (fun n c => n * base + (Json.hexDigit? c).getD 0) 0

def isDigitOf (base : Nat) (c : Char) : Bool := (Json.hexDigit? c).any (· < base)

def signed : List Char → Bool × List Char
  | '-' :: cs => (true, cs)
  | '+' :: cs => (false, cs)
  | cs => (false, cs)

/-- The digits of a whole number in base ten, which does not start with a zero unless it is one. -/
def wholeDigits? (cs : List Char) : Option (List Char) :=
  match ungrouped? Char.isDigit cs with
  | some ('0' :: _ :: _) => none
  | digits => digits

def integer? (cs : List Char) : Option Int :=
  match cs with
  | '0' :: 'x' :: cs => (ungrouped? (isDigitOf 16) cs).map fun ds => (ofBase 16 ds : Int)
  | '0' :: 'o' :: cs => (ungrouped? (isDigitOf 8) cs).map fun ds => (ofBase 8 ds : Int)
  | '0' :: 'b' :: cs => (ungrouped? (isDigitOf 2) cs).map fun ds => (ofBase 2 ds : Int)
  | cs =>
    let (negative, cs) := signed cs
    (wholeDigits? cs).map fun ds =>
      let n : Int := Decimal.ofDigits ds
      if negative then -n else n

/-- The digits in front of the point and those behind it, if there is a point. -/
def mantissa? (cs : List Char) : Option (List Char × Option (List Char)) :=
  match Text.splitOnce '.' cs with
  | none => (wholeDigits? cs).map fun ds => (ds, none)
  | some (whole, fraction) =>
    match wholeDigits? whole, ungrouped? Char.isDigit fraction with
    | some whole, some fraction => some (whole, some fraction)
    | _, _ => none

def power? (cs : List Char) : Option Int :=
  let (negative, cs) := signed cs
  (ungrouped? Char.isDigit cs).map fun ds =>
    let n : Int := Decimal.ofDigits ds
    if negative then -n else n

/-- A number with a point or a power of ten, or one of the words for what is no number. -/
def float? (cs : List Char) : Option (Option Json.Number) :=
  let (negative, cs) := signed cs
  if cs = ['i', 'n', 'f'] ∨ cs = ['n', 'a', 'n'] then some none
  else
    let front := cs.takeWhile fun c => c != 'e' && c != 'E'
    let behind := cs.dropWhile fun c => c != 'e' && c != 'E'
    match mantissa? front, behind with
    | some (whole, some fraction), [] =>
      some (some { negative, whole := Decimal.ofDigits whole, fraction })
    | some (whole, fraction), _ :: exponent =>
      (power? exponent).map fun e =>
        some { negative, whole := Decimal.ofDigits whole, fraction := fraction.getD [],
               exponent := some e }
    | _, _ => none

/-! ## Dates and times -/

/-- The number that exactly so many digits write, with what follows them. -/
def field? (width : Nat) (cs : List Char) : Option (Nat × List Char) :=
  let digits := cs.take width
  if digits.length = width ∧ digits.all Char.isDigit then
    some (Decimal.ofDigits digits, cs.drop width)
  else none

def daysIn (year month : Nat) : Nat :=
  if month = 2 then
    if year % 4 = 0 ∧ (year % 100 ≠ 0 ∨ year % 400 = 0) then 29 else 28
  else if month = 4 ∨ month = 6 ∨ month = 9 ∨ month = 11 then 30
  else 31

def skipDate? (cs : List Char) : Option (List Char) :=
  match field? 4 cs with
  | some (year, '-' :: cs) =>
    match field? 2 cs with
    | some (month, '-' :: cs) =>
      match field? 2 cs with
      | some (day, cs) =>
        if 1 ≤ month ∧ month ≤ 12 ∧ 1 ≤ day ∧ day ≤ daysIn year month then some cs else none
      | none => none
    | _ => none
  | _ => none

def skipMinutes? (cs : List Char) : Option (List Char) :=
  match field? 2 cs with
  | some (hour, ':' :: cs) =>
    match field? 2 cs with
    | some (minute, cs) => if hour ≤ 23 ∧ minute ≤ 59 then some cs else none
    | none => none
  | _ => none

/-- What follows a time of day. Seconds may be left out, and may have places. -/
def skipTime? (cs : List Char) : Option (List Char) :=
  match skipMinutes? cs with
  | some (':' :: cs) =>
    match field? 2 cs with
    | some (second, cs) =>
      if 60 < second then none
      else
        match cs with
        | '.' :: cs =>
          if cs.takeWhile Char.isDigit = [] then none else some (cs.dropWhile Char.isDigit)
        | cs => some cs
    | none => none
  | rest => rest

/-- Nothing, or the distance from UTC. -/
def isOffset (cs : List Char) : Bool :=
  match cs with
  | [] => true
  | ['Z'] => true
  | ['z'] => true
  | '+' :: cs => skipMinutes? cs == some []
  | '-' :: cs => skipMinutes? cs == some []
  | _ => false

def isMoment (cs : List Char) : Bool :=
  match skipDate? cs with
  | some [] => true
  | some (separator :: cs) =>
    (separator == 'T' || separator == 't' || separator == ' ') &&
      (skipTime? cs).any isOffset
  | none => skipTime? cs == some []

def scalar? (cs : List Char) : Option Toml :=
  if cs = ['t', 'r', 'u', 'e'] then some (.bool true)
  else if cs = ['f', 'a', 'l', 's', 'e'] then some (.bool false)
  else
    match integer? cs with
    | some n => some (.integer n)
    | none =>
      match float? cs with
      | some n => some (.float n)
      | none => if isMoment cs then some (.moment (String.ofList cs)) else none

end TabBoard.Toml
