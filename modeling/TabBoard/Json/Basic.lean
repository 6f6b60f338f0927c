/-!
# JSON values as they were read

A value keeps what its text said: members in document order with repetitions, and numbers with
their digits. Two things a text can hold are kept too, because whether they matter depends on who
reads the value:

- a string without characters to show for it (a lone surrogate escape, octets that are not UTF-8)
  is `string none`; a reader that skips the string never notices;
- `broken` stands where the text stops being JSON. Everything in front of it can still be looked at.
-/

namespace TabBoard

namespace Json

/-- A number as written: sign, whole part, digits behind the point, power of ten. -/
structure Number where
  negative : Bool
  whole : Nat
  fraction : List Char := []
  exponent : Option Int := none
  deriving Repr, DecidableEq, Inhabited

end Json

inductive Json where
  | null
  | bool (value : Bool)
  | number (value : Json.Number)
  | string (text : Option String)
  | array (items : List Json)
  | object (members : List (Option String × Json))
  | broken
  deriving Repr, BEq, Inhabited

namespace Json

abbrev text (s : String) : Json := .string (some s)

/-- The string, or `null` for nothing. -/
def optText : Option String → Json
  | some s => .text s
  | none => .null

def int (n : Int) : Json := .number { negative := n < 0, whole := n.natAbs }

abbrev nat (n : Nat) : Json := .int n

def ofMembers (members : List (String × Json)) : Json :=
  .object (members.map fun (k, v) => (some k, v))

namespace Number

/-- The value of a number that is written as a whole number. A negative zero is not one. -/
def int? (n : Number) : Option Int :=
  if n.fraction ≠ [] ∨ n.exponent.isSome ∨ (n.negative ∧ n.whole = 0) then none
  else some (if n.negative then -(n.whole : Int) else n.whole)

@[simp] theorem int?_ofInt (i : Int) :
    int? { negative := decide (i < 0), whole := i.natAbs } = some i := by
  simp only [int?, decide_eq_true_eq, ne_eq, not_true_eq_false, Option.isSome_none,
    Bool.false_eq_true, false_or]
  split
  · omega
  · split <;> (congr 1; omega)

/-- The digits of the number without its point, as one natural number. -/
def digits (n : Number) : Nat :=
  n.fraction.foldl (fun acc c => acc * 10 + (c.toNat - '0'.toNat)) n.whole

/-- The power of ten that `digits` is multiplied by. -/
def scale (n : Number) : Int := n.exponent.getD 0 - n.fraction.length

/-- The numbers from here on have no nearest double: the largest double and half a step. -/
def beyondDoubles : Nat := Nat.pow 2 1024 - Nat.pow 2 970

/-- Whether the number has a nearest double. A huge power of ten is decided without computing it. -/
def isDouble (n : Number) : Bool :=
  let d := n.digits
  let length := (toString d).length
  if d == 0 then true
  else if n.scale + length > 400 then false
  else if n.scale < 0 then
    if n.scale + length < 300 then true else d < beyondDoubles * Nat.pow 10 n.scale.natAbs
  else d * Nat.pow 10 n.scale.toNat < beyondDoubles

end Number

/-! ## Looking into a value -/

mutual

/-- The text of the value is JSON to its end. -/
def complete : Json → Bool
  | .broken => false
  | .array items => completeItems items
  | .object members => completeMembers members
  | _ => true

def completeItems : List Json → Bool
  | [] => true
  | item :: items => item.complete && completeItems items

def completeMembers : List (Option String × Json) → Bool
  | [] => true
  | (_, value) :: members => value.complete && completeMembers members

end

/-- The value of the last member with the given name. -/
def member? (name : String) : Json → Option Json
  | .object members => (members.reverse.find? fun m => m.1 == some name).map (·.2)
  | _ => none

def text? : Json → Option String
  | .string s => s
  | _ => none

def int? : Json → Option Int
  | .number n => n.int?
  | _ => none

def items? : Json → Option (List Json)
  | .array items => some items
  | _ => none

@[simp] theorem int?_int (i : Int) : (Json.int i).int? = some i := Number.int?_ofInt i

end Json

end TabBoard
