import TabBoard.Json.Reader

/-!
# From JSON to records

A `Decoder` turns a value into something of the domain. It is told how many more arrays and objects
may open on the way down, and fails in one of two ways:

- `malformed`: what it looked at is not JSON, or spells no character, or nests too deep, or is a
  number without a nearest double;
- `mismatch`: it is JSON, but not what was asked for.

**Records** (`record`). A record is read from an object or, field by field in order, from an array.
A name that the record does not have is skipped: of what is skipped only the syntax is checked, so
it may nest without limit and hold strings that spell no text. A name of the record that appears
twice is a mismatch.
-/

namespace TabBoard.Json

/-- Why a value was refused. -/
inductive Fault where
  | malformed
  | mismatch
  deriving Repr, DecidableEq

/-- A reading of values; the number is how many arrays and objects may still open. -/
abbrev Decoder (α : Type) := Nat → Json → Except Fault α

/-- How deep arrays and objects may nest. -/
def depthLimit : Nat := 127

/-- The fault of a value that is not the expected one. A value is read before it is compared, so
one that cannot be read is malformed. -/
def blame : Json → Fault
  | .broken => .malformed
  | .string none => .malformed
  | .number n => if n.isDouble then .mismatch else .malformed
  | _ => .mismatch

namespace Decoder

def text : Decoder String
  | _, .string (some s) => .ok s
  | _, j => .error (blame j)

def bool : Decoder Bool
  | _, .bool b => .ok b
  | _, j => .error (blame j)

def int (low high : Int) : Decoder Int
  | _, .number n =>
    match n.int? with
    | some i => if low ≤ i ∧ i ≤ high then .ok i else .error .mismatch
    | none => .error (blame (.number n))
  | _, j => .error (blame j)

def int64 : Decoder Int := int (-9223372036854775808) 9223372036854775807

def int32 : Decoder Int := int (-2147483648) 2147483647

def nat (high : Nat) : Decoder Nat := fun depth j => (int 0 high depth j).map Int.toNat

/-- `null` stands for nothing. -/
def nullable {α : Type} (d : Decoder α) : Decoder (Option α)
  | _, .null => .ok none
  | depth, j => (d depth j).map some

def list {α : Type} (d : Decoder α) : Decoder (List α)
  | depth + 1, .array items => items.mapM (d depth)
  | 0, .array _ => .error .malformed
  | _, j => .error (blame j)

/-- One of a list of names, written as a string or as the only member, with value `null`, of an
object. -/
def oneOf {α : Type} (table : List (String × α)) : Decoder α
  | _, .string (some s) => ((table.lookup s).map Except.ok).getD (.error .mismatch)
  | _ + 1, .object [(some s, .null)] =>
    ((table.lookup s).map Except.ok).getD (.error .mismatch)
  | 0, .object _ => .error .malformed
  | _, j => .error (blame j)

end Decoder

/-! ## Values kept as they are -/

mutual

/-- The value can be read to its end: strings spell text, numbers have a nearest double, and
arrays and objects nest no deeper than allowed. -/
def readable : Nat → Json → Bool
  | depth, .array items => 0 < depth && readableItems (depth - 1) items
  | depth, .object members => 0 < depth && readableMembers (depth - 1) members
  | _, .string s => s.isSome
  | _, .number n => n.isDouble
  | _, .broken => false
  | _, _ => true

def readableItems : Nat → List Json → Bool
  | _, [] => true
  | depth, item :: items => readable depth item && readableItems depth items

def readableMembers : Nat → List (Option String × Json) → Bool
  | _, [] => true
  | depth, (name, value) :: members =>
    name.isSome && readable depth value && readableMembers depth members

end

/-- Any value that can be read. -/
def Decoder.value : Decoder Json := fun depth j =>
  if j.readable depth then .ok j else .error .malformed

/-! ## Records -/

structure Record where
  /-- How many arrays and objects may open inside a field. -/
  depth : Nat
  /-- The fields stood in an array. -/
  positional : Bool
  found : List (String × Json)

/-- Picks the members with the given names. -/
def pick (names : List String) (found : List (String × Json)) :
    List (Option String × Json) → Except Fault (List (String × Json))
  | [] => .ok found
  | (none, _) :: _ => .error .malformed
  | (some name, value) :: members =>
    if name ∈ names then
      if found.any (·.1 == name) then .error .mismatch
      else pick names (found ++ [(name, value)]) members
    else if value.complete then pick names found members
    else .error .malformed

def record (names : List String) : Decoder Record
  | depth + 1, .object members => (pick names [] members).map (⟨depth, false, ·⟩)
  | depth + 1, .array items =>
    if items.length ≤ names.length then .ok ⟨depth, true, names.zip items⟩
    else .error (if completeItems items then .mismatch else .malformed)
  | 0, .object _ => .error .malformed
  | 0, .array _ => .error .malformed
  | _, j => .error (blame j)

namespace Record

variable {α : Type}

def required (r : Record) (name : String) (d : Decoder α) : Except Fault α :=
  match r.found.lookup name with
  | some j => d r.depth j
  | none => .error .mismatch

/-- A field that may be `null`, and may be absent from an object. -/
def nullable (r : Record) (name : String) (d : Decoder α) : Except Fault (Option α) :=
  match r.found.lookup name with
  | some j => d.nullable r.depth j
  | none => if r.positional then .error .mismatch else .ok none

def getD (r : Record) (name : String) (default : α) (d : Decoder α) : Except Fault α :=
  match r.found.lookup name with
  | some j => d r.depth j
  | none => .ok default

/-- A field that may be absent or `null`. -/
def get? (r : Record) (name : String) (d : Decoder α) : Except Fault (Option α) :=
  r.getD name none d.nullable

end Record

/-! ## Documents -/

/-- What a document holds: its value decoded, with nothing behind it. -/
def Document.decode {α : Type} (d : Decoder α) (doc : Document) : Except Fault α :=
  match d depthLimit doc.value with
  | .error e => .error e
  | .ok a => if doc.trailing then .error .malformed else .ok a

end TabBoard.Json
