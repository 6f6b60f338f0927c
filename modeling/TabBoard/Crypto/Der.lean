import TabBoard.Text.Utf8

/-!
# Tagged values

The binary notation of keys: a tag, a length, and as many octets of content. A sequence holds values
one after the other. Lengths are written in one octet up to 127, and otherwise in as many octets as
the first one says.
-/

namespace TabBoard.Crypto

open Text.Utf8 (Octets)

namespace Der

/-- The tags that keys use. -/
def integerTag : UInt8 := 0x02
def bitStringTag : UInt8 := 0x03
def objectTag : UInt8 := 0x06
def sequenceTag : UInt8 := 0x30

structure Value where
  tag : UInt8
  content : Octets
  deriving Repr, DecidableEq, Inhabited

/-- A natural number, most significant octet first. -/
def natOf (octets : Octets) : Nat := octets.foldl (fun n b => n * 256 + b.toNat) 0

/-- The length at the front and what follows it. -/
def length? : Octets → Option (Nat × Octets)
  | [] => none
  | b :: rest =>
    if b < 0x80 then some (b.toNat, rest)
    else
      let n := b.toNat - 0x80
      if n = 0 ∨ 8 < n ∨ rest.length < n then none
      else some (natOf (rest.take n), rest.drop n)

/-- The value at the front and what follows it. -/
def value? : Octets → Option (Value × Octets)
  | [] => none
  | tag :: rest =>
    match length? rest with
    | none => none
    | some (n, rest) => if rest.length < n then none else some (⟨tag, rest.take n⟩, rest.drop n)

/-- At most `n` values that fill the octets. -/
def values? : Nat → Octets → Option (List Value)
  | _, [] => some []
  | 0, _ => none
  | n + 1, octets =>
    match value? octets with
    | none => none
    | some (v, rest) => (values? n rest).map (v :: ·)

def Value.items? (v : Value) : Option (List Value) :=
  if v.tag = sequenceTag then values? v.content.length v.content else none

/-- The only value that the octets hold. -/
def single? (octets : Octets) : Option Value :=
  match value? octets with
  | some (v, []) => some v
  | _ => none

end Der

end TabBoard.Crypto
