import TabBoard.Crypto.Base64
import TabBoard.Crypto.Der
import TabBoard.Crypto.Sha256
import TabBoard.Text.Blank

/-!
# RSA signatures

A public key is a modulus and an exponent. It is read from a text block (`-----BEGIN …-----`) that
holds either the two numbers themselves or the two numbers wrapped with the name of the algorithm.

A signature is as long as the modulus. Raised to the exponent it is the hash of the message, behind
the name of the hash and a padding that fills the modulus.
-/

namespace TabBoard.Crypto

open Text.Utf8 (Octets)

structure RsaKey where
  modulus : Nat
  exponent : Nat
  deriving Repr, DecidableEq, Inhabited

namespace RsaKey

/-! ## Reading -/

/-- The text before and behind the first occurrence of a mark. -/
def splitAt (mark : List Char) : List Char → Option (List Char × List Char)
  | [] => if mark.isEmpty then some ([], []) else none
  | c :: cs =>
    if mark.isPrefixOf (c :: cs) then some ([], (c :: cs).drop mark.length)
    else (splitAt mark cs).map fun (l, r) => (c :: l, r)

/-- A text block: its label and its content. -/
def textBlock? (s : String) : Option (String × Octets) := do
  let (_, rest) ← splitAt "-----BEGIN ".toList s.toList
  let (label, rest) ← splitAt "-----".toList rest
  let (body, rest) ← splitAt "-----END ".toList rest
  let (ending, _) ← splitAt "-----".toList rest
  if label ≠ ending then none
  let content ← Base64.decodeStandard (body.filter fun c => !Text.isBlank c)
  return (String.ofList label, content)

def ofNumbers? (octets : Octets) : Option RsaKey := do
  match ← (← Der.single? octets).items? with
  | [m, e] =>
    if m.tag = Der.integerTag ∧ e.tag = Der.integerTag then
      some ⟨Der.natOf m.content, Der.natOf e.content⟩
    else none
  | _ => none

/-- The name of the algorithm in a wrapped key. -/
def algorithmName : Octets := [0x2A, 0x86, 0x48, 0x86, 0xF7, 0x0D, 0x01, 0x01, 0x01]

/-- The two numbers, wrapped with the name of the algorithm. -/
def ofWrapped? (octets : Octets) : Option RsaKey := do
  match ← (← Der.single? octets).items? with
  | [algorithm, key] =>
    let parts ← algorithm.items?
    if parts.head? = some ⟨Der.objectTag, algorithmName⟩ ∧ key.tag = Der.bitStringTag then
      ofNumbers? (key.content.drop 1)
    else none
  | _ => none

def ofText? (s : String) : Option RsaKey :=
  match textBlock? s with
  | some ("PUBLIC KEY", content) => ofWrapped? content
  | some ("RSA PUBLIC KEY", content) => ofNumbers? content
  | _ => none

/-! ## Verifying -/

/-- `base ^ exponent % modulus`, by squaring; at most `bits` binary digits of the exponent count. -/
def powMod (modulus : Nat) : Nat → Nat → Nat → Nat
  | 0, _, _ => 1 % modulus
  | bits + 1, base, exponent =>
    if exponent = 0 then 1 % modulus
    else
      let half := powMod modulus bits (base * base % modulus) (exponent / 2)
      if exponent % 2 = 1 then base * half % modulus else half

/-- The length of the modulus in octets. -/
def size (k : RsaKey) : Nat := (Nat.log2 k.modulus) / 8 + 1

/-- The name of the hash, in front of the hash. -/
def hashName : Octets :=
  [0x30, 0x31, 0x30, 0x0d, 0x06, 0x09, 0x60, 0x86, 0x48, 0x01, 0x65, 0x03, 0x04, 0x02, 0x01, 0x05,
    0x00, 0x04, 0x20]

/-- What a signature of the message has to give, in as many octets as the modulus has. -/
def expected (size : Nat) (message : Octets) : Octets :=
  let tail := hashName ++ Sha256.hash message
  0x00 :: 0x01 :: List.replicate (size - tail.length - 3) 0xFF ++ 0x00 :: tail

def verifies (k : RsaKey) (message signature : Octets) : Bool :=
  let s := Der.natOf signature
  signature.length = k.size && s < k.modulus &&
    (expected k.size message).length = k.size &&
    powMod k.modulus (Nat.log2 k.exponent + 1) s k.exponent = Der.natOf (expected k.size message)

end RsaKey

end TabBoard.Crypto
