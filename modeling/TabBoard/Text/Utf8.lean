/-!
# UTF-8

Octets and the characters they spell. `next` reads the first character of an octet sequence, or
sets apart the octets that belong to no character. Three readers are built on it:

- `decode?` accepts a sequence only if all of it is characters;
- `decodeLossy` puts U+FFFD in place of each stretch that is no character;
- `symbols` keeps such a stretch as `none`, for formats in which parts of a text are skipped unread.

`encode` is the inverse: the octets of a text.
-/

namespace TabBoard.Text.Utf8

abbrev Octets := List UInt8

/-- An octet inside a character of several octets. -/
def isTail (b : UInt8) : Bool := 0x80 ≤ b && b ≤ 0xBF

/-- The least and the greatest second octet after the first octet `a` of a character of several
octets, and how many octets follow the second one. -/
def lead (a : UInt8) : Option (UInt8 × UInt8 × Nat) :=
  if 0xC2 ≤ a && a ≤ 0xDF then some (0x80, 0xBF, 0)
  else if a == 0xE0 then some (0xA0, 0xBF, 1)
  else if a == 0xED then some (0x80, 0x9F, 1)
  else if 0xE1 ≤ a && a ≤ 0xEF then some (0x80, 0xBF, 1)
  else if a == 0xF0 then some (0x90, 0xBF, 2)
  else if 0xF1 ≤ a && a ≤ 0xF3 then some (0x80, 0xBF, 2)
  else if a == 0xF4 then some (0x80, 0x8F, 2)
  else none

/-- The payload bits of the first octet of a character with `n` octets behind the second one. -/
def leadBits (a : UInt8) : Nat → Nat
  | 0 => a.toNat % 32
  | 1 => a.toNat % 16
  | _ => a.toNat % 8

/-- The first character of a non-empty sequence and the octets behind it. Where no character
starts, the longest stretch that is the beginning of one, or else one octet, is set apart. -/
def next (a : UInt8) (rest : Octets) : Option Char × Octets :=
  if a < 0x80 then (some (Char.ofNat a.toNat), rest)
  else
    match lead a, rest with
    | none, _ => (none, rest)
    | some _, [] => (none, [])
    | some (low, high, n), b :: rest =>
      if low ≤ b && b ≤ high then
        let v := leadBits a n * 64 + b.toNat % 64
        match n, rest with
        | 0, _ => (some (Char.ofNat v), rest)
        | 1, c :: rest' =>
          if isTail c then (some (Char.ofNat (v * 64 + c.toNat % 64)), rest') else (none, rest)
        | 2, c :: rest' =>
          if isTail c then
            match rest' with
            | d :: rest'' =>
              if isTail d then
                (some (Char.ofNat ((v * 64 + c.toNat % 64) * 64 + d.toNat % 64)), rest'')
              else (none, rest')
            | [] => (none, [])
          else (none, rest)
        | _, _ => (none, rest)
      else (none, b :: rest)

/-- Reading a character never lengthens what is left. -/
theorem next_length (a : UInt8) (rest : Octets) : (next a rest).2.length ≤ rest.length := by
  unfold next
  split
  · exact Nat.le_refl _
  · split
    · exact Nat.le_refl _
    · exact Nat.le_refl _
    · split
      · split
        · simp
        · split <;> (simp only [List.length_cons]; omega)
        · split
          · split
            · split <;> (simp only [List.length_cons]; omega)
            · simp
          · simp
        · simp
      · exact Nat.le_refl _

/-- The characters of a sequence in order, with `none` for each stretch that is no character;
`done` holds those already read, last first. -/
def symbolsFrom (done : List (Option Char)) : Octets → List (Option Char)
  | [] => done.reverse
  | a :: rest => symbolsFrom ((next a rest).1 :: done) (next a rest).2
termination_by octets => octets.length
decreasing_by exact Nat.lt_succ_of_le (next_length a rest)

/-- The characters of a sequence, with `none` for each stretch that is no character. -/
def symbols (octets : Octets) : List (Option Char) := symbolsFrom [] octets

/-- The text that the octets spell, if all of them belong to characters. -/
def decode? (octets : Octets) : Option String :=
  ((symbols octets).mapM id).map String.ofList

/-- The text that the octets spell, with U+FFFD for each stretch that is no character. -/
def decodeLossy (octets : Octets) : String :=
  String.ofList ((symbols octets).map (·.getD '\uFFFD'))

def encode (s : String) : Octets := s.toUTF8.toList

def size (s : String) : Nat := s.utf8ByteSize

end TabBoard.Text.Utf8
