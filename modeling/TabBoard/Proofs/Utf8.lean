import TabBoard.Text.Utf8
import Mathlib.Tactic.SplitIfs

/-!
# The octets of a text are read back

`decode?` and `decodeLossy` undo `encode`, for every text.

Where the octets of a character begin, its first two tell how many there are (`Begins`). There is
one lemma for each length of a character, which says what `next` reads from such octets (`next_one`
to `next_four`), and by `next_encodeChar` this is the character that they are the octets of. A whole
text is then read character by character (`symbols_encode`).
-/

namespace TabBoard.Text.Utf8

/-! ## Octets as a list -/

theorem toList_loop (b : ByteArray) (i : Nat) (done : Octets) :
    ByteArray.toList.loop b i done = done.reverse ++ b.data.toList.drop i := by
  fun_induction ByteArray.toList.loop b i done with
  | case1 i done hi ih =>
    have hlength : i < b.data.toList.length := hi
    have hget : b.get! i = b.data.toList[i] := getElem!_pos b.data i hi
    rw [ih, hget, List.reverse_cons, List.append_assoc, List.singleton_append,
      ← List.drop_eq_getElem_cons hlength]
  | case2 i done hi =>
    rw [List.drop_eq_nil_of_le (Nat.le_of_not_lt hi), List.append_nil]

theorem encode_ofList (cs : List Char) :
    encode (String.ofList cs) = cs.flatMap String.utf8EncodeChar := by
  have h : encode (String.ofList cs) = (cs.flatMap String.utf8EncodeChar).toByteArray.toList := rfl
  rw [h, ByteArray.toList, toList_loop]
  simp

theorem encode_singleton (c : Char) : encode (String.singleton c) = String.utf8EncodeChar c := by
  have h := encode_ofList [c]
  rwa [List.flatMap_singleton] at h

theorem encodeChar_of_lt {c : Char} (h : c.toNat < 0x80) :
    String.utf8EncodeChar c = [.ofNat c.toNat] := by
  rw [String.utf8EncodeChar, show c.val.toNat = c.toNat from rfl]
  exact if_pos (Nat.le_of_lt_succ h)

/-! ## The first two octets of a character -/

/-- The octets `a` and `b` begin a character of which `n` more octets are to come. -/
def Begins (a b : UInt8) (n : Nat) : Prop :=
  ∃ low high, lead a = some (low, high, n) ∧ (low ≤ b && b ≤ high) = true

theorem lead_eq (a : UInt8) :
    lead a =
      if 0xC2 ≤ a.toNat ∧ a.toNat ≤ 0xDF then some (0x80, 0xBF, 0)
      else if a.toNat = 0xE0 then some (0xA0, 0xBF, 1)
      else if a.toNat = 0xED then some (0x80, 0x9F, 1)
      else if 0xE1 ≤ a.toNat ∧ a.toNat ≤ 0xEF then some (0x80, 0xBF, 1)
      else if a.toNat = 0xF0 then some (0x90, 0xBF, 2)
      else if 0xF1 ≤ a.toNat ∧ a.toNat ≤ 0xF3 then some (0x80, 0xBF, 2)
      else if a.toNat = 0xF4 then some (0x80, 0x8F, 2)
      else none := by
  simp [lead, UInt8.le_iff_toNat_le, ← UInt8.toNat_inj]

theorem Begins.not_lt {a b : UInt8} {n : Nat} (h : Begins a b n) : ¬ a < 0x80 := by
  obtain ⟨low, high, ha, -⟩ := h
  intro hlt
  have hlt : a.toNat < 0x80 := UInt8.lt_iff_toNat_lt.mp hlt
  rw [lead_eq] at ha
  split_ifs at ha <;> omega

section

variable {v : Nat}

theorem begins_two (h : 0x80 ≤ v) (h' : v ≤ 0x7FF) :
    Begins (.ofNat (v / 64 % 32 + 192)) (.ofNat (v % 64 + 128)) 0 := by
  simp only [Begins, lead_eq, Bool.and_eq_true, decide_eq_true_eq, UInt8.le_iff_toNat_le,
    UInt8.toNat_ofNat']
  rw [if_pos (by omega)]
  exact ⟨_, _, rfl, by simp only [UInt8.reduceToNat]; omega⟩

/-- The second octet is bounded after `E0`, where fewer octets would do, and after `ED`, where the
surrogates are. -/
theorem begins_three (h : 0x800 ≤ v) (h' : v ≤ 0xFFFF) (hs : v < 0xD800 ∨ 0xDFFF < v) :
    Begins (.ofNat (v / 4096 % 16 + 224)) (.ofNat (v / 64 % 64 + 128)) 1 := by
  simp only [Begins, lead_eq, Bool.and_eq_true, decide_eq_true_eq, UInt8.le_iff_toNat_le,
    UInt8.toNat_ofNat']
  split_ifs <;>
    first
    | omega
    | exact ⟨_, _, rfl, by simp only [UInt8.reduceToNat]; omega⟩

/-- The second octet is bounded after `F0`, where fewer octets would do, and after `F4`, where the
characters end. -/
theorem begins_four (h : 0x10000 ≤ v) (h' : v ≤ 0x10FFFF) :
    Begins (.ofNat (v / 262144 % 8 + 240)) (.ofNat (v / 4096 % 64 + 128)) 2 := by
  simp only [Begins, lead_eq, Bool.and_eq_true, decide_eq_true_eq, UInt8.le_iff_toNat_le,
    UInt8.toNat_ofNat']
  split_ifs <;>
    first
    | omega
    | exact ⟨_, _, rfl, by simp only [UInt8.reduceToNat]; omega⟩

theorem isTail_ofNat (v : Nat) : isTail (.ofNat (v % 64 + 128)) = true := by
  simp only [isTail, Bool.and_eq_true, decide_eq_true_eq, UInt8.le_iff_toNat_le,
    UInt8.toNat_ofNat', UInt8.reduceToNat]
  omega

end

/-! ## One character -/

section

variable {a b c d : UInt8}

theorem next_one (h : a.toNat < 0x80) (rest : Octets) :
    next a rest = (some (.ofNat a.toNat), rest) := by
  have h' : a < 0x80 := UInt8.lt_iff_toNat_lt.mpr h
  simp only [next, if_pos h']

theorem next_two (h : Begins a b 0) (rest : Octets) :
    next a (b :: rest) = (some (.ofNat (a.toNat % 32 * 64 + b.toNat % 64)), rest) := by
  obtain ⟨low, high, ha, hb⟩ := id h
  simp only [next, if_neg h.not_lt, ha, if_pos hb, leadBits]

theorem next_three (h : Begins a b 1) (hc : isTail c = true) (rest : Octets) :
    next a (b :: c :: rest) =
      (some (.ofNat ((a.toNat % 16 * 64 + b.toNat % 64) * 64 + c.toNat % 64)), rest) := by
  obtain ⟨low, high, ha, hb⟩ := id h
  simp only [next, if_neg h.not_lt, ha, if_pos hb, leadBits, hc, if_true]

theorem next_four (h : Begins a b 2) (hc : isTail c = true) (hd : isTail d = true)
    (rest : Octets) :
    next a (b :: c :: d :: rest) =
      (some (.ofNat (((a.toNat % 8 * 64 + b.toNat % 64) * 64 + c.toNat % 64) * 64 + d.toNat % 64)),
        rest) := by
  obtain ⟨low, high, ha, hb⟩ := id h
  simp only [next, if_neg h.not_lt, ha, if_pos hb, leadBits, hc, hd, if_true]

end

/-- A character is read back from its octets, whatever is behind them. -/
theorem next_encodeChar (c : Char) (rest : Octets) :
    ∃ a tail, String.utf8EncodeChar c = a :: tail ∧ next a (tail ++ rest) = (some c, rest) := by
  have hc : c.toNat < 0xD800 ∨ 0xDFFF < c.toNat ∧ c.toNat < 0x110000 := c.valid
  have hread {n : Nat} (h : n = c.toNat) : (some (Char.ofNat n), rest) = (some c, rest) := by
    rw [h, Char.ofNat_toNat]
  rw [String.utf8EncodeChar, show c.val.toNat = c.toNat from rfl]
  -- One case for each length of a character; what is left of each are sums of its digits.
  split_ifs with h1 h2 h3
  · refine ⟨_, _, rfl, (next_one ?_ _).trans (hread ?_)⟩ <;> rw [UInt8.toNat_ofNat'] <;> omega
  · refine ⟨_, _, rfl, (next_two (begins_two (by omega) h2) _).trans (hread ?_)⟩
    simp only [UInt8.toNat_ofNat']
    omega
  · have hbegins := begins_three (by omega) h3 (by omega)
    refine ⟨_, _, rfl, (next_three hbegins (isTail_ofNat _) _).trans (hread ?_)⟩
    simp only [UInt8.toNat_ofNat']
    omega
  · have hbegins := begins_four (v := c.toNat) (by omega) (by omega)
    refine ⟨_, _, rfl,
      (next_four hbegins (isTail_ofNat _) (isTail_ofNat _) _).trans (hread ?_)⟩
    simp only [UInt8.toNat_ofNat']
    omega

/-! ## Texts -/

theorem symbolsFrom_encode (cs : List Char) (done : List (Option Char)) :
    symbolsFrom done (cs.flatMap String.utf8EncodeChar) = done.reverse ++ cs.map some := by
  induction cs generalizing done with
  | nil => simp [symbolsFrom]
  | cons c cs ih =>
    obtain ⟨a, tail, hc, hnext⟩ := next_encodeChar c (cs.flatMap String.utf8EncodeChar)
    rw [List.flatMap_cons, hc, List.cons_append, symbolsFrom, hnext, ih]
    simp

/-- In the octets of a text there is nothing but its characters. -/
theorem symbols_encode (s : String) : symbols (encode s) = s.toList.map some := by
  have h := symbolsFrom_encode s.toList []
  rwa [← encode_ofList, String.ofList_toList] at h

@[simp] theorem decode?_encode (s : String) : decode? (encode s) = some s := by
  have hall (cs : List Char) : (cs.map some).mapM id = some cs := by
    induction cs with
    | nil => rfl
    | cons c cs ih => simp [ih]
  rw [decode?, symbols_encode, hall, Option.map_some, String.ofList_toList]

@[simp] theorem decodeLossy_encode (s : String) : decodeLossy (encode s) = s := by
  simp [decodeLossy, symbols_encode, Function.comp_def]

end TabBoard.Text.Utf8
