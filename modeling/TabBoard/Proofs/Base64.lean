import TabBoard.Crypto.Base64
import Mathlib.Data.List.Basic

/-!
# Base 64 has one spelling

Decoding is strict, so that octets have exactly one spelling in the web alphabet: `encodeWeb`. In
particular there is no second spelling with other left-over bits, with padding or with foreign
characters in between.

**Theorem (`decodeWeb_eq_some_iff`).** A text decodes to some octets exactly if it is their
spelling.
-/

namespace TabBoard.Crypto.Base64

open Text.Utf8 (Octets)

variable {s : String} {c : Char} {n : Nat} {octets : Octets}

/-! ## Characters -/

/-- The character that stands for six bits in the web alphabet. -/
def webChar (n : Nat) : Char :=
  if n < 26 then Char.ofNat ('A'.toNat + n)
  else if n < 52 then Char.ofNat ('a'.toNat + (n - 26))
  else if n < 62 then Char.ofNat ('0'.toNat + (n - 52))
  else if n = 62 then '-'
  else '_'

theorem sextet?_webChar (h : n < 64) : sextet? '-' '_' (webChar n) = some n := by
  have hall : ∀ n < 64, sextet? '-' '_' (webChar n) = some n := by decide
  exact hall n h

theorem webChar_ne_dot (h : n < 64) : webChar n ≠ '.' := by
  have hall : ∀ n < 64, webChar n ≠ '.' := by decide
  exact hall n h

/-- A character lies at its distance behind any earlier one. -/
theorem ofNat_add_sub {first : Char} (h : first ≤ c) :
    Char.ofNat (first.toNat + (c.toNat - first.toNat)) = c := by
  have hle : first.toNat ≤ c.toNat := h
  rw [Nat.add_sub_cancel' hle, Char.ofNat_toNat]

theorem webChar_of_sextet? (h : sextet? '-' '_' c = some n) : n < 64 ∧ webChar n = c := by
  rw [sextet?] at h
  split_ifs at h with hupper hlower hdigit hminus hunderscore
  · have hlast : c.toNat ≤ 90 := hupper.2
    obtain rfl : c.toNat - 65 = n := Option.some.inj h
    rw [webChar, if_pos (by omega)]
    exact ⟨by omega, ofNat_add_sub hupper.1⟩
  · have hlast : c.toNat ≤ 122 := hlower.2
    obtain rfl : c.toNat - 97 + 26 = n := Option.some.inj h
    rw [webChar, if_neg (by omega), if_pos (by omega), Nat.add_sub_cancel]
    exact ⟨by omega, ofNat_add_sub hlower.1⟩
  · have hlast : c.toNat ≤ 57 := hdigit.2
    obtain rfl : c.toNat - 48 + 52 = n := Option.some.inj h
    rw [webChar, if_neg (by omega), if_neg (by omega), if_pos (by omega), Nat.add_sub_cancel]
    exact ⟨by omega, ofNat_add_sub hdigit.1⟩
  · obtain rfl : 62 = n := Option.some.inj h
    exact ⟨by decide, hminus.symm⟩
  · obtain rfl : 63 = n := Option.some.inj h
    exact ⟨by decide, hunderscore.symm⟩

theorem mapM_sextet?_iff {cs : List Char} {ns : List Nat} :
    cs.mapM (sextet? '-' '_') = some ns ↔ cs = ns.map webChar ∧ ∀ n ∈ ns, n < 64 := by
  induction cs generalizing ns with
  | nil => cases ns <;> simp
  | cons c cs ih =>
    rw [List.mapM_cons]
    constructor
    · intro h
      obtain ⟨n, hn, h⟩ := Option.bind_eq_some_iff.1 h
      obtain ⟨ns', hns, h⟩ := Option.bind_eq_some_iff.1 h
      obtain rfl : n :: ns' = ns := Option.some.inj h
      obtain ⟨hlt, hchar⟩ := webChar_of_sextet? hn
      obtain ⟨hcs, hall⟩ := ih.1 hns
      exact ⟨by rw [List.map_cons, hchar, ← hcs], List.forall_mem_cons.2 ⟨hlt, hall⟩⟩
    · rintro ⟨hcs, hall⟩
      cases ns with
      | nil => cases hcs
      | cons n ns =>
        obtain ⟨hlt, hall⟩ := List.forall_mem_cons.1 hall
        obtain ⟨rfl, rfl⟩ := List.cons.inj hcs
        rw [sextet?_webChar hlt, ih.2 ⟨rfl, hall⟩]
        rfl

/-! ## Sextets -/

/-- Octets, cut into groups of six bits. What is missing at the end is zero. -/
def toSextets : Octets → List Nat
  | a :: b :: c :: rest =>
    a.toNat / 4 :: (a.toNat % 4 * 16 + b.toNat / 16) :: (b.toNat % 16 * 4 + c.toNat / 64) ::
      c.toNat % 64 :: toSextets rest
  | [a, b] => [a.toNat / 4, a.toNat % 4 * 16 + b.toNat / 16, b.toNat % 16 * 4]
  | [a] => [a.toNat / 4, a.toNat % 4 * 16]
  | [] => []

theorem toNat_toUInt8 (h : n < 256) : n.toUInt8.toNat = n := by
  rw [Nat.toUInt8, UInt8.toNat_ofNat', Nat.mod_eq_of_lt h]

theorem toUInt8_eq {b : UInt8} (h : n = b.toNat) : n.toUInt8 = b := by
  rw [h, Nat.toUInt8, UInt8.ofNat_toNat]

theorem ofSextets_toSextets (octets : Octets) : ofSextets (toSextets octets) = some octets := by
  fun_induction toSextets octets with
  | case1 a b c rest ih =>
    have ha := a.toNat_lt
    have hb := b.toNat_lt
    have hc := c.toNat_lt
    simp only [ofSextets, ih, Option.map_some, Option.some.injEq, List.cons.injEq, and_true]
    exact ⟨toUInt8_eq (by omega), toUInt8_eq (by omega), toUInt8_eq (by omega)⟩
  | case2 a b =>
    have ha := a.toNat_lt
    have hb := b.toNat_lt
    rw [ofSextets, if_pos (by omega)]
    simp only [Option.some.injEq, List.cons.injEq, and_true]
    exact ⟨toUInt8_eq (by omega), toUInt8_eq (by omega)⟩
  | case3 a =>
    have ha := a.toNat_lt
    rw [ofSextets, if_pos (by omega)]
    simp only [Option.some.injEq, List.cons.injEq, and_true]
    exact toUInt8_eq (by omega)
  | case4 => rfl

theorem toSextets_of_ofSextets {ns : List Nat} (h : ofSextets ns = some octets)
    (hlt : ∀ n ∈ ns, n < 64) : toSextets octets = ns := by
  fun_induction ofSextets ns generalizing octets with
  | case1 a b c d rest ih =>
    obtain ⟨octets', hrest, rfl⟩ := Option.map_eq_some_iff.1 h
    simp only [List.forall_mem_cons] at hlt
    obtain ⟨ha, hb, hc, hd, hall⟩ := hlt
    have h1 : a * 4 + b / 16 < 256 := by omega
    have h2 : b % 16 * 16 + c / 4 < 256 := by omega
    have h3 : c % 4 * 64 + d < 256 := by omega
    simp only [toSextets, toNat_toUInt8 h1, toNat_toUInt8 h2, toNat_toUInt8 h3, ih hrest hall,
      List.cons.injEq, and_true]
    omega
  | case2 a b c hzero =>
    obtain rfl := Option.some.inj h
    simp only [List.forall_mem_cons] at hlt
    obtain ⟨ha, hb, hc, -⟩ := hlt
    have h1 : a * 4 + b / 16 < 256 := by omega
    have h2 : b % 16 * 16 + c / 4 < 256 := by omega
    simp only [toSextets, toNat_toUInt8 h1, toNat_toUInt8 h2, List.cons.injEq, and_true]
    omega
  | case3 => cases h
  | case4 a b hzero =>
    obtain rfl := Option.some.inj h
    simp only [List.forall_mem_cons] at hlt
    obtain ⟨ha, hb, -⟩ := hlt
    have h1 : a * 4 + b / 16 < 256 := by omega
    simp only [toSextets, toNat_toUInt8 h1, List.cons.injEq, and_true]
    omega
  | case5 => cases h
  | case6 => cases h
  | case7 =>
    obtain rfl := Option.some.inj h
    rfl

theorem lt_of_mem_toSextets (h : n ∈ toSextets octets) : n < 64 := by
  fun_induction toSextets octets with
  | case1 a b c rest ih =>
    have ha := a.toNat_lt
    have hb := b.toNat_lt
    have hc := c.toNat_lt
    simp only [List.mem_cons] at h
    obtain rfl | rfl | rfl | rfl | h := h
    · omega
    · omega
    · omega
    · omega
    · exact ih h
  | case2 a b =>
    have ha := a.toNat_lt
    have hb := b.toNat_lt
    simp only [List.mem_cons, List.not_mem_nil, or_false] at h
    omega
  | case3 a =>
    have ha := a.toNat_lt
    simp only [List.mem_cons, List.not_mem_nil, or_false] at h
    omega
  | case4 => cases h

/-! ## Texts -/

/-- The spelling of octets in the web alphabet. -/
def encodeWeb (octets : Octets) : String := String.ofList ((toSextets octets).map webChar)

/-- **Octets have one spelling.** -/
theorem decodeWeb_eq_some_iff : decodeWeb s = some octets ↔ s = encodeWeb octets := by
  rw [decodeWeb, encodeWeb]
  constructor
  · intro h
    obtain ⟨ns, hns, hoctets⟩ := Option.bind_eq_some_iff.1 h
    obtain ⟨hchars, hlt⟩ := mapM_sextet?_iff.1 hns
    rw [toSextets_of_ofSextets hoctets hlt, ← hchars, String.ofList_toList]
  · rintro rfl
    refine Option.bind_eq_some_iff.2 ⟨toSextets octets, ?_, ofSextets_toSextets octets⟩
    rw [String.toList_ofList]
    exact mapM_sextet?_iff.2 ⟨rfl, fun n => lt_of_mem_toSextets⟩

@[simp] theorem decodeWeb_encodeWeb (octets : Octets) :
    decodeWeb (encodeWeb octets) = some octets :=
  decodeWeb_eq_some_iff.2 rfl

theorem dot_not_mem_encodeWeb (octets : Octets) : '.' ∉ (encodeWeb octets).toList := by
  rw [encodeWeb, String.toList_ofList, List.mem_map]
  rintro ⟨n, hn, hdot⟩
  exact webChar_ne_dot (lt_of_mem_toSextets hn) hdot

end TabBoard.Crypto.Base64
