import TabBoard.Json.Decode
import TabBoard.Json.Printer
import TabBoard.Proofs.Json.Grammar
import TabBoard.Proofs.Utf8

/-!
# What is printed is read back

`render` writes a text of the grammar, for every value that a text can hold (`proper`): all of it is
there, its strings have characters, and behind the point of a number are digits.

**Theorem (`ofText_render`).** Such a value is read back from what is printed.

**Theorem (`not_control_of_mem_render`).** No control character is printed, so the value stands on
one line.
-/

namespace TabBoard.Json

/-! ## Values that a text can hold -/

mutual

/-- A text can hold the value. -/
def proper : Json → Bool
  | .string s => s.isSome
  | .number n => n.fraction.all Char.isDigit
  | .array items => properItems items
  | .object members => properMembers members
  | .broken => false
  | _ => true

def properItems : List Json → Bool
  | [] => true
  | item :: items => item.proper && properItems items

def properMembers : List (Option String × Json) → Bool
  | [] => true
  | (name, value) :: members => name.isSome && value.proper && properMembers members

end

@[simp] theorem proper_ofMembers (ms : List (String × Json)) :
    (ofMembers ms).proper = ms.all fun m => m.2.proper := by
  rw [ofMembers, proper]
  induction ms with
  | nil => rfl
  | cons m ms ih => rw [List.map_cons, properMembers, ih, List.all_cons, Option.isSome_some,
      Bool.true_and]

@[simp] theorem proper_optText (s : Option String) : (optText s).proper = true := by
  cases s <;> rfl

/-! ## Strings -/

theorem hexDigit?_hexDigit {n : Nat} (h : n < 16) : hexDigit? (hexDigit n) = some n := by
  have hall : ∀ n : Fin 16, hexDigit? (hexDigit n) = some n := by decide
  exact hall ⟨n, h⟩

/-- Two digits are enough for a control character. -/
theorem hexQuad?_control {c : Char} (h : c < ' ') :
    hexQuad? '0' '0' (hexDigit (c.toNat / 16)) (hexDigit (c.toNat % 16)) = some c.toNat := by
  have hc : c.toNat < 32 := h
  have hzero : hexDigit? '0' = some 0 := rfl
  simp only [hexQuad?, hzero, hexDigit?_hexDigit (show c.toNat / 16 < 16 by omega),
    hexDigit?_hexDigit (show c.toNat % 16 < 16 by omega), Option.some.injEq]
  omega

theorem spells_escape {cs ws : List Char} (c : Char) (h : Spells cs ws) :
    Spells (c :: cs) (escape c ++ ws) := by
  unfold escape
  split_ifs with hquote hbackslash h8 hc hn hr ht hcontrol
  · exact .short (by rw [hquote]; rfl) h
  · exact .short (by rw [hbackslash]; rfl) h
  · exact .short (by rw [h8]; rfl) h
  · exact .short (by rw [hc]; rfl) h
  · exact .short (by rw [hn]; rfl) h
  · exact .short (by rw [hr]; rfl) h
  · exact .short (by rw [ht]; rfl) h
  · have hlt : c.toNat < 32 := hcontrol
    have hspell := Spells.code (hexQuad?_control hcontrol)
      (by simp only [isHighSurrogate, Bool.and_eq_false_iff, decide_eq_false_iff_not]; omega)
      (by simp only [isLowSurrogate, Bool.and_eq_false_iff, decide_eq_false_iff_not]; omega) h
    rwa [Char.ofNat_toNat] at hspell
  · exact .plain hcontrol hquote hbackslash h

theorem spells_escapes (cs : List Char) : Spells cs (cs.flatMap escape) := by
  induction cs with
  | nil => exact .nil
  | cons c cs ih => exact spells_escape c ih

/-! ## Numbers -/

theorem natOfDigits_toDigits (n : Nat) : natOfDigits (Nat.toDigits 10 n) = n := by
  rw [natOfDigits]
  conv => rhs; rw [← Nat.ofDigitChars_toDigits (b := 10) (n := n) (by decide) (by decide)]
  rw [Nat.ofDigitChars_eq_foldl]
  congr 1
  funext n c
  rw [Nat.mul_comm]

theorem digits_toDigits (n : Nat) : Digits (Nat.toDigits 10 n) :=
  ⟨Nat.toDigits_ne_nil, fun _ hc => Nat.isDigit_of_mem_toDigits (by decide) (by decide) hc⟩

/-- Only zero is written with a zero in front. -/
theorem toDigits_head (n : Nat) (h : (Nat.toDigits 10 n).head? = some '0') :
    Nat.toDigits 10 n = ['0'] := by
  induction n using Nat.strongRecOn with
  | ind n ih =>
    rw [Nat.toDigits_eq_if (by decide)] at h ⊢
    split_ifs at h ⊢ with hn
    · have hall : ∀ n : Fin 10, [Nat.digitChar n].head? = some '0' → [Nat.digitChar n] = ['0'] := by
        decide
      exact hall ⟨n, hn⟩ h
    · rw [List.head?_append_of_ne_nil _ Nat.toDigits_ne_nil] at h
      have hzero : natOfDigits (Nat.toDigits 10 (n / 10)) = 0 := by
        rw [ih (n / 10) (by omega) h]
        rfl
      rw [natOfDigits_toDigits] at hzero
      omega

theorem writesPower_toString (e : Int) : WritesPower (some e) ('e' :: (toString e).toList) := by
  cases e with
  | ofNat n =>
    have h := WritesPower.plain (.inl rfl) (digits_toDigits n)
    rw [natOfDigits_toDigits] at h
    simpa [toString, Int.repr] using h
  | negSucc n =>
    have h := WritesPower.minus (.inl rfl) (digits_toDigits (n + 1))
    rw [natOfDigits_toDigits] at h
    simpa [toString, Int.repr, Int.negSucc_eq] using h

theorem writesFraction_render {ds : List Char} (h : ds.all Char.isDigit = true) :
    WritesFraction ds (if ds.isEmpty then [] else '.' :: ds) := by
  cases ds with
  | nil => exact .none
  | cons d ds => exact .some ⟨List.cons_ne_nil _ _, List.all_eq_true.1 h⟩

theorem writesNumber_render {n : Number} (h : n.fraction.all Char.isDigit = true) :
    WritesNumber n n.render := by
  obtain ⟨negative, whole, fraction, exponent⟩ := n
  have hfraction : WritesFraction fraction _ := writesFraction_render h
  have hnumber {ps : List Char} (hpower : WritesPower exponent ps) :
      WritesNumber ⟨negative, natOfDigits (Nat.toDigits 10 whole), fraction, exponent⟩ _ :=
    .mk (digits_toDigits whole) (toDigits_head whole) hfraction hpower
  rw [natOfDigits_toDigits] at hnumber
  rw [Number.render, List.append_assoc, List.append_assoc]
  cases exponent with
  | none => simpa using hnumber .none
  | some e => simpa using hnumber (writesPower_toString e)

/-! ## Values -/

theorem blanks_nil : Blanks [] := fun _ h => by cases h

theorem writes_element {j : Json} {cs : List Char} (h : Writes (.value j) cs) :
    Writes (.element j) cs := by
  have helement := Writes.element blanks_nil blanks_nil h
  rwa [List.nil_append, List.append_nil] at helement

theorem writes_member {name : String} {j : Json} {cs : List Char} (h : Writes (.value j) cs) :
    Writes (.member name j) (quote name ++ ':' :: cs) := by
  have hmember := Writes.member blanks_nil blanks_nil
    (spells_escapes name.toList) (writes_element h)
  simpa [quote] using hmember

mutual

theorem writes_chars (j : Json) (h : j.proper = true) : Writes (.value j) (chars j) := by
  match j with
  | .null => exact .null
  | .bool true => exact .true
  | .bool false => exact .false
  | .number n => exact .number (writesNumber_render h)
  | .string (some s) => exact .string (spells_escapes _)
  | .array [] => exact .emptyArray blanks_nil
  | .array (item :: items) =>
    obtain ⟨hitem, hitems⟩ := Bool.and_eq_true_iff.1 h
    exact .array (writes_itemChars items hitems (writes_element (writes_chars item hitem)))
  | .object [] => exact .emptyObject blanks_nil
  | .object ((some name, j) :: members) =>
    obtain ⟨hj, hmembers⟩ := Bool.and_eq_true_iff.1 h
    have hfirst : Writes (.member name j) _ := writes_member (writes_chars j hj)
    simpa [chars] using Writes.object (writes_memberChars members hmembers hfirst)

/-- The items behind the first are written behind it. -/
theorem writes_itemChars (items : List Json) (h : properItems items = true) {j : Json}
    {cs : List Char} (hfirst : Writes (.element j) cs) :
    Writes (.items (j :: items)) (cs ++ itemChars items) := by
  match items with
  | [] => simpa [itemChars] using Writes.item hfirst
  | item :: items =>
    obtain ⟨hitem, hitems⟩ := Bool.and_eq_true_iff.1 h
    exact .items hfirst (writes_itemChars items hitems (writes_element (writes_chars item hitem)))

/-- The members behind the first are written behind it. -/
theorem writes_memberChars (members : List (Option String × Json))
    (h : properMembers members = true) {name : String} {j : Json} {cs : List Char}
    (hfirst : Writes (.member name j) cs) :
    Writes (.members ((some name, j) :: members)) (cs ++ memberChars members) := by
  match members with
  | [] => simpa [memberChars] using Writes.lastMember hfirst
  | (some next, value) :: members =>
    obtain ⟨hvalue, hmembers⟩ := Bool.and_eq_true_iff.1 h
    have hnext : Writes (.member next value) _ := writes_member (writes_chars value hvalue)
    simpa [memberChars] using Writes.members hfirst (writes_memberChars members hmembers hnext)

end

/-- What is printed is a text of the grammar. -/
theorem writes_render {j : Json} (h : j.proper = true) :
    Writes (.element j) j.render.toList := by
  rw [render, String.toList_ofList]
  exact writes_element (writes_chars j h)

/-- **What is printed is read back.** -/
theorem ofText_render {j : Json} (h : j.proper = true) : Document.ofText j.render = ⟨j, false⟩ :=
  ofText_of_writes (writes_render h)

theorem Document.ofOctets_encode (s : String) :
    Document.ofOctets (Text.Utf8.encode s) = Document.ofText s := by
  rw [Document.ofOctets, Text.Utf8.symbols_encode]
  rfl

/-- A decoder finds in what is printed what it finds in the value. -/
theorem decode_render {α : Type} (d : Decoder α) {j : Json} (h : j.proper = true) :
    (Document.ofText j.render).decode d = d depthLimit j := by
  rw [ofText_render h, Document.decode]
  cases d depthLimit j <;> rfl

/-! ## No control characters -/

/-- No control character is among the characters. -/
def Shown (cs : List Char) : Prop := ∀ c ∈ cs, ¬ c < ' '

instance (cs : List Char) : Decidable (Shown cs) :=
  List.decidableBAll _ cs

@[simp] theorem shown_nil : Shown [] := fun _ h => by cases h

@[simp] theorem shown_cons {c : Char} {cs : List Char} :
    Shown (c :: cs) ↔ ¬ c < ' ' ∧ Shown cs := List.forall_mem_cons

@[simp] theorem shown_append {cs ds : List Char} : Shown (cs ++ ds) ↔ Shown cs ∧ Shown ds :=
  List.forall_mem_append

theorem shown_escape (c : Char) : Shown (escape c) := by
  have hdigit {n : Nat} (hn : n < 16) : ¬ hexDigit n < ' ' := by
    have hall : ∀ n : Fin 16, ¬ hexDigit n < ' ' := by decide
    exact hall ⟨n, hn⟩
  unfold escape
  split_ifs with hquote hbackslash h8 hc hn hr ht hcontrol
  · decide
  · decide
  · decide
  · decide
  · decide
  · decide
  · decide
  · have hlt : c.toNat < 32 := hcontrol
    simp only [shown_cons, shown_nil, and_true]
    exact ⟨by decide, by decide, by decide, by decide, hdigit (by omega), hdigit (by omega)⟩
  · simpa using hcontrol

theorem shown_quote (s : String) : Shown (quote s) := by
  have hescapes : Shown (s.toList.flatMap escape) := by
    intro c hc
    obtain ⟨d, -, hd⟩ := List.mem_flatMap.1 hc
    exact shown_escape d c hd
  rw [quote, shown_append, shown_cons]
  exact ⟨⟨by decide, hescapes⟩, by decide⟩

/-- The digits of ASCII stand side by side. -/
theorem toNat_of_isDigit {c : Char} (h : c.isDigit = true) : 48 ≤ c.toNat ∧ c.toNat ≤ 57 := by
  simp only [Char.isDigit, Bool.and_eq_true, decide_eq_true_eq] at h
  exact h

theorem shown_digits {ds : List Char} (h : Digits ds) : Shown ds := by
  intro c hc hcontrol
  have hlow := (toNat_of_isDigit (h.2 c hc)).1
  have hlt : c.toNat < 32 := hcontrol
  omega

theorem shown_number {n : Number} {cs : List Char} (h : WritesNumber n cs) : Shown cs := by
  obtain @⟨negative, ds, fraction, fs, ps, power, hd, -, hf, hp⟩ := h
  have hsign : Shown (if negative then ['-'] else []) := by cases negative <;> decide
  have hfs : Shown fs := by
    cases hf with
    | none => exact shown_nil
    | some h => exact shown_cons.2 ⟨by decide, shown_digits h⟩
  have hletter {e : Char} (he : e = 'e' ∨ e = 'E') : ¬ e < ' ' := by
    obtain rfl | rfl := he <;> decide
  have hps : Shown ps := by
    cases hp with
    | none => exact shown_nil
    | plain he h => exact shown_cons.2 ⟨hletter he, shown_digits h⟩
    | plus he h => exact shown_cons.2 ⟨hletter he, shown_cons.2 ⟨by decide, shown_digits h⟩⟩
    | minus he h => exact shown_cons.2 ⟨hletter he, shown_cons.2 ⟨by decide, shown_digits h⟩⟩
  exact shown_append.2 ⟨hsign, shown_append.2 ⟨shown_digits hd, shown_append.2 ⟨hfs, hps⟩⟩⟩

mutual

theorem shown_chars (j : Json) (h : j.proper = true) : Shown (chars j) := by
  match j with
  | .null => decide
  | .bool true => decide
  | .bool false => decide
  | .number n => exact shown_number (writesNumber_render h)
  | .string (some s) => exact shown_quote s
  | .array [] => decide
  | .array (item :: items) =>
    obtain ⟨hitem, hitems⟩ := Bool.and_eq_true_iff.1 h
    simp only [chars, shown_append, shown_cons]
    exact ⟨⟨⟨by decide, shown_chars item hitem⟩, shown_itemChars items hitems⟩, by decide,
      shown_nil⟩
  | .object [] => decide
  | .object ((some name, j) :: members) =>
    obtain ⟨hj, hmembers⟩ := Bool.and_eq_true_iff.1 h
    simp only [chars, Option.getD_some, shown_append, shown_cons]
    exact ⟨⟨⟨⟨by decide, shown_quote name⟩, by decide, shown_chars j hj⟩,
      shown_memberChars members hmembers⟩, by decide, shown_nil⟩

theorem shown_itemChars (items : List Json) (h : properItems items = true) :
    Shown (itemChars items) := by
  match items with
  | [] => exact shown_nil
  | item :: items =>
    obtain ⟨hitem, hitems⟩ := Bool.and_eq_true_iff.1 h
    simp only [itemChars, shown_append, shown_cons]
    exact ⟨⟨by decide, shown_chars item hitem⟩, shown_itemChars items hitems⟩

theorem shown_memberChars (members : List (Option String × Json))
    (h : properMembers members = true) : Shown (memberChars members) := by
  match members with
  | [] => exact shown_nil
  | (some name, j) :: members =>
    obtain ⟨hj, hmembers⟩ := Bool.and_eq_true_iff.1 h
    simp only [memberChars, Option.getD_some, shown_append, shown_cons]
    exact ⟨⟨⟨by decide, shown_quote name⟩, by decide, shown_chars j hj⟩,
      shown_memberChars members hmembers⟩

end

/-- **No control character is printed.** -/
theorem not_control_of_mem_render {j : Json} (h : j.proper = true) {c : Char}
    (hc : c ∈ j.render.toList) : ¬ c < ' ' := by
  rw [render, String.toList_ofList] at hc
  exact shown_chars j h c hc

end TabBoard.Json
