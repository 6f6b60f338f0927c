import TabBoard.Json.Reader
import Mathlib.Data.List.Basic
import Mathlib.Tactic.SplitIfs

/-!
# The grammar of JSON

`Writes` relates a value to the texts that write it: with blanks wherever JSON allows them, with
every spelling of a string, and with every way to write a number.

**Theorem (`ofText_of_writes`).** The reader reads every text of the grammar, as the value that the
text writes.

The proof is an induction over how the text is written. A value is read to its end whatever follows
it, unless a number goes on (`stops`), and each array or object takes two characters for the two
steps that it needs.
-/

namespace TabBoard.Json

/-! ## Strings -/

/-- A text and how it may stand between the quotes of a string. -/
inductive Spells : List Char → List Char → Prop
  | nil : Spells [] []
  | plain {c : Char} {cs ws : List Char} (hcontrol : ¬ c < ' ') (hquote : c ≠ '"')
      (hbackslash : c ≠ '\\') (h : Spells cs ws) : Spells (c :: cs) (c :: ws)
  | short {c e : Char} {cs ws : List Char} (he : escaped? e = some c) (h : Spells cs ws) :
      Spells (c :: cs) ('\\' :: e :: ws)
  | code {a b c d : Char} {n : Nat} {cs ws : List Char} (hn : hexQuad? a b c d = some n)
      (hhigh : isHighSurrogate n = false) (hlow : isLowSurrogate n = false) (h : Spells cs ws) :
      Spells (Char.ofNat n :: cs) ('\\' :: 'u' :: a :: b :: c :: d :: ws)
  | pair {a b c d a' b' c' d' : Char} {high low : Nat} {cs ws : List Char}
      (hh : hexQuad? a b c d = some high) (hhigh : isHighSurrogate high = true)
      (hl : hexQuad? a' b' c' d' = some low) (hlow : isLowSurrogate low = true)
      (h : Spells cs ws) :
      Spells (ofSurrogates high low :: cs)
        ('\\' :: 'u' :: a :: b :: c :: d :: '\\' :: 'u' :: a' :: b' :: c' :: d' :: ws)

section Strings

variable {c e : Char} {cs ws : List Char} {done : List Char} {rest : Input}

theorem escaped?_ne_u (h : escaped? e = some c) : e ≠ 'u' := by
  rintro rfl
  cases h

theorem stringBody_plain (hcontrol : ¬ c < ' ') (hquote : c ≠ '"') (hbackslash : c ≠ '\\') :
    stringBody none (some done) (some c :: rest) = stringBody none (some (c :: done)) rest := by
  rw [stringBody, if_neg hcontrol]
  · rfl
  · exact hquote
  · intro _ _ _ _ _ _ h
    exact absurd h hbackslash
  · intro _ _ _ h
    exact absurd h hbackslash
  · exact hbackslash

theorem stringBody_short (he : escaped? e = some c) :
    stringBody none (some done) (some '\\' :: some e :: rest) =
      stringBody none (some (c :: done)) rest := by
  rw [stringBody, he]
  · rfl
  · intro _ _ _ _ _ _ h
    exact absurd h (escaped?_ne_u he)

variable {a b c d : Char} {n : Nat}

theorem stringBody_code (hn : hexQuad? a b c d = some n) :
    stringBody none (some done)
        (some '\\' :: some 'u' :: some a :: some b :: some c :: some d :: rest) =
      if isHighSurrogate n then stringBody (some n) (some done) rest
      else stringBody none
        (if isLowSurrogate n then none else some (Char.ofNat n :: done)) rest := by
  rw [stringBody.eq_def]
  simp only [hn]
  rfl

theorem stringBody_second {high : Nat} (hn : hexQuad? a b c d = some n)
    (hlow : isLowSurrogate n = true) :
    stringBody (some high) (some done)
        (some '\\' :: some 'u' :: some a :: some b :: some c :: some d :: rest) =
      stringBody none (some (ofSurrogates high n :: done)) rest := by
  rw [stringBody.eq_def]
  simp only [hn, hlow]
  rfl

/-- A string is read up to its closing quote. -/
theorem stringBody_of_spells (h : Spells cs ws) (done : List Char) (rest : Input) :
    stringBody none (some done) (ws.map some ++ some '"' :: rest) =
      some (some (String.ofList (done.reverse ++ cs)), rest) := by
  induction h generalizing done with
  | nil => simp [stringBody]
  | plain hcontrol hquote hbackslash h ih =>
    rw [List.map_cons, List.cons_append, stringBody_plain hcontrol hquote hbackslash, ih]
    simp
  | short he h ih =>
    rw [List.map_cons, List.map_cons, List.cons_append, List.cons_append, stringBody_short he, ih]
    simp
  | code hn hhigh hlow h ih =>
    simp only [List.map_cons, List.cons_append]
    rw [stringBody_code hn, hhigh, hlow]
    simp [ih]
  | pair hh hhigh hl hlow h ih =>
    simp only [List.map_cons, List.cons_append]
    rw [stringBody_code hh, hhigh, if_pos rfl, stringBody_second hl hlow]
    simp [ih]

theorem string?_of_spells {s : String} (h : Spells s.toList ws) (rest : Input) :
    string? (ws.map some ++ some '"' :: rest) = some (some s, rest) := by
  rw [string?, stringBody_of_spells h]
  simp

end Strings

/-! ## Numbers -/

/-- At least one digit, and nothing but digits. -/
def Digits (ds : List Char) : Prop := ds ≠ [] ∧ ∀ c ∈ ds, c.isDigit = true

/-- The digits behind the point, and how they are written. -/
inductive WritesFraction : List Char → List Char → Prop
  | none : WritesFraction [] []
  | some {ds : List Char} (h : Digits ds) : WritesFraction ds ('.' :: ds)

/-- The power of ten, and how it is written. -/
inductive WritesPower : Option Int → List Char → Prop
  | none : WritesPower .none []
  | plain {e : Char} {ds : List Char} (he : e = 'e' ∨ e = 'E') (h : Digits ds) :
      WritesPower (some (natOfDigits ds)) (e :: ds)
  | plus {e : Char} {ds : List Char} (he : e = 'e' ∨ e = 'E') (h : Digits ds) :
      WritesPower (some (natOfDigits ds)) (e :: '+' :: ds)
  | minus {e : Char} {ds : List Char} (he : e = 'e' ∨ e = 'E') (h : Digits ds) :
      WritesPower (some (-natOfDigits ds)) (e :: '-' :: ds)

/-- A number and how it is written. No digit follows a leading zero. -/
inductive WritesNumber : Number → List Char → Prop
  | mk {negative : Bool} {ds fraction fs ps : List Char} {power : Option Int} (hd : Digits ds)
      (hzero : ds.head? = some '0' → ds = ['0']) (hf : WritesFraction fraction fs)
      (hp : WritesPower power ps) :
      WritesNumber ⟨negative, natOfDigits ds, fraction, power⟩
        ((if negative then ['-'] else []) ++ (ds ++ (fs ++ ps)))

def stops (p : Char → Bool) : Input → Bool
  | some c :: _ => !p c
  | _ => true

/-- A character that a number may go on with. -/
def isNumberPart (c : Char) : Bool := c.isDigit || c == '.' || c == 'e' || c == 'E'

section Numbers

variable {ds fraction fs ps cs : List Char} {power : Option Int} {n : Number} {rest : Input}
  {p q : Char → Bool}

theorem stops_of_imp (hpq : ∀ c, p c = true → q c = true) (h : stops q rest = true) :
    stops p rest = true := by
  unfold stops at h ⊢
  split
  · next c _ =>
    simp only [Bool.not_eq_true', Bool.eq_false_iff] at h ⊢
    exact fun hc => h (hpq c hc)
  · rfl

theorem stops_isDigit (h : stops isNumberPart rest = true) : stops Char.isDigit rest = true :=
  stops_of_imp (fun c hc => by simp [isNumberPart, hc]) h

theorem digitsFrom_of_digits (h : ∀ c ∈ ds, c.isDigit = true)
    (hrest : stops Char.isDigit rest = true) (done : List Char) :
    digitsFrom done (ds.map some ++ rest) = (done.reverse ++ ds, rest) := by
  induction ds generalizing done with
  | nil =>
    rw [List.map_nil, List.nil_append, List.append_nil]
    unfold digitsFrom
    split
    · next c rest =>
      have hc : c.isDigit = false := by simpa [stops] using hrest
      rw [hc]
      rfl
    · rfl
  | cons c ds ih =>
    obtain ⟨hc, hds⟩ := List.forall_mem_cons.1 h
    rw [List.map_cons, List.cons_append, digitsFrom, if_pos hc, ih hds, List.reverse_cons,
      List.append_assoc]
    rfl

theorem fraction?_of_writes (h : WritesFraction fraction fs)
    (hrest : stops (fun c => c.isDigit || c == '.') rest = true) :
    fraction? (fs.map some ++ rest) = some (fraction, rest) := by
  cases h with
  | none =>
    rw [List.map_nil, List.nil_append]
    unfold fraction?
    split
    · cases hrest
    · rfl
  | some hd =>
    have hdigit : stops Char.isDigit rest = true :=
      stops_of_imp (fun c hc => by simp [hc]) hrest
    rw [List.map_cons, List.cons_append, fraction?, digitsFrom_of_digits hd.2 hdigit]
    obtain ⟨d, ds, rfl⟩ := List.exists_cons_of_ne_nil hd.1
    rfl

/-- The digits of a power of ten, behind its sign. -/
theorem digits_of_power (h : Digits ds) (hrest : stops isNumberPart rest = true)
    (negative : Bool) :
    (match digitsFrom [] (ds.map some ++ rest) with
      | ([], _) => none
      | (digits, rest) =>
        let n : Int := natOfDigits digits
        some (some (if negative then -n else n), rest) : Option (Option Int × Input)) =
      some (some (if negative then -(natOfDigits ds : Int) else natOfDigits ds), rest) := by
  rw [digitsFrom_of_digits h.2 (stops_isDigit hrest)]
  obtain ⟨d, ds, rfl⟩ := List.exists_cons_of_ne_nil h.1
  rfl

theorem exponent?_of_writes (h : WritesPower power ps) (hrest : stops isNumberPart rest = true) :
    exponent? (ps.map some ++ rest) = some (power, rest) := by
  cases h with
  | none =>
    rw [List.map_nil, List.nil_append]
    unfold exponent?
    split
    · cases hrest
    · cases hrest
    · rfl
  | @plain e ds he hd =>
    have hdigits := digits_of_power hd hrest false
    have hexponent : exponentDigits? (ds.map some ++ rest) =
        some (some ↑(natOfDigits ds), rest) := by
      -- no sign comes first, because a digit does
      obtain ⟨d, ds, rfl⟩ := List.exists_cons_of_ne_nil hd.1
      have hd : d.isDigit = true := hd.2 d List.mem_cons_self
      rw [exponentDigits?]
      · exact hdigits
      · intro _ h
        obtain rfl : d = '+' := Option.some.inj (List.cons.inj h).1
        cases hd
      · intro _ h
        obtain rfl : d = '-' := Option.some.inj (List.cons.inj h).1
        cases hd
    obtain rfl | rfl := he <;> exact hexponent
  | plus he hd =>
    have hdigits := digits_of_power hd hrest false
    obtain rfl | rfl := he <;> exact hdigits
  | minus he hd =>
    have hdigits := digits_of_power hd hrest true
    obtain rfl | rfl := he <;> exact hdigits

theorem stops_power (h : WritesPower power ps) (hrest : stops isNumberPart rest = true) :
    stops (fun c => c.isDigit || c == '.') (ps.map some ++ rest) = true := by
  cases h with
  | none => exact stops_of_imp (fun c hc => by simp_all [isNumberPart]) hrest
  | plain he _ => obtain rfl | rfl := he <;> rfl
  | plus he _ => obtain rfl | rfl := he <;> rfl
  | minus he _ => obtain rfl | rfl := he <;> rfl

theorem stops_fraction (h : WritesFraction fraction fs)
    (hrest : stops (fun c => c.isDigit || c == '.') rest = true) :
    stops Char.isDigit (fs.map some ++ rest) = true := by
  cases h with
  | none => exact stops_of_imp (fun c hc => by simp [hc]) hrest
  | some _ => rfl

/-- A number is read to its end behind its sign. -/
theorem number?_of_writes {negative : Bool} (hd : Digits ds)
    (hzero : ds.head? = some '0' → ds = ['0']) (hf : WritesFraction fraction fs)
    (hp : WritesPower power ps) (hrest : stops isNumberPart rest = true) :
    number? negative ((ds ++ (fs ++ ps)).map some ++ rest) =
      some (⟨negative, natOfDigits ds, fraction, power⟩, rest) := by
  have hpower := stops_power hp hrest
  rw [List.map_append, List.map_append, List.append_assoc, List.append_assoc, number?,
    digitsFrom_of_digits hd.2 (stops_fraction hf hpower), List.reverse_nil, List.nil_append]
  split
  · next h => exact absurd (Prod.mk.inj h).1 hd.1
  · next h =>
    obtain ⟨h, -⟩ := Prod.mk.inj h
    have := hzero (by rw [h]; rfl)
    rw [h] at this
    cases this
  · next h =>
    obtain ⟨rfl, rfl⟩ := Prod.mk.inj h
    rw [fraction?_of_writes hf hpower]
    simp only [exponent?_of_writes hp hrest]

end Numbers

/-! ## Values -/

def isSpace (c : Char) : Bool := c == ' ' || c == '\t' || c == '\n' || c == '\r'

def Blanks (cs : List Char) : Prop := ∀ c ∈ cs, isSpace c = true

/-- What a text can be: a value by itself or between blanks, the items between the brackets of an
array, or a member or the members between the braces of an object. -/
inductive Part where
  | value (j : Json)
  | element (j : Json)
  | items (js : List Json)
  | member (name : String) (j : Json)
  | members (ms : List (Option String × Json))

/-- The texts that write a part. -/
inductive Writes : Part → List Char → Prop
  | null : Writes (.value .null) ['n', 'u', 'l', 'l']
  | true : Writes (.value (.bool true)) ['t', 'r', 'u', 'e']
  | false : Writes (.value (.bool false)) ['f', 'a', 'l', 's', 'e']
  | number {n : Number} {cs : List Char} (h : WritesNumber n cs) : Writes (.value (.number n)) cs
  | string {s : String} {ws : List Char} (h : Spells s.toList ws) :
      Writes (.value (.text s)) ('"' :: (ws ++ ['"']))
  | emptyArray {b : List Char} (hb : Blanks b) : Writes (.value (.array [])) ('[' :: (b ++ [']']))
  | array {js : List Json} {cs : List Char} (h : Writes (.items js) cs) :
      Writes (.value (.array js)) ('[' :: (cs ++ [']']))
  | emptyObject {b : List Char} (hb : Blanks b) :
      Writes (.value (.object [])) ('\x7b' :: (b ++ ['\x7d']))
  | object {ms : List (Option String × Json)} {cs : List Char} (h : Writes (.members ms) cs) :
      Writes (.value (.object ms)) ('\x7b' :: (cs ++ ['\x7d']))
  | element {j : Json} {b cs b' : List Char} (hb : Blanks b) (hb' : Blanks b')
      (h : Writes (.value j) cs) : Writes (.element j) (b ++ (cs ++ b'))
  | item {j : Json} {cs : List Char} (h : Writes (.element j) cs) : Writes (.items [j]) cs
  | items {j : Json} {js : List Json} {cs ds : List Char} (h : Writes (.element j) cs)
      (hmore : Writes (.items js) ds) : Writes (.items (j :: js)) (cs ++ ',' :: ds)
  | member {name : String} {j : Json} {b ws b' cs : List Char} (hb : Blanks b) (hb' : Blanks b')
      (hname : Spells name.toList ws) (h : Writes (.element j) cs) :
      Writes (.member name j) (b ++ '"' :: (ws ++ '"' :: (b' ++ ':' :: cs)))
  | lastMember {name : String} {j : Json} {cs : List Char} (h : Writes (.member name j) cs) :
      Writes (.members [(some name, j)]) cs
  | members {name : String} {j : Json} {ms : List (Option String × Json)} {cs ds : List Char}
      (h : Writes (.member name j) cs) (hmore : Writes (.members ms) ds) :
      Writes (.members ((some name, j) :: ms)) (cs ++ ',' :: ds)

section Values

variable {j : Json} {js : List Json} {name : String} {ms : List (Option String × Json)}
  {b b' cs ds : List Char} {rest : Input} {c : Char}

theorem skipBlank_blanks (h : Blanks b) (rest : Input) :
    skipBlank (b.map some ++ rest) = skipBlank rest := by
  induction b with
  | nil => rfl
  | cons c b ih =>
    obtain ⟨hc, hb⟩ := List.forall_mem_cons.1 h
    simp only [isSpace, Bool.or_eq_true, beq_iff_eq] at hc
    obtain ((rfl | rfl) | rfl) | rfl := hc <;> exact ih hb

theorem skipBlank_of_not_space (h : isSpace c = false) (rest : Input) :
    skipBlank (some c :: rest) = some c :: rest := by
  rw [skipBlank.eq_def]
  split <;> simp_all [isSpace]

theorem skipBlank_skipBlank (input : Input) : skipBlank (skipBlank input) = skipBlank input := by
  fun_induction skipBlank input with
  | case1 rest ih => exact ih
  | case2 rest ih => exact ih
  | case3 rest ih => exact ih
  | case4 rest ih => exact ih
  | case5 input h1 h2 h3 h4 => rw [skipBlank.eq_5 input h1 h2 h3 h4]

/-- Blanks in front do not count. -/
theorem value_of_skipBlank {input input' : Input} (h : skipBlank input = skipBlank input')
    (steps : Nat) : value steps input = value steps input' := by
  cases steps with
  | zero => simp only [value]
  | succ steps => rw [value.eq_def, value.eq_def (steps + 1) input', h]

theorem items_of_skipBlank {input input' : Input} (h : skipBlank input = skipBlank input')
    (steps : Nat) : items steps input = items steps input' := by
  cases steps with
  | zero => simp only [items]
  | succ steps =>
    rw [items.eq_def, items.eq_def (steps + 1) input']
    simp only [value_of_skipBlank h]

theorem members_of_skipBlank {input input' : Input} (h : skipBlank input = skipBlank input')
    (steps : Nat) : members steps input = members steps input' := by
  cases steps with
  | zero => simp only [members]
  | succ steps =>
    rw [members.eq_def, members.eq_def (steps + 1) input']
    simp only [h]

theorem word?_append (cs : List Char) (rest : Input) :
    word? cs (cs.map some ++ rest) = some rest := by
  induction cs with
  | nil => rfl
  | cons c cs ih => rw [List.map_cons, List.cons_append, word?, if_pos rfl, ih]

theorem value_string (steps : Nat) (input : Input) :
    value (steps + 1) (some '"' :: input) =
      match string? input with
      | some (text, rest) => (.string text, some rest)
      | none => (.broken, none) := rfl

theorem value_array (steps : Nat) (input : Input) :
    value (steps + 1) (some '[' :: input) =
      match skipBlank input with
      | some ']' :: rest => (.array [], some rest)
      | rest => let (vs, rest) := items steps rest; (.array vs, rest) := rfl

theorem value_object (steps : Nat) (input : Input) :
    value (steps + 1) (some '\x7b' :: input) =
      match skipBlank input with
      | some '\x7d' :: rest => (.object [], some rest)
      | rest => let (ms, rest) := members steps rest; (.object ms, rest) := rfl

theorem isSpace_of_isDigit (hc : c.isDigit = true) : isSpace c = false := by
  rw [Bool.eq_false_iff]
  intro hblank
  simp only [isSpace, Bool.or_eq_true, beq_iff_eq] at hblank
  obtain ((rfl | rfl) | rfl) | rfl := hblank <;> cases hc

theorem value_digit (hc : c.isDigit = true) (steps : Nat) (input : Input) :
    value (steps + 1) (some c :: input) = numberLeaf (number? false (some c :: input)) := by
  rw [value.eq_def]
  simp only [skipBlank_of_not_space (isSpace_of_isDigit hc)]
  split <;> simp_all

/-! ## Reading what is written -/

theorem stops_blanks (hb : Blanks b) (h : stops isNumberPart rest = true) :
    stops isNumberPart (b.map some ++ rest) = true := by
  cases b with
  | nil => exact h
  | cons c b =>
    have hc := hb c List.mem_cons_self
    simp only [isSpace, Bool.or_eq_true, beq_iff_eq] at hc
    obtain ((rfl | rfl) | rfl) | rfl := hc <;> rfl

/-- A value starts with no blank, and with no bracket that closes. -/
theorem starts_value (h : Writes (.value j) cs) :
    ∃ c cs', cs = c :: cs' ∧ isSpace c = false ∧ c ≠ ']' := by
  cases h with
  | number h =>
    obtain @⟨negative, ds, fraction, fs, ps, power, hd, -, -, -⟩ := h
    cases negative with
    | true => exact ⟨'-', ds ++ (fs ++ ps), rfl, by decide, by decide⟩
    | false =>
      obtain ⟨d, ds, rfl⟩ := List.exists_cons_of_ne_nil hd.1
      have hdigit := hd.2 d List.mem_cons_self
      refine ⟨d, ds ++ (fs ++ ps), rfl, isSpace_of_isDigit hdigit, ?_⟩
      rintro rfl
      cases hdigit
  | _ => exact ⟨_, _, rfl, by decide, by decide⟩

theorem starts_element (h : Writes (.element j) cs) (rest : Input) :
    ∃ c input, skipBlank (cs.map some ++ rest) = some c :: input ∧ c ≠ ']' := by
  cases h with
  | element hb _ h =>
    obtain ⟨c, cs, rfl, hspace, hc⟩ := starts_value h
    rw [List.map_append, List.append_assoc, skipBlank_blanks hb]
    exact ⟨c, _, skipBlank_of_not_space hspace _, hc⟩

theorem starts_items (h : Writes (.items js) cs) (rest : Input) :
    ∃ c input, skipBlank (cs.map some ++ rest) = some c :: input ∧ c ≠ ']' := by
  cases h with
  | item h => exact starts_element h rest
  | items h hmore =>
    rw [List.map_append, List.append_assoc]
    exact starts_element h _

theorem starts_member (h : Writes (.member name j) cs) (rest : Input) :
    ∃ input, skipBlank (cs.map some ++ rest) = some '"' :: input := by
  cases h with
  | member hb _ _ _ =>
    rw [List.map_append, List.append_assoc, skipBlank_blanks hb]
    exact ⟨_, rfl⟩

theorem starts_members (h : Writes (.members ms) cs) (rest : Input) :
    ∃ input, skipBlank (cs.map some ++ rest) = some '"' :: input := by
  cases h with
  | lastMember h => exact starts_member h rest
  | members h hmore =>
    rw [List.map_append, List.append_assoc]
    exact starts_member h _

/-- A part is read as what it is, whatever follows. -/
def ReadAs : Part → List Char → Prop
  | .value j, cs => ∀ steps rest, 2 * cs.length ≤ steps → stops isNumberPart rest = true →
      value steps (cs.map some ++ rest) = (j, some rest)
  | .element j, cs => ∀ steps rest, 2 * cs.length ≤ steps → stops isNumberPart rest = true →
      ∃ rest', value steps (cs.map some ++ rest) = (j, some rest') ∧
        skipBlank rest' = skipBlank rest
  | .items js, cs => ∀ steps rest, 2 * cs.length < steps →
      items steps (cs.map some ++ some ']' :: rest) = (js, some rest)
  | .member name j, cs => ∀ steps rest, 2 * cs.length ≤ steps → stops isNumberPart rest = true →
      ∃ text colon inside rest', skipBlank (cs.map some ++ rest) = some '"' :: text ∧
        string? text = some (some name, colon) ∧ skipBlank colon = some ':' :: inside ∧
        value steps inside = (j, some rest') ∧ skipBlank rest' = skipBlank rest
  | .members ms, cs => ∀ steps rest, 2 * cs.length < steps →
      members steps (cs.map some ++ some '\x7d' :: rest) = (ms, some rest)

/-- A value takes a character, and so there is a step for it. -/
theorem readAs_value {cs' : List Char}
    (h : ∀ steps rest, 2 * cs'.length ≤ steps → stops isNumberPart rest = true →
      value (steps + 1) (some c :: (cs'.map some ++ rest)) = (j, some rest)) :
    ReadAs (.value j) (c :: cs') := by
  intro steps rest hsteps hrest
  rw [List.length_cons] at hsteps
  obtain ⟨steps, rfl⟩ : ∃ n, steps = n + 1 := ⟨steps - 1, by omega⟩
  exact h steps rest (by omega) hrest

theorem readAs_number {n : Number} (h : WritesNumber n cs) : ReadAs (.value (.number n)) cs := by
  obtain @⟨negative, ds, fraction, fs, ps, power, hd, hzero, hf, hp⟩ := h
  cases negative with
  | true =>
    refine readAs_value fun steps rest _ hrest => ?_
    exact congrArg numberLeaf (number?_of_writes hd hzero hf hp hrest)
  | false =>
    obtain ⟨d, ds, rfl⟩ := List.exists_cons_of_ne_nil hd.1
    refine readAs_value fun steps rest _ hrest => ?_
    rw [value_digit (hd.2 d List.mem_cons_self)]
    exact congrArg numberLeaf (number?_of_writes hd hzero hf hp hrest)

theorem readAs_string {s : String} {ws : List Char} (h : Spells s.toList ws) :
    ReadAs (.value (.text s)) ('"' :: (ws ++ ['"'])) := by
  refine readAs_value fun steps rest _ _ => ?_
  rw [List.map_append, List.append_assoc, value_string]
  simp only [List.map_cons, List.map_nil, List.singleton_append, string?_of_spells h]

theorem readAs_emptyArray (hb : Blanks b) :
    ReadAs (.value (.array [])) ('[' :: (b ++ [']'])) := by
  refine readAs_value fun steps rest _ _ => ?_
  rw [List.map_append, List.append_assoc, value_array, skipBlank_blanks hb]
  rfl

theorem readAs_array (h : Writes (.items js) cs) (hread : ReadAs (.items js) cs) :
    ReadAs (.value (.array js)) ('[' :: (cs ++ [']'])) := by
  refine readAs_value fun steps rest hsteps _ => ?_
  obtain ⟨c, input, hskip, hc⟩ := starts_items h (some ']' :: rest)
  have hitems := hread steps rest (by simp at hsteps; omega)
  rw [items_of_skipBlank (skipBlank_skipBlank _).symm, hskip] at hitems
  rw [List.map_append, List.append_assoc, value_array]
  simp only [List.map_cons, List.map_nil, List.singleton_append, hskip]
  split
  · next heq =>
    cases heq
    exact absurd rfl hc
  · rw [hitems]

theorem readAs_emptyObject (hb : Blanks b) :
    ReadAs (.value (.object [])) ('\x7b' :: (b ++ ['\x7d'])) := by
  refine readAs_value fun steps rest _ _ => ?_
  rw [List.map_append, List.append_assoc, value_object, skipBlank_blanks hb]
  rfl

theorem readAs_object (h : Writes (.members ms) cs) (hread : ReadAs (.members ms) cs) :
    ReadAs (.value (.object ms)) ('\x7b' :: (cs ++ ['\x7d'])) := by
  refine readAs_value fun steps rest hsteps _ => ?_
  obtain ⟨input, hskip⟩ := starts_members h (some '\x7d' :: rest)
  have hmembers := hread steps rest (by simp at hsteps; omega)
  rw [members_of_skipBlank (skipBlank_skipBlank _).symm, hskip] at hmembers
  rw [List.map_append, List.append_assoc, value_object]
  simp only [List.map_cons, List.map_nil, List.singleton_append, hskip]
  split
  · next heq => cases heq
  · rw [hmembers]

theorem readAs_element (hb : Blanks b) (hb' : Blanks b') (hread : ReadAs (.value j) cs) :
    ReadAs (.element j) (b ++ (cs ++ b')) := by
  intro steps rest hsteps hrest
  simp only [List.length_append] at hsteps
  refine ⟨b'.map some ++ rest, ?_, skipBlank_blanks hb' rest⟩
  rw [List.map_append, List.map_append, List.append_assoc, List.append_assoc,
    value_of_skipBlank (skipBlank_blanks hb _)]
  exact hread steps _ (by omega) (stops_blanks hb' hrest)

/-- The last item stops at the bracket that closes. -/
theorem readAs_item (hread : ReadAs (.element j) cs) : ReadAs (.items [j]) cs := by
  intro steps rest hsteps
  obtain ⟨steps, rfl⟩ : ∃ n, steps = n + 1 := ⟨steps - 1, by omega⟩
  obtain ⟨rest', hvalue, hskip⟩ := hread steps (some ']' :: rest) (by omega) rfl
  have hclose : skipBlank rest' = some ']' :: rest := hskip
  simp only [items, hvalue, hclose]

theorem readAs_items (hread : ReadAs (.element j) cs) (hmore : ReadAs (.items js) ds) :
    ReadAs (.items (j :: js)) (cs ++ ',' :: ds) := by
  intro steps rest hsteps
  rw [List.length_append, List.length_cons] at hsteps
  obtain ⟨steps, rfl⟩ : ∃ n, steps = n + 1 := ⟨steps - 1, by omega⟩
  have hitems := hmore steps rest (by omega)
  obtain ⟨rest', hvalue, hskip⟩ :=
    hread steps (some ',' :: (ds.map some ++ some ']' :: rest)) (by omega) rfl
  have hcomma : skipBlank rest' = some ',' :: (ds.map some ++ some ']' :: rest) := hskip
  rw [List.map_append, List.append_assoc]
  simp only [List.map_cons, List.cons_append, items, hvalue, hcomma, hitems]

theorem readAs_member {ws : List Char} (hb : Blanks b) (hb' : Blanks b')
    (hname : Spells name.toList ws) (hread : ReadAs (.element j) cs) :
    ReadAs (.member name j) (b ++ '"' :: (ws ++ '"' :: (b' ++ ':' :: cs))) := by
  intro steps rest hsteps hrest
  simp only [List.length_append, List.length_cons] at hsteps
  obtain ⟨rest', hvalue, hskip⟩ := hread steps rest (by omega) hrest
  have hcolon : skipBlank (b'.map some ++ some ':' :: (cs.map some ++ rest)) = _ :=
    skipBlank_blanks hb' _
  refine ⟨_, _, _, rest', ?_, string?_of_spells hname _, hcolon, hvalue, hskip⟩
  rw [List.map_append, List.append_assoc, skipBlank_blanks hb]
  simp only [List.map_cons, List.map_append, List.cons_append, List.append_assoc]
  rfl

/-- The last member stops at the brace that closes. -/
theorem readAs_lastMember (hread : ReadAs (.member name j) cs) :
    ReadAs (.members [(some name, j)]) cs := by
  intro steps rest hsteps
  obtain ⟨steps, rfl⟩ : ∃ n, steps = n + 1 := ⟨steps - 1, by omega⟩
  obtain ⟨text, colon, inside, rest', hquote, hname, hcolon, hvalue, hskip⟩ :=
    hread steps (some '\x7d' :: rest) (by omega) rfl
  have hclose : skipBlank rest' = some '\x7d' :: rest := hskip
  simp only [members, hquote, hname, hcolon, hvalue, hclose]

theorem readAs_members (hread : ReadAs (.member name j) cs) (hmore : ReadAs (.members ms) ds) :
    ReadAs (.members ((some name, j) :: ms)) (cs ++ ',' :: ds) := by
  intro steps rest hsteps
  rw [List.length_append, List.length_cons] at hsteps
  obtain ⟨steps, rfl⟩ : ∃ n, steps = n + 1 := ⟨steps - 1, by omega⟩
  have hmembers := hmore steps rest (by omega)
  obtain ⟨text, colon, inside, rest', hquote, hname, hcolon, hvalue, hskip⟩ :=
    hread steps (some ',' :: (ds.map some ++ some '\x7d' :: rest)) (by omega) rfl
  have hcomma : skipBlank rest' = some ',' :: (ds.map some ++ some '\x7d' :: rest) := hskip
  rw [List.map_append, List.append_assoc]
  simp only [List.map_cons, List.cons_append, members, hquote, hname, hcolon, hvalue, hcomma,
    hmembers]

/-- **What is written is read.** -/
theorem readAs_of_writes {p : Part} (h : Writes p cs) : ReadAs p cs := by
  induction h with
  | null =>
    exact readAs_value fun _ rest _ _ => congrArg (leaf .null) (word?_append ['u', 'l', 'l'] rest)
  | true =>
    exact readAs_value fun _ rest _ _ =>
      congrArg (leaf (.bool .true)) (word?_append ['r', 'u', 'e'] rest)
  | false =>
    exact readAs_value fun _ rest _ _ =>
      congrArg (leaf (.bool .false)) (word?_append ['a', 'l', 's', 'e'] rest)
  | number h => exact readAs_number h
  | string h => exact readAs_string h
  | emptyArray hb => exact readAs_emptyArray hb
  | array h ih => exact readAs_array h ih
  | emptyObject hb => exact readAs_emptyObject hb
  | object h ih => exact readAs_object h ih
  | element hb hb' _ ih => exact readAs_element hb hb' ih
  | item _ ih => exact readAs_item ih
  | items _ _ ih ihmore => exact readAs_items ih ihmore
  | member hb hb' hname _ ih => exact readAs_member hb hb' hname ih
  | lastMember _ ih => exact readAs_lastMember ih
  | members _ _ ih ihmore => exact readAs_members ih ihmore

/-- **The reader reads every text of the grammar**, as the value that the text writes. -/
theorem ofText_of_writes {text : String} (h : Writes (.element j) text.toList) :
    Document.ofText text = ⟨j, false⟩ := by
  obtain ⟨rest', hvalue, hskip⟩ :=
    readAs_of_writes h (2 * (text.toList.map some).length + 2) [] (by simp) rfl
  rw [List.append_nil] at hvalue
  rw [Document.ofText, Document.ofSymbols, hvalue]
  simp only [hskip]
  rfl

end Values

end TabBoard.Json
