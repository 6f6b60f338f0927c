import TabBoard.Form
import TabBoard.Proofs.Utf8

/-!
# What is encoded for a URL is read back

Percent decoding undoes percent encoding if the percent sign is among what is encoded
(`decode_encode`). The other characters of the set do not occur in an encoded text
(`not_mem_encode`), so that a mark between encoded texts is no part of them.

For the pairs of a query this means that they are read back as they were written, and that pairs
which are written behind a query follow those already in it (`pairs_append`, `pairs_encode`).
-/

namespace TabBoard

namespace Text.Percent

open Utf8 (Octets)

/-! ## One octet -/

theorem utf8EncodeChar_upperDigit {n : Nat} (h : n < 16) :
    ∃ b, String.utf8EncodeChar (upperDigit n) = [b] ∧ hexValue? b = some (.ofNat n) := by
  have hall : ∀ n : Fin 16, (upperDigit n).toNat < 0x80 ∧
      hexValue? (.ofNat (upperDigit n).toNat) = some (.ofNat n) := by decide
  obtain ⟨hlt, hvalue⟩ := hall ⟨n, h⟩
  exact ⟨_, Utf8.encodeChar_of_lt hlt, hvalue⟩

/-- An octet that is no percent sign stands for itself. -/
theorem decode_cons {b : UInt8} (h : b ≠ 0x25) (rest : Octets) :
    decode (b :: rest) = b :: decode rest := by
  rw [decode.eq_def]
  split
  · next heq => exact absurd (List.cons.inj heq).1 h
  · next heq => cases heq; rfl
  · next heq => exact absurd heq (List.cons_ne_nil _ _)

theorem decode_encodeOctet (b : UInt8) (rest : Octets) :
    decode ((encodeOctet b).flatMap String.utf8EncodeChar ++ rest) = b :: decode rest := by
  have hb := b.toNat_lt
  obtain ⟨x, hx, hxv⟩ := utf8EncodeChar_upperDigit (n := b.toNat / 16) (by omega)
  obtain ⟨y, hy, hyv⟩ := utf8EncodeChar_upperDigit (n := b.toNat % 16) (by omega)
  have hpercent : String.utf8EncodeChar '%' = [0x25] := by decide
  have hsum : UInt8.ofNat (b.toNat / 16) * 16 + UInt8.ofNat (b.toNat % 16) = b := by
    rw [← UInt8.toNat_inj]
    simp only [UInt8.toNat_add, UInt8.toNat_mul, UInt8.toNat_ofNat', UInt8.reduceToNat]
    omega
  simp only [encodeOctet, List.flatMap_cons, List.flatMap_nil, hx, hy, hpercent,
    List.cons_append, List.nil_append, List.append_nil]
  simp only [decode, hxv, hyv, hsum]

theorem decode_encodeOctets (bs rest : Octets) :
    decode ((bs.flatMap encodeOctet).flatMap String.utf8EncodeChar ++ rest) =
      bs ++ decode rest := by
  induction bs with
  | nil => rfl
  | cons b bs ih =>
    rw [List.flatMap_cons, List.flatMap_append, List.append_assoc, decode_encodeOctet, ih,
      List.cons_append]

theorem mem_encodeOctet {b : UInt8} {d : Char} (h : d ∈ encodeOctet b) :
    d ∈ "%0123456789ABCDEF".toList := by
  have hall : ∀ n : Fin 16, upperDigit n ∈ "%0123456789ABCDEF".toList := by decide
  have hb := b.toNat_lt
  simp only [encodeOctet, List.mem_cons, List.not_mem_nil, or_false] at h
  obtain rfl | rfl | rfl := h
  · decide
  · exact hall ⟨b.toNat / 16, by omega⟩
  · exact hall ⟨b.toNat % 16, by omega⟩

/-! ## Texts -/

theorem encodeChar_cases (inSet : Char → Bool) (c : Char) :
    (encodeChar inSet c = [c] ∧ c.toNat < 0x80 ∧ inSet c = false) ∨
      encodeChar inSet c = (String.utf8EncodeChar c).flatMap encodeOctet := by
  unfold encodeChar
  split_ifs with h
  · simp only [Bool.and_eq_true, decide_eq_true_eq, Bool.not_eq_true'] at h
    exact .inl ⟨rfl, h⟩
  · exact .inr (by rw [Utf8.encode_singleton])

variable {inSet : Char → Bool}

theorem decode_encodeChar (h : inSet '%' = true) (c : Char) (rest : Octets) :
    decode ((encodeChar inSet c).flatMap String.utf8EncodeChar ++ rest) =
      String.utf8EncodeChar c ++ decode rest := by
  obtain ⟨hc, hlt, hset⟩ | hc := encodeChar_cases inSet c
  · have hne : c ≠ '%' := by
      intro heq
      rw [heq, h] at hset
      exact absurd hset (by simp)
    have hoctet : UInt8.ofNat c.toNat ≠ 0x25 := by
      intro heq
      apply hne
      rw [← Char.toNat_inj, ← Nat.mod_eq_of_lt (show c.toNat < 2 ^ 8 by omega),
        ← UInt8.toNat_ofNat', heq]
      rfl
    rw [hc, List.flatMap_singleton, Utf8.encodeChar_of_lt hlt, List.singleton_append,
      decode_cons hoctet, List.singleton_append]
  · rw [hc, decode_encodeOctets]

theorem decode_encode (h : inSet '%' = true) (cs : List Char) :
    decode (Utf8.encode (String.ofList (encode inSet cs))) = Utf8.encode (String.ofList cs) := by
  rw [Utf8.encode_ofList, Utf8.encode_ofList, encode]
  induction cs with
  | nil => rfl
  | cons c cs ih =>
    rw [List.flatMap_cons, List.flatMap_append, decode_encodeChar h, ih, List.flatMap_cons]

/-- A character of the set does not occur in what is encoded, unless encoding itself writes it. -/
theorem not_mem_encode {d : Char} (hset : inSet d = true)
    (hmark : d ∉ "%0123456789ABCDEF".toList) (cs : List Char) : d ∉ encode inSet cs := by
  intro h
  obtain ⟨c, -, hd⟩ := List.mem_flatMap.mp h
  obtain ⟨hc, -, hno⟩ | hc := encodeChar_cases inSet c <;> rw [hc] at hd
  · rw [List.mem_singleton.mp hd, hno] at hset
    exact absurd hset (by simp)
  · obtain ⟨b, -, hb⟩ := List.mem_flatMap.mp hd
    exact hmark (mem_encodeOctet hb)

theorem encode_eq_self {cs : List Char} (h : ∀ c ∈ cs, c.toNat < 0x80 ∧ inSet c = false) :
    encode inSet cs = cs := by
  induction cs with
  | nil => rfl
  | cons c cs ih =>
    obtain ⟨⟨hlt, hset⟩, hcs⟩ := List.forall_mem_cons.mp h
    have hc : encodeChar inSet c = [c] := by
      rw [encodeChar, if_pos (by simp [hlt, hset])]
    rw [encode, List.flatMap_cons, hc, List.singleton_append]
    exact congrArg _ (ih hcs)

end Text.Percent

/-! ## Pieces between marks -/

namespace Text

variable {sep : Char}

theorem splitAll_append_sep (xs ys : List Char) :
    splitAll sep (xs ++ sep :: ys) = splitAll sep xs ++ splitAll sep ys := by
  induction xs with
  | nil => simp [splitAll]
  | cons x xs ih =>
    rw [List.cons_append, splitAll, splitAll, ih]
    split_ifs
    · rfl
    · cases hs : splitAll sep xs with
      | nil => exact absurd hs (splitAll_ne_nil sep xs)
      | cons piece pieces => rfl

theorem splitAll_intercalate {pieces : List (List Char)} (hne : pieces ≠ [])
    (h : ∀ piece ∈ pieces, sep ∉ piece) :
    splitAll sep (List.intercalate [sep] pieces) = pieces := by
  induction pieces with
  | nil => exact absurd rfl hne
  | cons piece pieces ih =>
    have hpiece : sep ∉ piece := h piece List.mem_cons_self
    cases pieces with
    | nil => rw [List.intercalate_singleton, splitAll_of_not_mem hpiece]
    | cons next pieces =>
      have hrest := ih (List.cons_ne_nil _ _) fun p hp => h p (List.mem_cons_of_mem _ hp)
      rw [List.intercalate_cons_cons, List.append_assoc, List.singleton_append,
        splitAll_append hpiece, hrest]

/-- Between pieces there is what stands in front of every piece but the first. -/
theorem intercalate_eq_flatMap (piece : List Char) (pieces : List (List Char)) :
    List.intercalate [sep] (piece :: pieces) = piece ++ pieces.flatMap (sep :: ·) := by
  induction pieces generalizing piece with
  | nil => rw [List.intercalate_singleton, List.flatMap_nil, List.append_nil]
  | cons next pieces ih =>
    rw [List.intercalate_cons_cons, ih, List.flatMap_cons, List.append_assoc,
      List.singleton_append, List.cons_append]

theorem splitOnce_append {xs : List Char} (h : sep ∉ xs) (ys : List Char) :
    splitOnce sep (xs ++ sep :: ys) = some (xs, ys) := by
  have hall : ∀ x ∈ xs, (x != sep) = true := by
    intro x hx
    rw [bne_iff_ne]
    rintro rfl
    exact h hx
  rw [splitOnce, List.dropWhile_append_of_pos hall, List.takeWhile_append_of_pos hall]
  simp

end Text

/-! ## Queries -/

namespace Form

open Text

/-- What is encoded in a piece of a query; a space is written as a plus sign instead. -/
def encodes (c : Char) : Bool := !isPlain c && c != ' '

theorem encodePiece_eq (s : String) :
    encodePiece s = (Percent.encode encodes s.toList).map fun c => if c = ' ' then '+' else c := rfl

/-- A mark of the query does not occur in a piece of it. -/
theorem not_mem_encodePiece {d : Char} (hset : encodes d = true)
    (hmark : d ∉ "%0123456789ABCDEF".toList) (hplus : d ≠ '+') (s : String) :
    d ∉ encodePiece s := by
  rw [encodePiece_eq, List.mem_map]
  rintro ⟨c, hc, rfl⟩
  split_ifs at hset hmark hplus
  · exact hplus rfl
  · exact Percent.not_mem_encode hset hmark _ hc

theorem decodePiece_encodePiece (s : String) : decodePiece (encodePiece s) = s := by
  have hspaced : (encodePiece s).map (fun c => if c = '+' then ' ' else c) =
      Percent.encode encodes s.toList := by
    rw [encodePiece_eq, List.map_map]
    refine (List.map_congr_left ?_).trans (List.map_id _)
    intro c hc
    have hplus : c ≠ '+' := by
      rintro rfl
      exact Percent.not_mem_encode (by decide) (by decide) _ hc
    by_cases hblank : c = ' '
    · subst hblank; rfl
    · simp [hblank, hplus]
  rw [decodePiece, hspaced, Percent.decode_encode (by decide), String.ofList_toList,
    Utf8.decodeLossy_encode]

theorem decodePair_encodePair (p : String × String) : decodePair (encodePair p) = p := by
  have h : '=' ∉ encodePiece p.1 := not_mem_encodePiece (by decide) (by decide) (by decide) _
  rw [decodePair, encodePair, splitOnce_append h]
  simp only [decodePiece_encodePiece]

/-- Queries that are written one behind the other are read one after the other. -/
theorem pairs_append (q r : String) : pairs (q ++ "&" ++ r) = pairs q ++ pairs r := by
  have h : (q ++ "&" ++ r).toList = q.toList ++ '&' :: r.toList := by simp
  rw [pairs, h, splitAll_append_sep, List.filter_append, List.map_append]
  rfl

/-- Pairs are read back as they were written. -/
theorem pairs_encode (ps : List (String × String)) : pairs (encode ps) = ps := by
  by_cases hps : ps = []
  · subst hps; rfl
  have hpieces : ∀ piece ∈ ps.map encodePair, '&' ∉ piece := by
    intro piece hpiece
    obtain ⟨p, -, rfl⟩ := List.mem_map.mp hpiece
    have hno (s : String) : '&' ∉ encodePiece s :=
      not_mem_encodePiece (by decide) (by decide) (by decide) s
    simp [encodePair, hno]
  have hfull : ∀ piece ∈ ps.map encodePair, (!piece.isEmpty) = true := by
    intro piece hpiece
    obtain ⟨p, -, rfl⟩ := List.mem_map.mp hpiece
    simp [encodePair]
  rw [pairs, encode, String.toList_ofList, splitAll_intercalate (by simpa using hps) hpieces,
    List.filter_eq_self.mpr hfull, List.map_map]
  exact List.map_id'' decodePair_encodePair ps

end Form

end TabBoard
