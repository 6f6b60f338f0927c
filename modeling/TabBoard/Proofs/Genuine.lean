import TabBoard.Proofs.Base64
import TabBoard.Proofs.Tokens

/-!
# Only genuine tokens are accepted

A token that a validator has anything to say about consists of three segments in base 64, and octets
have one spelling (`Proofs.Base64`). So the token is known from the octets of its segments
(`Segments.token`), and whether it is genuine is asked of these octets alone (`Genuine`).

**Theorem (`token_judged`).** A token is accepted exactly if it is genuine, its payload reads as the
claims, and times, audience and subject are in order. The end is looked at before all of these: a
genuine token whose end is past has expired, whatever else it says. The subject is to blame only if
nothing else is, and with any other refusal the token cannot be decoded.
-/

namespace TabBoard.Text

/-- A last piece stands behind a separator. -/
theorem intercalate_snoc {sep : Char} {pieces : List (List Char)} (h : pieces ≠ [])
    (last : List Char) : List.intercalate [sep] (pieces ++ [last]) =
      List.intercalate [sep] pieces ++ sep :: last := by
  induction pieces with
  | nil => exact absurd rfl h
  | cons piece pieces ih =>
    cases pieces with
    | nil => simp [List.intercalate_cons_cons]
    | cons next pieces =>
      have hrest := ih (List.cons_ne_nil _ _)
      rw [List.cons_append, List.cons_append, List.intercalate_cons_cons, ← List.cons_append, hrest,
        List.intercalate_cons_cons]
      simp only [List.append_assoc]

end TabBoard.Text

namespace TabBoard.Crypto.RsaKey

/-- Squaring gives the power, if the exponent has no more binary digits than count. -/
theorem powMod_eq (modulus : Nat) {bits exponent : Nat} (h : exponent < Nat.pow 2 bits)
    (base : Nat) : powMod modulus bits base exponent = Nat.pow base exponent % modulus := by
  induction bits generalizing base exponent with
  | zero =>
    obtain rfl : exponent = 0 := Nat.lt_one_iff.1 h
    rfl
  | succ bits ih =>
    rw [powMod]
    by_cases hzero : exponent = 0
    · rw [if_pos hzero, hzero, Nat.pow_eq, Nat.pow_zero]
    · have hhalf : exponent / 2 < Nat.pow 2 bits := by
        have hbits : exponent < Nat.pow 2 bits * 2 := h
        omega
      -- one factor of the square stands for two of the base
      have hsquare : Nat.pow (base * base % modulus) (exponent / 2) % modulus =
          Nat.pow base (2 * (exponent / 2)) % modulus := by
        rw [Nat.pow_eq, Nat.pow_eq, ← Nat.pow_mod, Nat.pow_mul, Nat.pow_two]
      simp only [if_neg hzero, ih hhalf, hsquare]
      by_cases hodd : exponent % 2 = 1
      · have hsplit : exponent = 2 * (exponent / 2) + 1 := by omega
        rw [if_pos hodd, Nat.mul_mod, Nat.mod_mod, ← Nat.mul_mod, Nat.pow_eq, ← Nat.pow_succ',
          ← Nat.pow_eq]
        exact congrArg (Nat.pow base · % modulus) hsplit.symm
      · have hsplit : exponent = 2 * (exponent / 2) := by omega
        rw [if_neg hodd, ← hsplit]

end TabBoard.Crypto.RsaKey

namespace TabBoard.Auth

open Text.Utf8 (Octets)
open Crypto.Base64 (encodeWeb decodeWeb_encodeWeb decodeWeb_eq_some_iff dot_not_mem_encodeWeb)
open Json (valuesFor Clean Reads ReadsD bind_eq_ok_iff IfThere)

/-! ## Segments -/

/-- What the three segments of a token spell. -/
structure Segments where
  header : Octets
  payload : Octets
  signature : Octets

namespace Segments

/-- The text that is signed. -/
def signed (s : Segments) : String := encodeWeb s.header ++ "." ++ encodeWeb s.payload

def token (s : Segments) : String := s.signed ++ "." ++ encodeWeb s.signature

/-- The segments as they are written. -/
def parts (s : Segments) : Parts :=
  ⟨encodeWeb s.header, encodeWeb s.payload, encodeWeb s.signature⟩

theorem ofToken?_token (s : Segments) : Parts.ofToken? s.token = some s.parts := by
  have hchars : s.token.toList = (encodeWeb s.header).toList ++
      '.' :: ((encodeWeb s.payload).toList ++ '.' :: (encodeWeb s.signature).toList) := by
    simp [token, signed]
  have hsplit : Text.splitAll '.' s.token.toList =
      [(encodeWeb s.header).toList, (encodeWeb s.payload).toList,
        (encodeWeb s.signature).toList] := by
    rw [hchars, Text.splitAll_append (dot_not_mem_encodeWeb _),
      Text.splitAll_append (dot_not_mem_encodeWeb _),
      Text.splitAll_of_not_mem (dot_not_mem_encodeWeb _)]
  simp [Parts.ofToken?, hsplit, parts]

end Segments

variable {v : Validator} {now depth : Nat} {token : String} {claims : Claims}
  {members : List (Option String × Json)} {s : Segments} {parts : Parts}

/-- A token is cut at its last two full stops. -/
theorem eq_of_ofToken? (h : Parts.ofToken? token = some parts) :
    token = parts.header ++ "." ++ parts.payload ++ "." ++ parts.signature := by
  rw [Parts.ofToken?] at h
  split at h
  · next signature payload first rest hpieces =>
    obtain rfl := Option.some.inj h
    have hsplit : Text.splitAll '.' token.toList =
        (first :: rest).reverse ++ [payload] ++ [signature] := by
      rw [← List.reverse_inj, hpieces]
      simp
    have hne : (first :: rest).reverse ≠ [] := by simp
    have hchars := Text.intercalate_splitAll '.' token.toList
    rw [hsplit, Text.intercalate_snoc (by simp), Text.intercalate_snoc hne] at hchars
    rw [← String.toList_inj, ← hchars]
    simp
  · cases h

theorem decodePart_encodeWeb {α : Type} {d : Json.Decoder α} {octets : Octets} {a : α} :
    decodePart d (encodeWeb octets) = .ok a ↔
      (Json.Document.ofOctets octets).decode d = .ok a := by
  simp only [decodePart, decodeWeb_encodeWeb]
  cases (Json.Document.ofOctets octets).decode d <;> simp

/-- Whatever can be decoded is the spelling of some octets. -/
theorem exists_octets_of_decodePart {α : Type} {d : Json.Decoder α} {part : String} {a : α}
    (h : decodePart d part = .ok a) : ∃ octets, part = encodeWeb octets := by
  rw [decodePart] at h
  cases hpart : Crypto.Base64.decodeWeb part with
  | none => simp [hpart] at h
  | some octets => exact ⟨octets, decodeWeb_eq_some_iff.1 hpart⟩

/-! ## Genuine tokens -/

/-- The token is signed for the validator: its header names the algorithm of the key, and its third
segment is a signature of the other two as they are written (`Key.verifies_iff`). -/
structure Genuine (v : Validator) (token : String) (s : Segments) : Prop where
  segments : token = s.token
  algorithm : (Json.Document.ofOctets s.header).decode headerDecoder = .ok v.key.algorithm
  signature : v.key.verifies (Text.Utf8.encode s.signed) s.signature = true

/-- **What a signature is**: with a secret the code of the message, and with a public key a number
below the modulus which, raised to the exponent, is the padded hash of the message. -/
theorem Key.verifies_iff (k : Key) (message signature : Octets) :
    k.verifies message signature = true ↔
      match k with
      | .secret octets => signature = Crypto.hmac octets message
      | .rsa key =>
        signature.length = key.size ∧ Crypto.Der.natOf signature < key.modulus ∧
          (Crypto.RsaKey.expected key.size message).length = key.size ∧
          Nat.pow (Crypto.Der.natOf signature) key.exponent % key.modulus =
            Crypto.Der.natOf (Crypto.RsaKey.expected key.size message) := by
  cases k with
  | secret octets => simp [verifies, eq_comm]
  | rsa key =>
    simp only [verifies, Crypto.RsaKey.verifies, Bool.and_eq_true, decide_eq_true_eq, and_assoc,
      Crypto.RsaKey.powMod_eq key.modulus (Nat.lt_log2_self (n := key.exponent))]

/-- The payload is an object that reads as these claims, and nothing behind it. -/
structure Holds (payload : Octets) (members : List (Option String × Json)) (claims : Claims) :
    Prop where
  object : Json.Document.ofOctets payload = ⟨.object members, false⟩
  clean : Clean ["sub", "exp", "iat", "roles"] members
  subject : Reads "sub" members claimDepth .text claims.subject
  expires : Reads "exp" members claimDepth .int64 claims.expires
  issued : Reads "iat" members claimDepth .int64 claims.issued
  roles : ReadsD "roles" members claimDepth [] (.list .text) claims.roles

theorem members?_encodeWeb {payload : Octets} : members? (encodeWeb payload) = some members ↔
    Json.Document.ofOctets payload = ⟨.object members, false⟩ := by
  rw [members?, decodeWeb_encodeWeb, Option.bind_some]
  split
  · next members' hdocument => simp [hdocument]
  · next hother => simpa using hother members

theorem holds_iff {payload : Octets} : Holds payload members claims ↔
    members? (encodeWeb payload) = some members ∧
      decodePart Claims.decoder (encodeWeb payload) = .ok claims := by
  constructor
  · rintro ⟨hobject, hclean, hsubject, hexpires, hissued, hroles⟩
    have hmembers := members?_encodeWeb.2 hobject
    have hclaims : Claims.decoder (claimDepth + 1) (.object members) = .ok claims :=
      claims_eq_ok_iff.2 ⟨hclean, hsubject, hexpires, hissued, hroles⟩
    refine ⟨hmembers, ?_⟩
    rw [decodePart_of_members _ hmembers, hclaims]
    rfl
  · rintro ⟨hmembers, hclaims⟩
    rw [decodePart_of_members _ hmembers] at hclaims
    cases hread : Claims.decoder (claimDepth + 1) (.object members) with
    | error e =>
      rw [hread] at hclaims
      cases hclaims
    | ok claims' =>
      rw [hread] at hclaims
      obtain rfl : claims' = claims := Except.ok.inj hclaims
      obtain ⟨hclean, hsubject, hexpires, hissued, hroles⟩ := claims_eq_ok_iff.1 hread
      exact ⟨members?_encodeWeb.1 hmembers, hclean, hsubject, hexpires, hissued, hroles⟩

/-- **What a validator needs to judge a token is a genuine token that holds claims.** -/
theorem bears_iff : Bears v token members claims ↔
    ∃ s, Genuine v token s ∧ Holds s.payload members claims := by
  constructor
  · rintro ⟨parts, hparts, ⟨halgorithm, signature, hsignature, hverifies⟩, hmembers, hclaims⟩
    obtain ⟨header, payload, signature'⟩ := parts
    obtain ⟨header, rfl⟩ := exists_octets_of_decodePart halgorithm
    obtain ⟨payload, rfl⟩ := exists_octets_of_decodePart hclaims
    obtain rfl := decodeWeb_eq_some_iff.1 hsignature
    have hholds : Holds payload members claims := holds_iff.2 ⟨hmembers, hclaims⟩
    have htoken := eq_of_ofToken? hparts
    rw [Parts.signed] at hverifies
    exact ⟨⟨header, payload, signature⟩,
      ⟨htoken, decodePart_encodeWeb.1 halgorithm, hverifies⟩, hholds⟩
  · rintro ⟨s, ⟨rfl, halgorithm, hverifies⟩, hholds⟩
    obtain ⟨hmembers, hclaims⟩ := holds_iff.1 hholds
    have hsigned : Signed v s.parts :=
      ⟨decodePart_encodeWeb.2 halgorithm, s.signature, decodeWeb_encodeWeb _, hverifies⟩
    exact ⟨s.parts, s.ofToken?_token, hsigned, hmembers, hclaims⟩

/-! ## The algorithm -/

/-- The value is the name, alone or as the only member of an object. -/
def Names (name : String) (j : Json) : Prop := j = .text name ∨ j = .object [(some name, .null)]

theorem names_of_oneOf {α : Type} {table : List (String × α)} {j : Json} {a : α}
    (h : Json.Decoder.oneOf table depth j = .ok a) :
    ∃ name, Names name j ∧ table.lookup name = some a := by
  have hlookup : ∀ name, ((table.lookup name).map Except.ok).getD (.error Json.Fault.mismatch) =
      .ok a → table.lookup name = some a := by
    intro name h
    cases hname : table.lookup name with
    | none => simp [hname] at h
    | some a' =>
      rw [hname] at h
      exact congrArg some (Except.ok.inj h)
  unfold Json.Decoder.oneOf at h
  split at h
  · next name => exact ⟨name, .inl rfl, hlookup name h⟩
  · next name => exact ⟨name, .inr rfl, hlookup name h⟩
  · cases h
  · cases h

theorem mem_of_lookup {α β : Type} [BEq α] [LawfulBEq α] {entries : List (α × β)} {a : α} {b : β}
    (h : entries.lookup a = some b) : (a, b) ∈ entries := by
  obtain ⟨before, behind, rfl, -⟩ := List.lookup_eq_some_iff.1 h
  exact List.mem_append_right _ List.mem_cons_self

/-- Only one name is read as the algorithm of a key. -/
theorem algorithmName_of_lookup {key : Key} {name : String}
    (h : Algorithm.table.lookup name = some key.algorithm) : name = key.algorithmName := by
  have hmem := mem_of_lookup h
  cases key <;> simpa [Algorithm.table, Key.algorithm, Key.algorithmName] using hmem

/-- No name is picked twice. -/
theorem length_valuesFor_of_pick {names : List String} {found : List (String × Json)}
    {name : String} (h : Json.pick names [] members = .ok found) (hname : name ∈ names) :
    (valuesFor name members).length ≤ 1 := by
  have hpick : Json.pick names [] members =
      if ((Json.known names members).map (·.1)).Nodup then .ok (Json.known names members)
      else .error .mismatch := Json.pick_eq (Json.clean_of_pick h) List.nodup_nil
  rw [hpick] at h
  split_ifs at h with hnodup
  exact Json.nodup_known_iff.1 hnodup name hname

theorem headerDecoder_eq_ok {algorithm : Algorithm}
    (h : headerDecoder (depth + 1) (.object members) = .ok algorithm) :
    ∃ j name, valuesFor "alg" members = [j] ∧ Names name j ∧
      Algorithm.table.lookup name = some algorithm := by
  simp only [headerDecoder] at h
  obtain ⟨found, hpick, h⟩ := bind_eq_ok_iff.1 h
  obtain ⟨_, -, h⟩ := bind_eq_ok_iff.1 h
  have honce : (valuesFor "alg" members).length ≤ 1 := length_valuesFor_of_pick hpick (by simp)
  split at h
  · next j hlookup =>
    have hmem : j ∈ valuesFor "alg" members := Json.mem_valuesFor.2 (mem_of_lookup hlookup)
    obtain ⟨name, hnames, hname⟩ := names_of_oneOf h
    refine ⟨j, name, ?_, hnames, hname⟩
    rcases hvalues : valuesFor "alg" members with _ | ⟨first, _ | ⟨second, rest⟩⟩
    · rw [hvalues] at hmem
      cases hmem
    · rw [hvalues, List.mem_singleton] at hmem
      rw [hmem]
    · rw [hvalues] at honce
      simp at honce
  · cases h

/-- What only objects can be read as is read from an object that is the whole document. -/
theorem exists_object_of_decode {α : Type} {d : Json.Decoder α} {octets : Octets} {a : α}
    (hobject : ∀ depth j, d depth j = .ok a → ∃ members, j = .object members)
    (h : (Json.Document.ofOctets octets).decode d = .ok a) :
    ∃ members, Json.Document.ofOctets octets = ⟨.object members, false⟩ ∧
      d (claimDepth + 1) (.object members) = .ok a := by
  generalize Json.Document.ofOctets octets = document at h ⊢
  obtain ⟨value, trailing⟩ := document
  simp only [Json.Document.decode] at h
  cases hread : d Json.depthLimit value with
  | error e => simp [hread] at h
  | ok a' =>
    rw [hread] at h
    cases trailing with
    | true => simp at h
    | false =>
      obtain rfl : a' = a := by simpa using h
      obtain ⟨members, rfl⟩ := hobject _ _ hread
      exact ⟨members, rfl, hread⟩

theorem object_of_header {algorithm : Algorithm} (depth : Nat) (j : Json)
    (h : headerDecoder depth j = .ok algorithm) : ∃ members, j = .object members := by
  unfold headerDecoder at h
  split at h
  · exact ⟨_, rfl⟩
  · cases h

theorem object_of_checked {checked : Checked} (depth : Nat) (j : Json)
    (h : Checked.decoder depth j = .ok checked) : ∃ members, j = .object members := by
  cases j with
  | object members => exact ⟨members, rfl⟩
  | null | bool _ | number _ | string _ | array _ | broken => cases h

/-- **The one member `alg` of the header names the algorithm of the key.** -/
theorem Genuine.algorithm_named (h : Genuine v token s) :
    ∃ members j, Json.Document.ofOctets s.header = ⟨.object members, false⟩ ∧
      valuesFor "alg" members = [j] ∧ Names v.key.algorithmName j := by
  obtain ⟨members, hdocument, hread⟩ := exists_object_of_decode object_of_header h.algorithm
  obtain ⟨j, name, hvalues, hnames, hlookup⟩ := headerDecoder_eq_ok hread
  exact ⟨members, j, hdocument, hvalues, algorithmName_of_lookup hlookup ▸ hnames⟩

/-! ## Refusals -/

/-- The members that the checks look at can be read, and none of them appears twice. -/
structure Legible (members : List (Option String × Json)) : Prop where
  notBefore : IfThere "nbf" members fun j => ∃ t, TimeClaim.decoder claimDepth j = .ok t
  issuer : IfThere "iss" members fun j => j.readable claimDepth = true
  audience : IfThere "aud" members fun j => j.readable claimDepth = true

theorem exists_checked_iff
    (h : Claims.decoder (claimDepth + 1) (.object members) = .ok claims) :
    (∃ checked, Checked.decoder (claimDepth + 1) (.object members) = .ok checked) ↔
      Legible members := by
  simp only [checked_eq_ok_iff h]
  have hnbf : (∃ t, ReadsD "nbf" members claimDepth .absent TimeClaim.decoder t ∧ True) ↔ _ :=
    Json.exists_readsD_iff trivial
  have haud : (∃ j, ReadsD "aud" members claimDepth .null .value j ∧ True) ↔ _ :=
    Json.exists_readsD_iff trivial
  simp only [and_true, Json.value_eq_ok_iff, exists_and_left, exists_eq'] at hnbf haud
  constructor
  · rintro ⟨checked, ht, hiss, j, hj, -⟩
    exact ⟨hnbf.1 ⟨_, ht⟩, exists_issuer_iff.1 hiss, haud.1 ⟨j, hj⟩⟩
  · rintro ⟨ht, hiss, hj⟩
    obtain ⟨t, ht⟩ := hnbf.2 ht
    obtain ⟨j, hj⟩ := haud.2 hj
    exact ⟨⟨t, namesAudience j⟩, ht, exists_issuer_iff.2 hiss, j, hj, rfl⟩

/-- Either the token cannot be decoded, or it bears claims and the checks can look at them. -/
theorem exists_checked_or (v : Validator) (now : Nat) (token : String) :
    (∃ fault, v.validate now token = .error (.undecodable fault)) ∨
      ∃ members claims checked, Bears v token members claims ∧
        Checked.decoder (claimDepth + 1) (.object members) = .ok checked := by
  rw [Validator.validate]
  cases hgenuine : v.genuine token with
  | error fault => exact .inl ⟨fault, rfl⟩
  | ok parts =>
    cases hclaims : decodePart Claims.decoder parts.payload with
    | error fault => exact .inl ⟨fault, by simp [Except.mapError, hclaims, bind, Except.bind]⟩
    | ok claims =>
      cases hchecked : decodePart Checked.decoder parts.payload with
      | error fault =>
        exact .inl ⟨fault, by simp [Except.mapError, hclaims, hchecked, bind, Except.bind]⟩
      | ok checked =>
        obtain ⟨payload, hpayload⟩ := exists_octets_of_decodePart hclaims
        rw [hpayload, decodePart_encodeWeb] at hchecked
        obtain ⟨members, hobject, hread⟩ := exists_object_of_decode object_of_checked hchecked
        have hmembers : members? parts.payload = some members :=
          hpayload ▸ members?_encodeWeb.2 hobject
        obtain ⟨hparts, hsigned⟩ := genuine_eq_ok_iff.1 hgenuine
        exact .inr ⟨members, claims, checked, ⟨parts, hparts, hsigned, hmembers, hclaims⟩, hread⟩

theorem validate_of_checked {checked : Checked} (h : Bears v token members claims)
    (hchecked : Checked.decoder (claimDepth + 1) (.object members) = .ok checked) :
    v.validate now token = checkTimes now claims checked >>= fun _ => claims.check := by
  rw [validate_eq h, hchecked]
  rfl

/-- The token was used too late. -/
def Claims.Expired (now : Nat) (c : Claims) : Prop := 0 ≤ c.expires ∧ c.expires + leeway < now

/-- The end is looked at first, and nothing else counts once it is past. -/
theorem checkTimes_cases (now : Nat) (claims : Claims) (checked : Checked) :
    claims.Expired now ∧ checkTimes now claims checked = .error .expired ∨
      ¬ claims.Expired now ∧ (checkTimes now claims checked = .ok () ∨
        ∃ fault, checkTimes now claims checked = .error (.undecodable fault)) := by
  rw [checkTimes, Claims.Expired]
  by_cases hmissing : claims.expires < 0
  · rw [if_pos hmissing]
    exact .inr ⟨fun h => absurd hmissing (Int.not_lt.2 h.1), .inr ⟨_, rfl⟩⟩
  rw [if_neg hmissing]
  by_cases hexpired : claims.expires + leeway < now
  · rw [if_pos hexpired]
    exact .inl ⟨⟨Int.not_lt.1 hmissing, hexpired⟩, rfl⟩
  rw [if_neg hexpired]
  refine .inr ⟨fun h => hexpired h.2, ?_⟩
  cases checked.notBefore with
  | unusable => exact .inr ⟨_, rfl⟩
  | absent => cases checked.audience <;> simp
  | «at» seconds =>
    by_cases hearly : now + leeway < seconds
    · exact .inr ⟨_, if_pos hearly⟩
    · cases checked.audience <;> simp [hearly]

theorem check_cases (claims : Claims) : claims.Usable ∧ claims.check = .ok claims ∨
    ¬ claims.Usable ∧
      (claims.check = .error .emptySubject ∨ claims.check = .error .longSubject) := by
  rw [Claims.check, Claims.Usable]
  split_ifs with hblank hlong
  · exact .inr ⟨by simp [hblank], .inl rfl⟩
  · exact .inr ⟨by simp [Nat.not_le.2 hlong], .inr rfl⟩
  · exact .inl ⟨⟨Bool.not_eq_true _ ▸ hblank, Nat.not_lt.1 hlong⟩, rfl⟩

/-! ## The judgement -/

/-- Nothing but the subject can be wrong with the token now. -/
structure Current (now : Nat) (members : List (Option String × Json)) (claims : Claims) :
    Prop where
  unexpired : claims.Unexpired now
  begun : Begun now members
  harmless : Harmless claimDepth members

theorem current_iff (h : Claims.decoder (claimDepth + 1) (.object members) = .ok claims) :
    (∃ checked, Checked.decoder (claimDepth + 1) (.object members) = .ok checked ∧
      checkTimes now claims checked = .ok ()) ↔ Current now members claims := by
  constructor
  · rintro ⟨checked, hfound, htimes⟩
    obtain ⟨hnbf, hiss, j, haud, hnames⟩ := (checked_eq_ok_iff h).1 hfound
    obtain ⟨hunexpired, hbegun, hnone⟩ := checkTimes_eq_ok_iff.1 htimes
    exact ⟨hunexpired, exists_begun_iff.1 ⟨_, hnbf, hbegun⟩,
      exists_issuer_iff.1 hiss, exists_audience_iff.1 ⟨j, haud, hnames.trans hnone⟩⟩
  · rintro ⟨hunexpired, hbegun, hharmless⟩
    obtain ⟨t, hnbf, ht⟩ := exists_begun_iff.2 hbegun
    exact ⟨⟨t, false⟩, (checked_of_harmless h hharmless).2 ⟨hnbf, rfl⟩,
      checkTimes_eq_ok_iff.2 ⟨hunexpired, ht, rfl⟩⟩

/-- Then the answer is decided by the subject. -/
theorem validate_of_current (h : Bears v token members claims)
    (hcurrent : Current now members claims) : v.validate now token = claims.check := by
  obtain ⟨checked, hchecked, htimes⟩ := (current_iff h.decoded).2 hcurrent
  rw [validate_of_checked h hchecked, htimes]
  rfl

theorem validate_of_expired (h : Bears v token members claims) (hlegible : Legible members)
    (hexpired : claims.Expired now) : v.validate now token = .error .expired := by
  obtain ⟨checked, hchecked⟩ := (exists_checked_iff h.decoded).2 hlegible
  obtain ⟨-, htimes⟩ | ⟨hnot, -⟩ := checkTimes_cases now claims checked
  · rw [validate_of_checked h hchecked, htimes]
    rfl
  · exact absurd hexpired hnot

/-- The answers that a token can get, each with its grounds. -/
inductive Grounds (v : Validator) (now : Nat) (token : String) : Except Error Claims → Prop
  | undecodable (fault : TokenFault) : Grounds v now token (.error (.undecodable fault))
  | expired {s : Segments} {members : List (Option String × Json)} {claims : Claims} :
      Genuine v token s → Holds s.payload members claims → Legible members →
      claims.Expired now → Grounds v now token (.error .expired)
  | subject {e : Error} {s : Segments} {members : List (Option String × Json)} {claims : Claims} :
      Genuine v token s → Holds s.payload members claims → Current now members claims →
      ¬ claims.Usable → e = .emptySubject ∨ e = .longSubject → Grounds v now token (.error e)
  | accepted {s : Segments} {members : List (Option String × Json)} {claims : Claims} :
      Genuine v token s → Holds s.payload members claims → Current now members claims →
      claims.Usable → Grounds v now token (.ok claims)

/-- **No token is answered without grounds.** -/
theorem grounds_validate (v : Validator) (now : Nat) (token : String) :
    Grounds v now token (v.validate now token) := by
  obtain ⟨fault, hfault⟩ | ⟨members, claims, checked, hbears, hchecked⟩ :=
    exists_checked_or v now token
  · exact hfault ▸ .undecodable fault
  obtain ⟨s, hgenuine, hholds⟩ := bears_iff.1 hbears
  rw [validate_of_checked hbears hchecked]
  obtain ⟨hexpired, htimes⟩ | ⟨-, htimes | ⟨fault, htimes⟩⟩ := checkTimes_cases now claims checked
  · have hlegible := (exists_checked_iff hbears.decoded).1 ⟨checked, hchecked⟩
    rw [htimes]
    exact .expired hgenuine hholds hlegible hexpired
  · have hcurrent := (current_iff hbears.decoded).1 ⟨checked, hchecked, htimes⟩
    rw [htimes]
    change Grounds v now token claims.check
    obtain ⟨husable, hcheck⟩ | ⟨hunusable, hcheck | hcheck⟩ := check_cases claims
    · exact hcheck ▸ .accepted hgenuine hholds hcurrent husable
    · exact hcheck ▸ .subject hgenuine hholds hcurrent hunusable (.inl rfl)
    · exact hcheck ▸ .subject hgenuine hholds hcurrent hunusable (.inr rfl)
  · rw [htimes]
    exact .undecodable fault

/-- **What a validator says about any token.** -/
structure TokenJudged (v : Validator) (now : Nat) (token : String) : Prop where
  /-- Accepted are genuine tokens that hold the claims, are current, and have a usable subject. -/
  accepted : ∀ claims, v.validate now token = .ok claims ↔
    ∃ s members, Genuine v token s ∧ Holds s.payload members claims ∧
      Current now members claims ∧ claims.Usable
  /-- The header of a genuine token names the algorithm of the key and no other. -/
  algorithm : ∀ s, Genuine v token s →
    ∃ members j, Json.Document.ofOctets s.header = ⟨.object members, false⟩ ∧
      valuesFor "alg" members = [j] ∧ Names v.key.algorithmName j
  /-- It has expired if it is genuine and legible and its end is past, whatever else it says. -/
  expired : v.validate now token = .error .expired ↔
    ∃ s members claims, Genuine v token s ∧ Holds s.payload members claims ∧
      Legible members ∧ claims.Expired now
  /-- The subject is to blame if it is all that is wrong with a genuine token. -/
  subject : (v.validate now token = .error .emptySubject ∨
      v.validate now token = .error .longSubject) ↔
    ∃ s members claims, Genuine v token s ∧ Holds s.payload members claims ∧
      Current now members claims ∧ ¬ claims.Usable
  /-- In all other cases it cannot be decoded. -/
  otherwise : ∀ e, v.validate now token = .error e →
    e = .expired ∨ e = .emptySubject ∨ e = .longSubject ∨ ∃ fault, e = .undecodable fault

theorem token_judged (v : Validator) (now : Nat) (token : String) : TokenJudged v now token where
  accepted := by
    intro claims
    constructor
    · intro h
      have hgrounds := h ▸ grounds_validate v now token
      cases hgrounds with
      | accepted hgenuine hholds hcurrent husable =>
        exact ⟨_, _, hgenuine, hholds, hcurrent, husable⟩
    · rintro ⟨s, members, hgenuine, hholds, hcurrent, husable⟩
      rw [validate_of_current (bears_iff.2 ⟨s, hgenuine, hholds⟩) hcurrent, check_eq_ok_iff]
      exact ⟨rfl, husable⟩
  algorithm _ h := h.algorithm_named
  expired := by
    constructor
    · intro h
      have hgrounds := h ▸ grounds_validate v now token
      cases hgrounds with
      | expired hgenuine hholds hlegible hexpired =>
        exact ⟨_, _, _, hgenuine, hholds, hlegible, hexpired⟩
      | subject _ _ _ _ he => simp at he
    · rintro ⟨s, members, claims, hgenuine, hholds, hlegible, hexpired⟩
      exact validate_of_expired (bears_iff.2 ⟨s, hgenuine, hholds⟩) hlegible hexpired
  subject := by
    constructor
    · rintro (h | h)
      all_goals
        have hgrounds := h ▸ grounds_validate v now token
        cases hgrounds with
        | subject hgenuine hholds hcurrent hunusable _ =>
          exact ⟨_, _, _, hgenuine, hholds, hcurrent, hunusable⟩
    · rintro ⟨s, members, claims, hgenuine, hholds, hcurrent, hunusable⟩
      rw [validate_of_current (bears_iff.2 ⟨s, hgenuine, hholds⟩) hcurrent]
      exact ((check_cases claims).resolve_left fun h => hunusable h.1).2
  otherwise := by
    intro e h
    have hgrounds := h ▸ grounds_validate v now token
    cases hgrounds with
    | undecodable fault => exact .inr (.inr (.inr ⟨fault, rfl⟩))
    | expired => exact .inl rfl
    | subject _ _ _ _ he => exact .inr (he.imp id .inl)

end TabBoard.Auth
