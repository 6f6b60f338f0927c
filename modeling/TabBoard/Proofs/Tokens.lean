import TabBoard.Auth.Token
import TabBoard.Proofs.Records

/-!
# Which signed tokens are accepted

A token that is signed for the validator is judged by the object in its payload. The checks read
that object twice: once as `Claims`, and once more for three members that are no claims here,
`nbf`, `iss` and `aud`. A member that is read by neither is skipped, whatever it holds.

No audience is known here, so a token that names one is refused. Besides that, the three members
do harm if they appear twice or cannot be read, and `nbf` if it is no time.

**Theorem (`validate_judged`).** A signed token is accepted, with exactly its claims, if it may be
used now, its subject is usable, and `iss` and `aud` do no harm. Nothing else in the payload counts.
-/

namespace TabBoard.Auth

open Json (valuesFor Clean Reads ReadsD bind_eq_ok_iff record_eq_ok_iff required_eq_ok_iff
  getD_eq_ok_iff IfThere exists_readsD_iff value_eq_ok_iff)

variable {v : Validator} {now depth : Nat} {token : String} {claims : Claims}
  {members members' : List (Option String × Json)} {checked : Checked} {j : Json}

/-! ## The claims -/

theorem complete_of_int {low high i : Int} (h : Json.Decoder.int low high depth j = .ok i) :
    j.complete = true := by
  cases j with
  | number n => rfl
  | null | bool _ | string _ | array _ | object _ | broken => cases h

theorem completeItems_of_texts {items : List Json} {texts : List String}
    (h : items.mapM (Json.Decoder.text depth) = .ok texts) : Json.completeItems items = true := by
  induction items generalizing texts with
  | nil => rfl
  | cons item items ih =>
    rw [List.mapM_cons] at h
    obtain ⟨text, htext, h⟩ := bind_eq_ok_iff.1 h
    obtain ⟨texts', htexts, -⟩ := bind_eq_ok_iff.1 h
    cases item with
    | string text => simp [Json.completeItems, Json.complete, ih htexts]
    | null | bool _ | number _ | array _ | object _ | broken => cases htext

theorem complete_of_texts {texts : List String}
    (h : Json.Decoder.list .text depth j = .ok texts) : j.complete = true := by
  cases j with
  | array items =>
    cases depth with
    | zero => cases h
    | succ depth => exact completeItems_of_texts h
  | null | bool _ | string _ | number _ | object _ | broken => cases depth <;> cases h

/-- **Claims are read from an object exactly if each of the four can be read.** -/
theorem claims_eq_ok_iff : Claims.decoder (depth + 1) (.object members) = .ok claims ↔
    Clean ["sub", "exp", "iat", "roles"] members ∧
      Reads "sub" members depth .text claims.subject ∧
      Reads "exp" members depth .int64 claims.expires ∧
      Reads "iat" members depth .int64 claims.issued ∧
      ReadsD "roles" members depth [] (.list .text) claims.roles := by
  simp only [Claims.decoder, bind_eq_ok_iff, record_eq_ok_iff]
  constructor
  · rintro ⟨r, ⟨hclean, honce, rfl⟩, subject, hsub, expires, hexp, issued, hiat, roles, hroles, hc⟩
    cases hc
    exact ⟨hclean, (required_eq_ok_iff (by simp) (honce _ (by simp))).1 hsub,
      (required_eq_ok_iff (by simp) (honce _ (by simp))).1 hexp,
      (required_eq_ok_iff (by simp) (honce _ (by simp))).1 hiat,
      (getD_eq_ok_iff (by simp) (honce _ (by simp))).1 hroles⟩
  · rintro ⟨hclean, hsub, hexp, hiat, hroles⟩
    refine ⟨_, ⟨hclean, ?_, rfl⟩, _, (required_eq_ok_iff (by simp) hsub.length_le).2 hsub,
      _, (required_eq_ok_iff (by simp) hexp.length_le).2 hexp,
      _, (required_eq_ok_iff (by simp) hiat.length_le).2 hiat,
      _, (getD_eq_ok_iff (by simp) hroles.length_le).2 hroles, rfl⟩
    simp [hsub.length_le, hexp.length_le, hiat.length_le, hroles.length_le]

/-! ## What the checks look at -/

/-- Whoever can read the claims can pass every member that the checks do not look at. -/
theorem clean_of_claims (h : Claims.decoder (depth + 1) (.object members) = .ok claims) :
    Clean ["exp", "nbf", "sub", "iss", "aud"] members := by
  obtain ⟨hclean, -, -, ⟨j, hiat, hint⟩, hroles⟩ := claims_eq_ok_iff.1 h
  rintro ⟨n, value⟩ hmem
  obtain ⟨name, rfl, hname⟩ := hclean _ hmem
  refine ⟨name, rfl, ?_⟩
  have hvalue : value ∈ valuesFor name members := Json.mem_valuesFor.2 hmem
  simp only [List.mem_cons, List.not_mem_nil, or_false] at hname ⊢
  obtain (rfl | rfl | rfl | rfl) | hcomplete := hname
  · simp
  · simp
  · rw [hiat, List.mem_singleton] at hvalue
    exact .inr (hvalue ▸ complete_of_int hint)
  · obtain ⟨hnone, -⟩ | ⟨j, hroles, htexts⟩ := hroles
    · simp [hnone] at hvalue
    · rw [hroles, List.mem_singleton] at hvalue
      exact .inr (hvalue ▸ complete_of_texts htexts)
  · exact .inr hcomplete

/-- **The checks look at three members beside the claims**, none of which may appear twice. -/
theorem checked_eq_ok_iff (h : Claims.decoder (depth + 1) (.object members) = .ok claims) :
    Checked.decoder (depth + 1) (.object members) = .ok checked ↔
      ReadsD "nbf" members depth .absent TimeClaim.decoder checked.notBefore ∧
      (∃ j, ReadsD "iss" members depth .null .value j) ∧
      ∃ j, ReadsD "aud" members depth .null .value j ∧ namesAudience j = checked.audience := by
  obtain ⟨-, hsub, hexp, -, -⟩ := claims_eq_ok_iff.1 h
  simp only [Checked.decoder, bind_eq_ok_iff, record_eq_ok_iff]
  constructor
  · rintro ⟨r, ⟨-, honce, rfl⟩, notBefore, hnbf, issuer, hiss, audience, haud, hc⟩
    cases hc
    exact ⟨(getD_eq_ok_iff (by simp) (honce _ (by simp))).1 hnbf,
      ⟨issuer, (getD_eq_ok_iff (by simp) (honce _ (by simp))).1 hiss⟩,
      audience, (getD_eq_ok_iff (by simp) (honce _ (by simp))).1 haud, rfl⟩
  · rintro ⟨hnbf, ⟨issuer, hiss⟩, audience, haud, hnames⟩
    refine ⟨_, ⟨clean_of_claims h, ?_, rfl⟩,
      _, (getD_eq_ok_iff (by simp) hnbf.length_le).2 hnbf,
      _, (getD_eq_ok_iff (by simp) hiss.length_le).2 hiss,
      _, (getD_eq_ok_iff (by simp) haud.length_le).2 haud, ?_⟩
    · simp [hsub.length_le, hexp.length_le, hnbf.length_le, hiss.length_le, haud.length_le]
    · rw [hnames]
      rfl

/-! ## Times and subject -/

/-- A time that has come, or none. -/
def TimeClaim.Begun (now : Nat) : TimeClaim → Prop
  | .absent => True
  | .at seconds => seconds ≤ now + leeway
  | .unusable => False

theorem TimeClaim.ofNumber_ne_absent (n : Json.Number) : TimeClaim.ofNumber n ≠ .absent := by
  rw [TimeClaim.ofNumber]
  intro h
  split at h
  · split_ifs at h
  · dsimp only at h
    split_ifs at h

/-- Only a number is a time. -/
theorem TimeClaim.begun_iff : (∃ t, TimeClaim.decoder depth j = .ok t ∧ t.Begun now) ↔
    ∃ n seconds, j = .number n ∧ TimeClaim.ofNumber n = .at seconds ∧ seconds ≤ now + leeway := by
  constructor
  · rintro ⟨t, ht, hbegun⟩
    cases j with
    | number n =>
      cases ht
      cases hn : TimeClaim.ofNumber n with
      | absent => exact absurd hn (ofNumber_ne_absent n)
      | «at» seconds => exact ⟨n, seconds, rfl, hn, by rwa [hn] at hbegun⟩
      | unusable =>
        rw [hn] at hbegun
        exact hbegun.elim
    | string text => cases text <;> cases ht; exact hbegun.elim
    | array items => cases items <;> cases ht; exact hbegun.elim
    | object members => cases members <;> cases ht; exact hbegun.elim
    | null | bool _ => cases ht; exact hbegun.elim
    | broken => cases ht
  · rintro ⟨n, seconds, rfl, hn, hbegun⟩
    exact ⟨.at seconds, congrArg Except.ok hn, hbegun⟩

/-- The token is not used after its end, by more than the leeway. -/
def Claims.Unexpired (now : Nat) (c : Claims) : Prop :=
  0 ≤ c.expires ∧ (now : Int) ≤ c.expires + leeway

/-- The subject has something in it and is not too long. -/
def Claims.Usable (c : Claims) : Prop :=
  Text.isBlankText c.subject = false ∧ c.subject.utf8ByteSize ≤ maxSubjectSize

instance (now : Nat) (c : Claims) : Decidable (c.Unexpired now) :=
  inferInstanceAs (Decidable (_ ∧ _))

instance (c : Claims) : Decidable c.Usable := inferInstanceAs (Decidable (_ ∧ _))

theorem check_eq_ok_iff {c : Claims} : claims.check = .ok c ↔ c = claims ∧ claims.Usable := by
  rw [Claims.check, Claims.Usable]
  split_ifs with hblank hlong
  · simp [hblank]
  · simp [hlong]
  · simp [hblank, Nat.le_of_not_lt hlong, eq_comm]

/-- **A token that may be used now is judged by its audience.** -/
theorem checkTimes_of_begun (hunexpired : claims.Unexpired now)
    (hbegun : checked.notBefore.Begun now) : checkTimes now claims checked =
      if checked.audience then .error (.undecodable .invalidAudience) else .ok () := by
  have hthere : ¬ claims.expires < 0 := Int.not_lt.2 hunexpired.1
  have hcurrent : ¬ claims.expires + leeway < now := Int.not_lt.2 hunexpired.2
  rw [checkTimes, if_neg hthere, if_neg hcurrent]
  cases ht : checked.notBefore with
  | absent => rfl
  | «at» seconds =>
    rw [ht] at hbegun
    exact if_neg (Nat.not_lt.2 hbegun)
  | unusable =>
    rw [ht] at hbegun
    exact hbegun.elim

theorem begun_of_checkTimes (h : checkTimes now claims checked = .ok ()) :
    claims.Unexpired now ∧ checked.notBefore.Begun now := by
  rw [checkTimes] at h
  by_cases hmissing : claims.expires < 0
  · rw [if_pos hmissing] at h
    cases h
  rw [if_neg hmissing] at h
  by_cases hexpired : claims.expires + leeway < now
  · rw [if_pos hexpired] at h
    cases h
  rw [if_neg hexpired] at h
  refine ⟨⟨Int.not_lt.1 hmissing, Int.not_lt.1 hexpired⟩, ?_⟩
  cases ht : checked.notBefore with
  | absent => trivial
  | «at» seconds =>
    rw [ht] at h
    by_cases hearly : now + leeway < seconds
    · simp [hearly] at h
    · exact Nat.not_lt.1 hearly
  | unusable =>
    rw [ht] at h
    cases h

theorem checkTimes_eq_ok_iff : checkTimes now claims checked = .ok () ↔
    claims.Unexpired now ∧ checked.notBefore.Begun now ∧ checked.audience = false := by
  constructor
  · intro h
    obtain ⟨hunexpired, hbegun⟩ := begun_of_checkTimes h
    rw [checkTimes_of_begun hunexpired hbegun] at h
    refine ⟨hunexpired, hbegun, ?_⟩
    cases haudience : checked.audience with
    | false => rfl
    | true => simp [haudience] at h
  · rintro ⟨hunexpired, hbegun, haudience⟩
    rw [checkTimes_of_begun hunexpired hbegun, haudience]
    rfl

/-! ## The payload -/

/-- How deep the value of a claim may nest. -/
def claimDepth : Nat := Json.depthLimit - 1

/-- The members of the object that a part of a token holds. -/
def members? (part : String) : Option (List (Option String × Json)) :=
  (Crypto.Base64.decodeWeb part).bind fun octets =>
    match Json.Document.ofOctets octets with
    | ⟨.object members, false⟩ => some members
    | _ => none

theorem decodePart_of_members {α : Type} {part : String} (d : Json.Decoder α)
    (h : members? part = some members) : decodePart d part =
      (d (claimDepth + 1) (.object members)).mapError fun _ => .json := by
  obtain ⟨octets, hoctets, h⟩ := Option.bind_eq_some_iff.1 h
  split at h
  · next members' hdocument =>
    obtain rfl := Option.some.inj h
    rw [decodePart, hoctets]
    simp only [hdocument, Json.Document.decode]
    rw [show Json.depthLimit = claimDepth + 1 from rfl]
    cases d (claimDepth + 1) (.object members') <;> rfl
  · cases h

/-- The header names the algorithm of the key, and the signature is one of header and payload. -/
structure Signed (v : Validator) (parts : Parts) : Prop where
  algorithm : decodePart headerDecoder parts.header = .ok v.key.algorithm
  signature : ∃ signature, Crypto.Base64.decodeWeb parts.signature = some signature ∧
    v.key.verifies parts.signed signature = true

theorem genuine_eq_ok_iff {parts : Parts} : v.genuine token = .ok parts ↔
    Parts.ofToken? token = some parts ∧ Signed v parts := by
  rw [Validator.genuine]
  constructor
  · intro h
    cases htoken : Parts.ofToken? token with
    | none => simp [htoken] at h
    | some parts' =>
      rw [htoken] at h
      obtain ⟨algorithm, hheader, h⟩ := bind_eq_ok_iff.1 h
      by_cases halgorithm : algorithm = v.key.algorithm
      case neg => simp [halgorithm, bind, Except.bind] at h
      subst halgorithm
      rw [if_neg (not_not_intro rfl)] at h
      cases hsignature : Crypto.Base64.decodeWeb parts'.signature with
      | none => simp [hsignature] at h
      | some signature =>
        simp only [hsignature] at h
        split_ifs at h with hverifies
        cases h
        exact ⟨rfl, hheader, signature, hsignature, hverifies⟩
  · rintro ⟨hparts, hheader, signature, hsignature, hverifies⟩
    simp [hparts, hheader, hsignature, hverifies, bind, Except.bind, pure, Except.pure]

/-- The token is signed for the validator, and its payload is an object with these members, which
reads as these claims. -/
def Bears (v : Validator) (token : String) (members : List (Option String × Json))
    (claims : Claims) : Prop :=
  ∃ parts, Parts.ofToken? token = some parts ∧ Signed v parts ∧
    members? parts.payload = some members ∧ decodePart Claims.decoder parts.payload = .ok claims

theorem Bears.decoded (h : Bears v token members claims) :
    Claims.decoder (claimDepth + 1) (.object members) = .ok claims := by
  obtain ⟨parts, -, -, hmembers, hclaims⟩ := h
  rw [decodePart_of_members _ hmembers] at hclaims
  cases hread : Claims.decoder (claimDepth + 1) (.object members) with
  | ok claims' =>
    rw [hread] at hclaims
    exact congrArg Except.ok (Except.ok.inj hclaims)
  | error e =>
    rw [hread] at hclaims
    cases hclaims

/-- What is answered, by what the checks find. -/
def judge (now : Nat) (claims : Claims) : Option Checked → Except Error Claims
  | none => .error (.undecodable .json)
  | some checked => do
    checkTimes now claims checked
    claims.check

/-- **Beside the claims, only what the checks look at counts.** -/
theorem validate_eq (h : Bears v token members claims) (now : Nat) : v.validate now token =
    judge now claims (Checked.decoder (claimDepth + 1) (.object members)).toOption := by
  obtain ⟨parts, hparts, hsigned, hmembers, hclaims⟩ := h
  have hgenuine : v.genuine token = .ok parts := genuine_eq_ok_iff.2 ⟨hparts, hsigned⟩
  rw [Validator.validate, hgenuine]
  simp only [Except.mapError, hclaims, decodePart_of_members _ hmembers, bind, Except.bind]
  cases Checked.decoder (claimDepth + 1) (.object members) <;> rfl

/-! ## Who is accepted -/

/-- The members that an issuer may add without a refusal: the issuer at most once and readable, and
at most one readable `aud` that names no audience. -/
structure Harmless (depth : Nat) (members : List (Option String × Json)) : Prop where
  issuer : IfThere "iss" members fun j => j.readable depth = true
  audience : IfThere "aud" members fun j => j.readable depth = true ∧ namesAudience j = false

/-- No beginning is named, or one that has come. -/
def Begun (now : Nat) (members : List (Option String × Json)) : Prop :=
  IfThere "nbf" members fun j =>
    ∃ n seconds, j = .number n ∧ TimeClaim.ofNumber n = .at seconds ∧ seconds ≤ now + leeway

theorem exists_begun_iff : (∃ t, ReadsD "nbf" members depth .absent TimeClaim.decoder t ∧
    t.Begun now) ↔ Begun now members := by
  have habsent : TimeClaim.Begun now .absent := trivial
  rw [exists_readsD_iff habsent]
  simp only [TimeClaim.begun_iff, Begun]

theorem exists_issuer_iff : (∃ j, ReadsD "iss" members depth .null .value j) ↔
    IfThere "iss" members fun j => j.readable depth = true := by
  have h : (∃ j, ReadsD "iss" members depth .null .value j ∧ True) ↔ _ := exists_readsD_iff trivial
  simpa [value_eq_ok_iff] using h

theorem exists_audience_iff : (∃ j, ReadsD "aud" members depth .null .value j ∧
    namesAudience j = false) ↔
    IfThere "aud" members fun j => j.readable depth = true ∧ namesAudience j = false := by
  rw [exists_readsD_iff (q := fun j => namesAudience j = false) rfl]
  simp [value_eq_ok_iff]

/-- What is found in a harmless payload depends on its beginning alone. -/
theorem checked_of_harmless (h : Claims.decoder (depth + 1) (.object members) = .ok claims)
    (hharmless : Harmless depth members) :
    Checked.decoder (depth + 1) (.object members) = .ok checked ↔
      ReadsD "nbf" members depth .absent TimeClaim.decoder checked.notBefore ∧
        checked.audience = false := by
  obtain ⟨issuer, hissuer⟩ := exists_issuer_iff.2 hharmless.issuer
  obtain ⟨audience, haudience, hnone⟩ := exists_audience_iff.2 hharmless.audience
  rw [checked_eq_ok_iff h]
  constructor
  · rintro ⟨hnbf, -, j, hj, hnames⟩
    exact ⟨hnbf, by rw [← hnames, hj.unique haudience, hnone]⟩
  · rintro ⟨hnbf, hchecked⟩
    exact ⟨hnbf, ⟨issuer, hissuer⟩, audience, haudience, hnone.trans hchecked.symm⟩

/-! ## How a genuine token is judged -/

theorem validate_eq_ok_iff (h : Bears v token members claims) {c : Claims} :
    v.validate now token = .ok c ↔
      ∃ checked, Checked.decoder (claimDepth + 1) (.object members) = .ok checked ∧
        checkTimes now claims checked = .ok () ∧ claims.check = .ok c := by
  rw [validate_eq h]
  cases Checked.decoder (claimDepth + 1) (.object members) with
  | error e => simp [Except.toOption, judge]
  | ok checked =>
    simp only [Except.toOption, judge, Except.ok.injEq, exists_eq_left']
    cases checkTimes now claims checked <;> simp [bind, Except.bind]

/-- Two tokens with the same claims are judged alike if the checks find the same in both. -/
theorem validate_congr {v' : Validator} {token' : String} (h : Bears v token members claims)
    (h' : Bears v' token' members' claims)
    (hfound : ∀ checked, Checked.decoder (claimDepth + 1) (.object members') = .ok checked ↔
      Checked.decoder (claimDepth + 1) (.object members) = .ok checked) :
    v'.validate now token' = v.validate now token := by
  rw [validate_eq h, validate_eq h']
  congr 1
  cases hread : Checked.decoder (claimDepth + 1) (.object members) with
  | ok checked => rw [(hfound checked).2 hread]
  | error e =>
    cases hread' : Checked.decoder (claimDepth + 1) (.object members') with
    | ok checked =>
      rw [(hfound checked).1 hread'] at hread
      cases hread
    | error e' => rfl

/-- **How a genuine token is judged.** -/
structure Judged (v : Validator) (now : Nat) (token : String)
    (members : List (Option String × Json)) (claims : Claims) : Prop where
  /-- It is accepted if its subject and its times can be used and nothing else does harm, and then
  with exactly its claims. -/
  accepted : ∀ c, v.validate now token = .ok c ↔ c = claims ∧ claims.Usable ∧
    claims.Unexpired now ∧ Begun now members ∧ Harmless claimDepth members
  /-- What is neither a claim nor one of three others does not count, whatever it is. -/
  others : ∀ v' token' members', Bears v' token' members' claims →
    (∀ name ∈ ["nbf", "iss", "aud"], valuesFor name members' = valuesFor name members) →
    v'.validate now token' = v.validate now token
  /-- A harmless issuer and an `aud` without an audience do not count either. -/
  harmless : ∀ v' token' members', Bears v' token' members' claims →
    valuesFor "nbf" members' = valuesFor "nbf" members →
    Harmless claimDepth members → Harmless claimDepth members' →
    v'.validate now token' = v.validate now token
  /-- With an audience, it is refused although everything else is right. -/
  audience : ∀ j, valuesFor "aud" members = [j] → j.readable claimDepth = true →
    namesAudience j = true → IfThere "iss" members (fun j => j.readable claimDepth = true) →
    claims.Unexpired now → Begun now members →
    v.validate now token = .error (.undecodable .invalidAudience)

theorem validate_judged (h : Bears v token members claims) (now : Nat) :
    Judged v now token members claims where
  accepted := by
    intro c
    rw [validate_eq_ok_iff h]
    constructor
    · rintro ⟨checked, hfound, htimes, hcheck⟩
      obtain ⟨hnbf, hiss, j, haud, hnames⟩ := (checked_eq_ok_iff h.decoded).1 hfound
      obtain ⟨hunexpired, hbegun, hnone⟩ := checkTimes_eq_ok_iff.1 htimes
      obtain ⟨rfl, husable⟩ := check_eq_ok_iff.1 hcheck
      exact ⟨rfl, husable, hunexpired, exists_begun_iff.1 ⟨_, hnbf, hbegun⟩,
        exists_issuer_iff.1 hiss, exists_audience_iff.1 ⟨j, haud, hnames.trans hnone⟩⟩
    · rintro ⟨rfl, husable, hunexpired, hbegun, hharmless⟩
      obtain ⟨t, hnbf, ht⟩ := exists_begun_iff.2 hbegun
      exact ⟨⟨t, false⟩, (checked_of_harmless h.decoded hharmless).2 ⟨hnbf, rfl⟩,
        checkTimes_eq_ok_iff.2 ⟨hunexpired, ht, rfl⟩, check_eq_ok_iff.2 ⟨rfl, husable⟩⟩
  others := by
    intro v' token' members' h' hsame
    refine validate_congr h h' fun checked => ?_
    simp only [List.forall_mem_cons] at hsame
    obtain ⟨hnbf, hiss, haud, -⟩ := hsame
    rw [checked_eq_ok_iff h.decoded, checked_eq_ok_iff h'.decoded]
    simp only [ReadsD, Reads, hnbf, hiss, haud]
  harmless := by
    intro v' token' members' h' hnbf hharmless hharmless'
    refine validate_congr h h' fun checked => ?_
    rw [checked_of_harmless h.decoded hharmless, checked_of_harmless h'.decoded hharmless']
    simp only [ReadsD, Reads, hnbf]
  audience := by
    intro j hone hreadable hnames hissuer hunexpired hbegun
    obtain ⟨t, hnbf, ht⟩ := exists_begun_iff.2 hbegun
    obtain ⟨issuer, hiss⟩ := exists_issuer_iff.2 hissuer
    have haud : ReadsD "aud" members claimDepth .null .value j :=
      .inr ⟨j, hone, value_eq_ok_iff.2 ⟨hreadable, rfl⟩⟩
    have hfound : Checked.decoder (claimDepth + 1) (.object members) = .ok ⟨t, true⟩ :=
      (checked_eq_ok_iff h.decoded).2 ⟨hnbf, ⟨issuer, hiss⟩, j, haud, hnames⟩
    rw [validate_eq h, hfound]
    have htimes : checkTimes now claims ⟨t, true⟩ = .error (.undecodable .invalidAudience) :=
      checkTimes_of_begun hunexpired ht
    simp only [Except.toOption, judge, htimes]
    rfl

theorem validate_judged_issued :
    let v := Validator.ofSecret "k"
    let token := "eyJhbGciOiJIUzI1NiJ9" ++
      ".eyJzdWIiOiJvbmUiLCJleHAiOjk5OTk5OTk5OTksImlhdCI6MCwiaXNzIjoieCJ9" ++
      ".r0ohAfMuyuIqhsaB5lb3ebQRAxxgLHRtVXMV8Yl88EY"
    let claims : Claims := { subject := "one", expires := 9999999999, issued := 0 }
    ∃ members, Bears v token members claims ∧ valuesFor "iss" members ≠ [] ∧
      Judged v 0 token members claims ∧ v.validate 0 token = .ok claims := by
  intro v token claims
  let parts : Parts := ⟨"eyJhbGciOiJIUzI1NiJ9",
    "eyJzdWIiOiJvbmUiLCJleHAiOjk5OTk5OTk5OTksImlhdCI6MCwiaXNzIjoieCJ9",
    "r0ohAfMuyuIqhsaB5lb3ebQRAxxgLHRtVXMV8Yl88EY"⟩
  have hgenuine : v.genuine token = .ok parts := by decide +kernel
  have hpayload : (members? parts.payload).any (fun members =>
      (valuesFor "nbf" members).isEmpty && (valuesFor "aud" members).isEmpty &&
        (valuesFor "iss" members).length == 1 &&
        (valuesFor "iss" members).all (·.readable claimDepth)) = true := by decide +kernel
  have hclaims : decodePart Claims.decoder parts.payload = .ok claims := by decide +kernel
  obtain ⟨hparts, hsigned⟩ := genuine_eq_ok_iff.1 hgenuine
  obtain ⟨members, hmembers, hvalues⟩ := (Option.any_eq_true ..).1 hpayload
  simp only [Bool.and_eq_true, List.isEmpty_iff, beq_iff_eq, List.all_eq_true] at hvalues
  obtain ⟨⟨⟨hnbf, haud⟩, hone⟩, hreadable⟩ := hvalues
  obtain ⟨j, hiss⟩ := List.length_eq_one_iff.1 hone
  have hbears : Bears v token members claims := ⟨parts, hparts, hsigned, hmembers, hclaims⟩
  have hharmless : Harmless claimDepth members :=
    ⟨.inr ⟨j, hiss, hreadable j (by simp [hiss])⟩, .inl haud⟩
  have hjudged := validate_judged hbears 0
  exact ⟨members, hbears, by simp [hiss], hjudged, (hjudged.accepted claims).2
    ⟨rfl, by decide +kernel, by decide +kernel, .inl hnbf, hharmless⟩⟩

/-- **A token is refused for its audience alone**, although nothing that should be checked is
wrong. -/
theorem audience_refused :
    ¬ ∀ (v : Validator) (now : Nat) (token : String) (members : List (Option String × Json))
        (claims : Claims), Bears v token members claims → claims.Usable →
      (now : Int) < claims.expires →
      (IfThere "nbf" members fun j =>
        ∃ n seconds, j = .number n ∧ TimeClaim.ofNumber n = .at seconds ∧ seconds ≤ now) →
      v.validate now token = .ok claims := by
  intro h
  let v := Validator.ofSecret "k"
  let token := "eyJhbGciOiJIUzI1NiJ9" ++
    ".eyJzdWIiOiJvbmUiLCJleHAiOjk5OTk5OTk5OTksImlhdCI6MCwiYXVkIjoieCJ9" ++
    ".De_M8hWBDNJtfvDzQOx7Z0z4-zkY6UilkKRRMqdyNgo"
  let parts : Parts := ⟨"eyJhbGciOiJIUzI1NiJ9",
    "eyJzdWIiOiJvbmUiLCJleHAiOjk5OTk5OTk5OTksImlhdCI6MCwiYXVkIjoieCJ9",
    "De_M8hWBDNJtfvDzQOx7Z0z4-zkY6UilkKRRMqdyNgo"⟩
  let claims : Claims := { subject := "one", expires := 9999999999, issued := 0 }
  have hgenuine : v.genuine token = .ok parts := by decide +kernel
  have hpayload : (members? parts.payload).any (fun members =>
      (valuesFor "nbf" members).isEmpty &&
        (Checked.decoder (claimDepth + 1) (.object members)).toOption = some ⟨.absent, true⟩)
      = true := by decide +kernel
  have hclaims : decodePart Claims.decoder parts.payload = .ok claims := by decide +kernel
  obtain ⟨hparts, hsigned⟩ := genuine_eq_ok_iff.1 hgenuine
  obtain ⟨members, hmembers, hvalues⟩ := (Option.any_eq_true ..).1 hpayload
  simp only [Bool.and_eq_true, List.isEmpty_iff, decide_eq_true_eq] at hvalues
  have hbears : Bears v token members claims := ⟨parts, hparts, hsigned, hmembers, hclaims⟩
  have hanswer := h v 0 token members claims hbears (by decide +kernel) (by decide +kernel)
    (.inl hvalues.1)
  rw [validate_eq hbears, hvalues.2] at hanswer
  exact absurd hanswer (by decide +kernel)

end TabBoard.Auth
