import TabBoard.Auth.Subject
import Mathlib.Data.List.Count
import Mathlib.Data.List.Nodup
import Mathlib.Data.List.Perm.Basic

/-!
# Headers in any order

Headers that come as a table have distinct names and no order. The search for a token takes the
first usable one that it meets, so what it can find are the tokens on offer (`offers`): those of the
bearer headers, or else those of the cookies.

**Theorem (`orders_judged`).** In every order a token is found if one is on offer, it is one of
those on offer, and a bearer token wins wherever it stands. The order does not matter exactly if
what is on offer is all the same, so in particular if no two names differ only in their case.

Distinct names are not enough, because the search does not look at case: `order_decides` gives two
orders of the same headers that bind two subjects.
-/

namespace TabBoard.Auth

variable {headers headers' : Headers} {cookieName token : String}

/-! ## The tokens on offer -/

/-- The usable tokens of the `authorization` headers. -/
def bearerTokens (headers : Headers) : List String :=
  (valuesOf "authorization" headers).filterMap bearer?

/-- The usable tokens among the cookies of the given name, the first of each header. -/
def cookieTokens (cookieName : String) (headers : Headers) : List String :=
  (valuesOf "cookie" headers).filterMap (cookie? cookieName)

/-- The tokens that can be found: the cookies count only if no header bears a token. -/
def offers (headers : Headers) (cookieName : String) : List String :=
  if bearerTokens headers = [] then cookieTokens cookieName headers else bearerTokens headers

def firstToken : List String → Except Error String
  | [] => .error .missingToken
  | token :: _ => .ok token

theorem accessToken_eq (headers : Headers) (cookieName : String) :
    accessToken headers cookieName = firstToken (offers headers cookieName) := by
  have hbearer : (valuesOf "authorization" headers).findSome? bearer? =
      (bearerTokens headers).head? := List.head?_filterMap.symm
  have hcookie : (valuesOf "cookie" headers).findSome? (cookie? cookieName) =
      (cookieTokens cookieName headers).head? := List.head?_filterMap.symm
  rw [accessToken, hbearer, hcookie, offers]
  cases bearerTokens headers with
  | cons token tokens => rfl
  | nil => cases cookieTokens cookieName headers <;> rfl

theorem valuesOf_perm (h : headers'.Perm headers) (name : String) :
    (valuesOf name headers').Perm (valuesOf name headers) := (h.filter _).map _

theorem bearerTokens_perm (h : headers'.Perm headers) :
    (bearerTokens headers').Perm (bearerTokens headers) :=
  (valuesOf_perm h "authorization").filterMap bearer?

theorem cookieTokens_perm (h : headers'.Perm headers) (cookieName : String) :
    (cookieTokens cookieName headers').Perm (cookieTokens cookieName headers) :=
  (valuesOf_perm h "cookie").filterMap (cookie? cookieName)

theorem offers_perm (h : headers'.Perm headers) (cookieName : String) :
    (offers headers' cookieName).Perm (offers headers cookieName) := by
  have hbearer := bearerTokens_perm h
  have hnil : bearerTokens headers' = [] ↔ bearerTokens headers = [] :=
    ⟨fun hn => (hn ▸ hbearer).nil_eq.symm, fun hn => (hn ▸ hbearer).eq_nil⟩
  simp only [offers, hnil]
  split_ifs
  · exact cookieTokens_perm h cookieName
  · exact hbearer

/-- **What is on offer does not depend on the order**, only which of it comes first. -/
theorem accessToken_perm (h : headers'.Perm headers) (cookieName : String) :
    (∃ token ∈ offers headers cookieName, accessToken headers' cookieName = .ok token) ∨
      offers headers cookieName = [] ∧
        accessToken headers' cookieName = .error .missingToken := by
  have hoffers := offers_perm h cookieName
  rw [accessToken_eq]
  cases hnew : offers headers' cookieName with
  | nil => exact .inr ⟨(hnew ▸ hoffers).nil_eq.symm, rfl⟩
  | cons token tokens =>
    exact .inl ⟨token, hoffers.mem_iff.1 (hnew ▸ List.mem_cons_self), rfl⟩

/-! ## Every token on offer comes first in some order -/

/-- A usable value of a header of the given name stands in one of the headers. -/
theorem exists_of_mem_values {name : String} {f : String → Option String}
    (h : token ∈ (valuesOf name headers).filterMap f) :
    ∃ header ∈ headers, Text.sameIgnoringCase header.1 name = true ∧ f header.2 = some token := by
  obtain ⟨value, hvalue, hf⟩ := List.mem_filterMap.1 h
  obtain ⟨header, hheader, rfl⟩ := List.mem_map.1 hvalue
  obtain ⟨hmem, hname⟩ := List.mem_filter.1 hheader
  exact ⟨header, hmem, hname, hf⟩

/-- With the header that has it in front, its value is the first. -/
theorem values_cons {name : String} {f : String → Option String} {header : String × String}
    (hname : Text.sameIgnoringCase header.1 name = true) (hf : f header.2 = some token)
    (rest : Headers) : (valuesOf name (header :: rest)).filterMap f =
      token :: (valuesOf name rest).filterMap f := by
  simp only [valuesOf, List.filter_cons, hname, if_true, List.map_cons, List.filterMap_cons, hf]

theorem exists_perm_of_offer (h : token ∈ offers headers cookieName) :
    ∃ headers' : Headers, headers'.Perm headers ∧
      accessToken headers' cookieName = .ok token := by
  by_cases hbearer : bearerTokens headers = []
  · -- no order brings a bearer token in front of the cookie
    rw [offers, if_pos hbearer] at h
    obtain ⟨header, hmem, hname, hcookie⟩ := exists_of_mem_values h
    have hperm : (header :: headers.erase header).Perm headers :=
      (List.perm_cons_erase hmem).symm
    have hnone : bearerTokens (header :: headers.erase header) = [] :=
      (hbearer ▸ bearerTokens_perm hperm).eq_nil
    refine ⟨_, hperm, ?_⟩
    rw [accessToken_eq, offers, if_pos hnone, cookieTokens, values_cons hname hcookie]
    rfl
  · rw [offers, if_neg hbearer] at h
    obtain ⟨header, hmem, hname, htoken⟩ := exists_of_mem_values h
    refine ⟨header :: headers.erase header, (List.perm_cons_erase hmem).symm, ?_⟩
    rw [accessToken_eq, offers, bearerTokens, values_cons hname htoken,
      if_neg (List.cons_ne_nil _ _)]
    rfl

/-- **Nothing depends on the order exactly if nothing tells the tokens on offer apart.** -/
theorem forall_perm_iff {β : Type} (f : Except Error String → β) :
    (∀ headers' : Headers, headers'.Perm headers →
      f (accessToken headers' cookieName) = f (accessToken headers cookieName)) ↔
    ∀ token ∈ offers headers cookieName, ∀ token' ∈ offers headers cookieName,
      f (.ok token) = f (.ok token') := by
  constructor
  · intro h token htoken token' htoken'
    obtain ⟨first, hfirst, hfound⟩ := exists_perm_of_offer htoken
    obtain ⟨first', hfirst', hfound'⟩ := exists_perm_of_offer htoken'
    rw [← hfound, ← hfound', h first hfirst, h first' hfirst']
  · intro h headers' hperm
    obtain ⟨token, htoken, hfound⟩ | ⟨hnone, hfound⟩ := accessToken_perm hperm cookieName
    · obtain ⟨token', htoken', hfound'⟩ | ⟨hnone, -⟩ :=
        accessToken_perm (List.Perm.refl headers) cookieName
      · rw [hfound, hfound', h token htoken token' htoken']
      · rw [hnone] at htoken
        cases htoken
    · rw [hfound, accessToken_eq, hnone, firstToken]

/-! ## Names that differ in more than their case -/

/-- Names are distinct also when their case is ignored. -/
def DistinctNames (headers : Headers) : Prop :=
  (headers.map fun h => Text.asciiLower h.1).Nodup

theorem length_values_le (h : DistinctNames headers) (name : String)
    (f : String → Option String) : ((valuesOf name headers).filterMap f).length ≤ 1 := by
  have hcount : (headers.map fun h => Text.asciiLower h.1).count (Text.asciiLower name) ≤ 1 :=
    List.nodup_iff_count_le_one.1 h _
  have hlength : (valuesOf name headers).length =
      (headers.map fun h => Text.asciiLower h.1).count (Text.asciiLower name) := by
    rw [valuesOf, List.length_map, List.count, List.countP_map, List.countP_eq_length_filter]
    rfl
  exact Nat.le_trans (List.length_filterMap_le _ _) (hlength ▸ hcount)

theorem offers_same (h : DistinctNames headers) {token' : String}
    (htoken : token ∈ offers headers cookieName) (htoken' : token' ∈ offers headers cookieName) :
    token = token' := by
  have hlength : (offers headers cookieName).length ≤ 1 := by
    rw [offers]
    split_ifs
    · exact length_values_le h _ _
    · exact length_values_le h _ _
  rcases hoffers : offers headers cookieName with _ | ⟨first, _ | ⟨second, rest⟩⟩
  · rw [hoffers] at htoken
    cases htoken
  · rw [hoffers, List.mem_singleton] at htoken htoken'
    rw [htoken, htoken']
  · rw [hoffers] at hlength
    simp at hlength

/-! ## The subject -/

/-- The subject behind what was found. -/
def Policy.subjectBehind (p : Policy) (now : Nat) (found : Except Error String) : Option String :=
  if !p.enabled then some localUser
  else
    match p.validator, found with
    | some v, .ok token => ((v.validate now token).map (·.subject)).toOption
    | _, _ => none

theorem subject?_eq_behind (p : Policy) (now : Nat) (headers : Headers) :
    p.subject? now headers = p.subjectBehind now (accessToken headers p.cookieName) := rfl

/-- **What the order of the headers can change.** -/
structure OrdersJudged (headers : Headers) : Prop where
  /-- In every order one of the tokens on offer is found, if there is one. -/
  found : ∀ (cookieName : String) (headers' : Headers), headers'.Perm headers →
    (∃ token ∈ offers headers cookieName, accessToken headers' cookieName = .ok token) ∨
      offers headers cookieName = [] ∧
        accessToken headers' cookieName = .error .missingToken
  /-- A usable bearer token wins over the cookies, wherever it stands. -/
  bearer : bearerTokens headers ≠ [] → ∀ (cookieName : String) (headers' : Headers),
    headers'.Perm headers →
    ∃ token ∈ bearerTokens headers, accessToken headers' cookieName = .ok token
  /-- The token is the same in every order exactly if all that is on offer is the same. -/
  token : ∀ cookieName : String,
    (∀ headers' : Headers, headers'.Perm headers →
      accessToken headers' cookieName = accessToken headers cookieName) ↔
    ∀ token ∈ offers headers cookieName, ∀ token' ∈ offers headers cookieName, token = token'
  /-- The subject is the same in every order exactly if all that is on offer shows the same. -/
  subject : ∀ (p : Policy) (now : Nat),
    (∀ headers' : Headers, headers'.Perm headers →
      p.subject? now headers' = p.subject? now headers) ↔
    ∀ token ∈ offers headers p.cookieName, ∀ token' ∈ offers headers p.cookieName,
      p.subjectBehind now (.ok token) = p.subjectBehind now (.ok token')
  /-- If no two names differ only in their case, the order does not matter. -/
  distinct : DistinctNames headers → ∀ headers' : Headers, headers'.Perm headers →
    (∀ cookieName, accessToken headers' cookieName = accessToken headers cookieName) ∧
    ∀ (p : Policy) (now : Nat), p.subject? now headers' = p.subject? now headers

theorem orders_judged (headers : Headers) : OrdersJudged headers where
  found cookieName _ h := accessToken_perm h cookieName
  bearer := by
    intro hbearer cookieName headers' hperm
    have hoffers : offers headers cookieName = bearerTokens headers := if_neg hbearer
    obtain hfound | ⟨hnone, -⟩ := accessToken_perm hperm cookieName
    · rwa [hoffers] at hfound
    · exact absurd (hoffers ▸ hnone) hbearer
  token cookieName := (forall_perm_iff id).trans (by simp only [id, Except.ok.injEq])
  subject p now := forall_perm_iff (p.subjectBehind now)
  distinct := by
    intro hdistinct headers' hperm
    have hsame : ∀ cookieName,
        accessToken headers' cookieName = accessToken headers cookieName := by
      intro cookieName
      refine (forall_perm_iff id).2 ?_ headers' hperm
      intro token htoken token' htoken'
      rw [offers_same hdistinct htoken htoken']
    refine ⟨hsame, fun p now => ?_⟩
    rw [subject?_eq_behind, subject?_eq_behind, hsame]

/-- **Two orders of the same headers give two subjects**, although no two names are equal. -/
theorem order_decides :
    ¬ ∀ headers headers' : Headers, (headers.map (·.1)).Nodup → headers'.Perm headers →
      (∀ cookieName, accessToken headers' cookieName = accessToken headers cookieName) ∧
      ∀ (p : Policy) (now : Nat), p.subject? now headers' = p.subject? now headers := by
  intro h
  let one := "Bearer eyJhbGciOiJIUzI1NiJ9" ++
    ".eyJzdWIiOiJvbmUiLCJleHAiOjk5OTk5OTk5OTksImlhdCI6MH0" ++
    ".NcZij7w2LE69dA79q8s5BSm4UHiWsCRX8ZeCtTww714"
  let two := "Bearer eyJhbGciOiJIUzI1NiJ9" ++
    ".eyJzdWIiOiJ0d28iLCJleHAiOjk5OTk5OTk5OTksImlhdCI6MH0" ++
    ".ty06yFN7IF_GRSCQwFhJr5UttZu_RQ4a3dVFAolUJNE"
  let p : Policy := { enabled := true, validator := some (Validator.ofSecret "k") }
  have hsame := (h [("authorization", one), ("Authorization", two)]
    [("Authorization", two), ("authorization", one)] (by decide) (.swap ..)).2 p 0
  have hone : p.subject? 0 [("authorization", one), ("Authorization", two)] = some "one" := by
    decide +kernel
  have htwo : p.subject? 0 [("Authorization", two), ("authorization", one)] = some "two" := by
    decide +kernel
  rw [hone, htwo] at hsame
  exact absurd hsame (by decide)

end TabBoard.Auth
