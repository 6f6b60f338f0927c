import TabBoard.Auth.Extract
import TabBoard.Config.Validate
import TabBoard.Proofs.Percent
import TabBoard.Proofs.Trimming

/-!
# Names of cookies

The token is looked for in the cookie of a configured name. A name stands in a header only between
blanks, in front of an equals sign and between semicolons, so a name with any of these in it, or
with blanks at its ends, is never met (`IsPlain`). The check of the configuration asks only whether
the name is blank.

**Theorem (`names_judged`).** If the name of an accepted configuration is plain, then every token
that a header shows under that name is found, whatever other cookies stand around it; if it is not,
then no header ever yields a token.

So not every accepted name works: `padded_name_finds_none` has one with a blank behind it.
-/

namespace TabBoard

namespace Text

variable {p : Char → Bool} {sep : Char} {cs before : List Char}

theorem splitOnce_of_not_mem (h : sep ∉ cs) : splitOnce sep cs = none := by
  have hall : cs.dropWhile (· != sep) = [] := by
    refine List.dropWhile_eq_nil_iff.2 fun c hc => bne_iff_ne.2 ?_
    rintro rfl
    exact h hc
  rw [splitOnce, hall]

/-- Trimming changes nothing at the separator. -/
theorem splitOnce_trimBy (hp : p sep = false) (h : sep ∉ before) (behind : List Char) :
    splitOnce sep (trimBy p (before ++ sep :: behind)) =
      some (trimStartBy p before, trimEndBy p behind) := by
  rw [trimBy, trimStartBy, dropWhile_stop hp, trimEndBy_stop hp]
  exact splitOnce_append (fun hmem => h ((List.dropWhile_sublist p).subset hmem)) _

/-- No separator stands in a piece. -/
theorem not_mem_of_mem_splitAll {piece : List Char} (h : piece ∈ splitAll sep cs) :
    sep ∉ piece := by
  induction cs generalizing piece with
  | nil =>
    rw [splitAll, List.mem_singleton] at h
    simp [h]
  | cons c cs ih =>
    unfold splitAll at h
    split_ifs at h with hc
    · obtain rfl | hmem := List.mem_cons.1 h
      · simp
      · exact ih hmem
    · cases hs : splitAll sep cs with
      | nil => exact absurd hs (splitAll_ne_nil sep cs)
      | cons first pieces =>
        rw [hs] at h ih
        obtain rfl | hmem := List.mem_cons.1 h
        · exact List.not_mem_cons_of_ne_of_not_mem (Ne.symm hc) (ih List.mem_cons_self)
        · exact ih (List.mem_cons_of_mem first hmem)

end Text

namespace Auth

open Text

variable {name token value v : String} {piece key : List Char} {headers : Headers}

/-! ## The pairs of a header -/

theorem nonBlank_eq_some_iff {cs : List Char} :
    nonBlank cs = some v ↔ trimBy isBlank cs = v.toList ∧ v ≠ "" := by
  unfold nonBlank
  cases h : trimBy isBlank cs with
  | nil =>
    refine iff_of_false (by simp) fun hv => hv.2 ?_
    rw [← String.toList_inj, ← hv.1]
    rfl
  | cons c rest =>
    constructor
    · rintro ⟨⟩
      exact ⟨String.toList_ofList.symm, by simp [← String.toList_inj]⟩
    · rintro ⟨hv, -⟩
      exact congrArg some (by rw [hv, String.ofList_toList])

/-- A piece has the value under the name: what stands in front of the first equals sign is the name
between blanks, and what stands behind it is the value between blanks. -/
theorem cookieValue?_eq_some_iff : cookieValue? name piece = some v ↔
    ∃ key value, piece = key ++ '=' :: value ∧ '=' ∉ key ∧ trimBy isBlank key = name.toList ∧
      nonBlank value = some v := by
  unfold cookieValue?
  by_cases hmem : '=' ∈ piece
  · obtain ⟨key, value, rfl, hnot⟩ := List.eq_append_cons_of_mem hmem
    have hname : String.ofList (trimBy isBlank key) = name ↔ trimBy isBlank key = name.toList := by
      rw [← String.toList_inj, String.toList_ofList]
    have hvalue : nonBlank (trimEndBy isBlank value) = nonBlank value := by
      rw [nonBlank, nonBlank, trimBy_trimEndBy]
    have hsplit : splitOnce '=' (trimBy isBlank (key ++ '=' :: value)) =
        some (trimStartBy isBlank key, trimEndBy isBlank value) :=
      splitOnce_trimBy (by decide) hnot value
    simp only [hsplit, trimBy_trimStartBy, hname, hvalue]
    constructor
    · intro h
      split_ifs at h with hkey
      exact ⟨key, value, rfl, hnot, hkey, h⟩
    · rintro ⟨key', value', hsplit, hnot', hkey, hv⟩
      obtain ⟨rfl, rfl⟩ : key = key' ∧ value = value' := by
        have := (splitOnce_append hnot value).symm.trans (hsplit ▸ splitOnce_append hnot' value')
        simpa using this
      rw [if_pos hkey, hv]
  · have hnone : splitOnce '=' (trimBy isBlank piece) = none :=
      splitOnce_of_not_mem fun h => hmem (mem_of_mem_trimBy h)
    rw [hnone]
    refine iff_of_false (by simp) ?_
    rintro ⟨key, value, rfl, -⟩
    exact hmem (by simp)

structure IsPlain (name : String) : Prop where
  trimmed : trimmed name = name
  equals : '=' ∉ name.toList
  semicolon : ';' ∉ name.toList

/-- **A name under which a piece has a value is plain.** -/
theorem isPlain_of_cookieValue? (h : cookieValue? name piece = some v) (hpiece : ';' ∉ piece) :
    IsPlain name := by
  obtain ⟨key, value, rfl, hequals, hkey, -⟩ := cookieValue?_eq_some_iff.1 h
  refine ⟨?_, fun hmem => hequals (mem_of_mem_trimBy (hkey ▸ hmem)), fun hmem => hpiece ?_⟩
  · rw [trimmed_eq_self_iff, ← hkey]
    exact tidy_trimBy isBlank key
  · exact List.mem_append_left _ (mem_of_mem_trimBy (hkey ▸ hmem))

/-! ## Headers that show a token -/

/-- The name in front of the equals sign of a pair. -/
def pieceName? (piece : List Char) : Option String :=
  (splitOnce '=' piece).map fun pair => String.ofList (trimBy isBlank pair.1)

theorem cookieValue?_of_other (h : pieceName? piece ≠ some name) :
    cookieValue? name piece = none := by
  rw [Option.eq_none_iff_forall_ne_some]
  intro v hv
  obtain ⟨key, value, rfl, hequals, hkey, -⟩ := cookieValue?_eq_some_iff.1 hv
  apply h
  rw [pieceName?, splitOnce_append hequals, Option.map_some, hkey, String.ofList_toList]

structure IsToken (token : String) : Prop where
  ne_empty : token ≠ ""
  tidy : Tidy isBlank token.toList
  semicolon : ';' ∉ token.toList

/-- The text of a cookie header shows the token under the name, in one pair among others that have
other names. -/
structure Shows (name token value : String) (before after : List (List Char))
    (lead trail : List Char) : Prop where
  text : value.toList = List.intercalate [';']
    (before ++ (lead ++ name.toList ++ '=' :: (token.toList ++ trail)) :: after)
  lead : ∀ c ∈ lead, isBlank c = true
  trail : ∀ c ∈ trail, isBlank c = true
  others : ∀ piece ∈ before ++ after, ';' ∉ piece ∧ pieceName? piece ≠ some name

/-- Headers without a bearer token, of which one shows the token under the name; no other cookie
header has a cookie of that name. -/
def Presents (headers : Headers) (name token : String) : Prop :=
  valuesOf "authorization" headers = [] ∧
  ∃ front value rest before after lead trail, valuesOf "cookie" headers = front ++ value :: rest ∧
    Shows name token value before after lead trail ∧
    ∀ other ∈ front ++ rest, ∀ piece ∈ splitAll ';' other.toList, pieceName? piece ≠ some name

variable {before after : List (List Char)} {lead trail : List Char}

theorem cookieValue?_pair (hname : IsPlain name) (htoken : IsToken token)
    (h : Shows name token value before after lead trail) :
    cookieValue? name (lead ++ name.toList ++ '=' :: (token.toList ++ trail)) = some token := by
  refine cookieValue?_eq_some_iff.2 ⟨lead ++ name.toList, token.toList ++ trail, rfl, ?_, ?_, ?_⟩
  · intro hmem
    obtain hlead | hmem := List.mem_append.1 hmem
    · exact absurd (h.lead _ hlead) (by decide)
    · exact hname.equals hmem
  · have hpadded := trimBy_padded h.lead (List.forall_mem_nil _)
      (trimmed_eq_self_iff.1 hname.trimmed)
    rwa [List.append_nil] at hpadded
  · have hpadded := trimBy_padded (List.forall_mem_nil _) h.trail htoken.tidy
    exact nonBlank_eq_some_iff.2 ⟨hpadded, htoken.ne_empty⟩

/-- **A header that shows a token under a plain name yields it.** -/
theorem Shows.cookie? (h : Shows name token value before after lead trail) (hname : IsPlain name)
    (htoken : IsToken token) : cookie? name value = some token := by
  have hothers : ∀ pieces ⊆ before ++ after, pieces.findSome? (cookieValue? name) = none := by
    intro pieces hpieces
    exact List.findSome?_eq_none_iff.2 fun piece hpiece =>
      cookieValue?_of_other (h.others piece (hpieces hpiece)).2
  have hblank : ∀ {cs : List Char}, (∀ c ∈ cs, isBlank c = true) → ';' ∉ cs :=
    fun hcs hmem => absurd (hcs _ hmem) (by decide)
  have hpair : ';' ∉ lead ++ name.toList ++ '=' :: (token.toList ++ trail) := by
    simp [hblank h.lead, hblank h.trail, hname.semicolon, htoken.semicolon]
  have hpieces : splitAll ';' value.toList =
      before ++ (lead ++ name.toList ++ '=' :: (token.toList ++ trail)) :: after := by
    rw [h.text]
    refine splitAll_intercalate (by simp) fun piece hpiece => ?_
    obtain hmem | hmem := List.mem_append.1 hpiece
    · exact (h.others piece (List.mem_append_left _ hmem)).1
    obtain rfl | hmem := List.mem_cons.1 hmem
    · exact hpair
    · exact (h.others piece (List.mem_append_right _ hmem)).1
  rw [Auth.cookie?, hpieces, List.findSome?_append, hothers before (List.subset_append_left ..),
    List.findSome?_cons, cookieValue?_pair hname htoken h]
  rfl

theorem Presents.accessToken (h : Presents headers name token) (hname : IsPlain name)
    (htoken : IsToken token) : accessToken headers name = .ok token := by
  obtain ⟨hbearer, front, value, rest, before, after, lead, trail, hcookie, hshows, hothers⟩ := h
  have hfront : front.findSome? (cookie? name) = none := by
    refine List.findSome?_eq_none_iff.2 fun other hother => ?_
    exact List.findSome?_eq_none_iff.2 fun piece hpiece =>
      cookieValue?_of_other (hothers other (List.mem_append_left _ hother) piece hpiece)
  rw [Auth.accessToken, hbearer, hcookie, List.findSome?_append, hfront, List.findSome?_cons,
    hshows.cookie? hname htoken]
  rfl

/-- **A name that is not plain is never met.** -/
theorem accessToken_of_not_isPlain (hname : ¬ IsPlain name)
    (hbearer : valuesOf "authorization" headers = []) :
    accessToken headers name = .error .missingToken := by
  have hnone : (valuesOf "cookie" headers).findSome? (cookie? name) = none := by
    refine List.findSome?_eq_none_iff.2 fun value _ => ?_
    refine List.findSome?_eq_none_iff.2 fun piece hpiece => ?_
    rw [Option.eq_none_iff_forall_ne_some]
    intro v hv
    exact hname (isPlain_of_cookieValue? hv (not_mem_of_mem_splitAll hpiece))
  rw [accessToken, hbearer, hnone]
  rfl

/-! ## The check of the configuration -/

/-- The check looks at nothing but whether the name is blank. -/
theorem validate_withName {a : Config.Auth} {dir : String} {isFile : Bool}
    (h : a.validate dir isFile = .ok ()) :
    isBlankText a.cookieName = false ∧ ∀ name, isBlankText name = false →
      { a with cookieName := name }.validate dir isFile = .ok () := by
  unfold Config.Auth.validate at h ⊢
  cases hblank : isBlankText a.cookieName with
  | true =>
    rw [if_pos hblank] at h
    cases h
  | false =>
    refine ⟨rfl, fun name hname => ?_⟩
    rw [if_neg (by simp [hblank])] at h
    rw [if_neg (by simp [hname])]
    exact h

/-- **What becomes of an accepted name.** -/
structure NameJudged (a : Config.Auth) (dir : String) (isFile : Bool) : Prop where
  /-- Every name is accepted that is not blank. -/
  accepted : ∀ name, isBlankText name = false →
    { a with cookieName := name }.validate dir isFile = .ok ()
  /-- A plain name works: every token that is shown under it is found. -/
  works : IsPlain a.cookieName → ∀ headers token, IsToken token →
    Presents headers a.cookieName token → accessToken headers a.cookieName = .ok token
  /-- No other name works for any headers. -/
  fails : ¬ IsPlain a.cookieName → ∀ headers, valuesOf "authorization" headers = [] →
    accessToken headers a.cookieName = .error .missingToken

theorem names_judged (a : Config.Auth) (dir : String) (isFile : Bool)
    (h : a.validate dir isFile = .ok ()) : NameJudged a dir isFile where
  accepted := (validate_withName h).2
  works hname _ _ htoken hpresents := hpresents.accessToken hname htoken
  fails hname _ hbearer := accessToken_of_not_isPlain hname hbearer

/-- A token with equals signs in it, among other cookies. -/
theorem names_judged_default :
    NameJudged {} "/etc" false ∧
      accessToken [("Cookie", "theme=a=b; access_token=x=y ;lang=en")] "access_token" =
        .ok "x=y" := by
  have hjudged : NameJudged {} "/etc" false := names_judged {} "/etc" false rfl
  refine ⟨hjudged, hjudged.works ⟨by decide, by decide, by decide⟩ _ _
    ⟨by decide, by decide, by decide⟩ ⟨by decide, [], _, [], ["theme=a=b".toList],
      ["lang=en".toList], [' '], [' '], rfl,
      ⟨by decide, List.forall_mem_singleton.2 rfl, List.forall_mem_singleton.2 rfl, by decide⟩,
      by simp⟩⟩

/-- **A name with a blank behind it is accepted, and no cookie is ever found under it.** -/
theorem padded_name_finds_none :
    ¬ ∀ (a : Config.Auth) (dir : String) (isFile : Bool) (headers : Headers) (token : String),
      a.validate dir isFile = .ok () → IsToken token → Presents headers a.cookieName token →
      accessToken headers a.cookieName = .ok token := by
  intro h
  have hfound := h { cookieName := "access_token " } "/etc" false
    [("Cookie", "access_token =t")] "t" rfl ⟨by decide, by decide, by decide⟩
    ⟨by decide, [], _, [], [], [], [], [], rfl, ⟨by decide, by simp, by simp, by simp⟩, by simp⟩
  exact absurd hfound (by decide)

end Auth

end TabBoard
