import TabBoard.Proofs.Percent
import TabBoard.Url.Basic
import Mathlib.Data.List.Basic
import Mathlib.Data.Option.Basic

/-!
# URLs that go on from others

What becomes of a URL when segments are pushed onto its path and pairs are appended to its query.

A text *stands* as a segment if it is neither of the two dots once its tabs and line breaks are
dropped (`Stands`, `heard`). Texts that stand become one segment each, behind those that the URL has
(`foldl_pushSegment`), and what counts of each is read back from its segment. No mark that ends a
segment or the path is in one of them (`Leads`), so the request target of such a URL tells all the
texts, and the query (`Leads.eq_of_target`).
-/

namespace TabBoard.Url

open Text

/-! ## Segments -/

/-- A text without the characters that never count in a URL. -/
def heard (s : String) : String := String.ofList (s.toList.filter fun c => !isDropped c)

/-- A text that becomes a segment: what counts of it is not a dot or two. -/
def Stands (s : String) : Prop := heard s ≠ "." ∧ heard s ≠ ".."

/-- The text that a segment stands for. -/
def spelled? (segment : String) : Option String :=
  Utf8.decode? (Percent.decode (Utf8.encode segment))

/-- The marks that end a segment or the whole path. -/
def isMark (c : Char) : Bool := c == '/' || c == '?' || c == '#'

theorem Stands.ne_dots {s : String} (h : Stands s) : ¬(s = "." ∨ s = "..") := by
  intro hdots
  obtain rfl | rfl := hdots
  · exact h.1 (by decide)
  · exact h.2 (by decide)

theorem spelled?_encodeSegment (kind : SchemeKind) (s : String) :
    spelled? (encodeSegment kind s) = some s := by
  have hset : inSegmentSet kind '%' = true := by cases kind <;> decide
  rw [spelled?, encodeSegment, Percent.decode_encode hset, String.ofList_toList,
    Utf8.decode?_encode]

theorem not_mem_encodeSegment {mark : Char} (h : isMark mark = true) (kind : SchemeKind)
    (s : String) : mark ∉ (encodeSegment kind s).toList := by
  simp only [isMark, Bool.or_eq_true, beq_iff_eq] at h
  rw [encodeSegment, String.toList_ofList]
  apply Percent.not_mem_encode
  · obtain (rfl | rfl) | rfl := h <;> cases kind <;> decide
  · obtain (rfl | rfl) | rfl := h <;> decide

/-! ## Pushing -/

def withParts (u : Url) (parts : List String) : Url := { u with path := .segments parts }

/-- The segments that others are pushed behind: an empty one at the end gives way to them. -/
def root (u : Url) : List String :=
  match u.popEmptySegment.path with
  | .segments parts => if parts = [""] then [] else parts
  | .opaqueText _ => []

/-- The URL that goes on from the root of another by one segment for each of the names. -/
def onward (u : Url) (names : List String) : Url :=
  u.withParts (u.root ++ names.map (encodeSegment (schemeKind u.scheme)))

theorem pushSegment_withParts (u : Url) (parts : List String) {s : String} (hs : Stands s) :
    (u.withParts parts).pushSegment s = u.withParts
      ((if parts = [""] then [] else parts) ++
        [encodeSegment (schemeKind u.scheme) (heard s)]) := by
  have hpush : (Path.segments parts).push (schemeKind u.scheme) (heard s) = .segments
      ((if parts = [""] then [] else parts) ++
        [encodeSegment (schemeKind u.scheme) (heard s)]) := by
    rw [Path.push, if_neg hs.1, if_neg hs.2]
    split_ifs <;> rfl
  rw [pushSegment, if_neg hs.ne_dots]
  exact congrArg (fun p => { u with path := p }) hpush

/-- Behind segments that stay, each text adds its own. -/
theorem foldl_pushSegment (u : Url) {parts : List String} (hne : parts ≠ []) (hne' : parts ≠ [""])
    {names : List String} (hs : ∀ s ∈ names, Stands s) :
    names.foldl pushSegment (u.withParts parts) =
      u.withParts (parts ++ (names.map heard).map (encodeSegment (schemeKind u.scheme))) := by
  induction names generalizing parts with
  | nil => simp
  | cons s names ih =>
    have hrest : ∀ t ∈ names, Stands t := fun t ht => hs t (List.mem_cons_of_mem _ ht)
    have hgrown : parts ++ [encodeSegment (schemeKind u.scheme) (heard s)] ≠ [""] := by
      intro h
      have hlength := congrArg List.length h
      have hpos := List.length_pos_iff.mpr hne
      rw [List.length_append, List.length_singleton, List.length_singleton] at hlength
      omega
    rw [List.foldl_cons, pushSegment_withParts u parts (hs s List.mem_cons_self), if_neg hne',
      ih (by simp) hgrown hrest, List.append_assoc, List.singleton_append, List.map_cons,
      List.map_cons]

theorem exists_popEmptySegment {u : Url} (hu : u.cannotBeBase = false) :
    ∃ parts, u.popEmptySegment = u.withParts parts := by
  unfold popEmptySegment
  split
  · next parts hp =>
    split_ifs
    · exact ⟨_, rfl⟩
    · exact ⟨parts, by rw [withParts, ← hp]⟩
  · next text hp =>
    rw [cannotBeBase, hp] at hu
    exact absurd hu (by simp)

/-- A URL with a path of segments is extended behind its root. What is pushed first is a segment
that stays: an empty one would give way to the next. -/
theorem foldl_pushSegment_onward {u : Url} (hu : u.cannotBeBase = false) {first : String}
    (hfull : encodeSegment (schemeKind u.scheme) (heard first) ≠ "") {names : List String}
    (hs : ∀ s ∈ first :: names, Stands s) :
    (first :: names).foldl pushSegment u.popEmptySegment =
      u.onward ((first :: names).map heard) := by
  obtain ⟨hfirst, hrest⟩ := List.forall_mem_cons.mp hs
  obtain ⟨parts, hparts⟩ := exists_popEmptySegment hu
  have hroot : u.root = if parts = [""] then [] else parts := by
    rw [root, hparts]
    rfl
  have hstays : u.root ++ [encodeSegment (schemeKind u.scheme) (heard first)] ≠ [""] := by
    intro h
    have hlast := congrArg List.getLast? h
    rw [List.getLast?_concat] at hlast
    exact hfull (Option.some.inj hlast)
  rw [List.foldl_cons, hparts, pushSegment_withParts u parts hfirst, ← hroot,
    foldl_pushSegment u (by simp) hstays hrest, List.append_assoc, List.singleton_append, onward,
    List.map_cons, List.map_cons]

/-! ## What the target tells -/

/-- The path of `u` goes on from the root of `base`, by one segment for each of the names. -/
def Leads (u base : Url) (names : List String) : Prop :=
  ∃ parts, u.path = .segments (base.root ++ parts) ∧ parts.map spelled? = names.map some ∧
    ∀ part ∈ parts, ∀ mark, isMark mark = true → mark ∉ part.toList

theorem leads_onward (u : Url) (names : List String) : (u.onward names).Leads u names := by
  refine ⟨_, rfl, ?_, ?_⟩
  · rw [List.map_map]
    exact List.map_congr_left fun s _ => spelled?_encodeSegment _ s
  · intro part hpart mark hmark
    obtain ⟨s, -, rfl⟩ := List.mem_map.mp hpart
    exact not_mem_encodeSegment hmark _ s

theorem toText_segments (parts : List String) :
    (Path.segments parts).toText.toList = (parts.map (·.toList)).flatMap ('/' :: ·) := by
  rw [Path.toText, String.toList_join, List.flatMap_map, List.flatMap_map]
  exact congrArg (parts.flatMap ·) (funext fun part => by simp)

/-- Segments without a slash in them are found between the slashes. -/
theorem splitAll_segments {parts : List String} (h : ∀ part ∈ parts, '/' ∉ part.toList) :
    splitAll '/' (Path.segments parts).toText.toList = [] :: parts.map (·.toList) := by
  have hpieces : ∀ piece ∈ [] :: parts.map (·.toList), '/' ∉ piece := by
    intro piece hpiece
    obtain rfl | hpiece := List.mem_cons.mp hpiece
    · exact List.not_mem_nil
    · obtain ⟨part, hpart, rfl⟩ := List.mem_map.mp hpiece
      exact h part hpart
  have hjoin : List.intercalate ['/'] ([] :: parts.map (·.toList)) =
      (Path.segments parts).toText.toList := by
    rw [intercalate_eq_flatMap, toText_segments, List.nil_append]
  rw [← hjoin]
  exact splitAll_intercalate (List.cons_ne_nil _ _) hpieces

theorem segments_injective {parts parts' : List String}
    (h : ∀ part ∈ parts, '/' ∉ part.toList) (h' : ∀ part ∈ parts', '/' ∉ part.toList)
    (heq : (Path.segments parts).toText.toList = (Path.segments parts').toText.toList) :
    parts = parts' := by
  have hsplit := congrArg (splitAll '/') heq
  rw [splitAll_segments h, splitAll_segments h'] at hsplit
  exact List.map_injective_iff.mpr (fun _ _ => String.toList_inj.mp) (List.cons.inj hsplit).2

theorem target_toList (u : Url) :
    u.target.toList =
      u.path.toText.toList ++ ((u.query.map (·.toList)).map ('?' :: ·)).getD [] := by
  unfold target
  cases u.query <;> simp

/-- What stands in front of a mark, and what behind it if it is there. -/
theorem eq_of_append_mark {mark : Char} {xs xs' : List Char} {ys ys' : Option (List Char)}
    (h : mark ∉ xs) (h' : mark ∉ xs')
    (heq : xs ++ (ys.map (mark :: ·)).getD [] = xs' ++ (ys'.map (mark :: ·)).getD []) :
    xs = xs' ∧ ys = ys' := by
  cases ys with
  | none =>
    cases ys' with
    | none => exact ⟨by simpa using heq, rfl⟩
    | some zs =>
      have hxs : xs = xs' ++ mark :: zs := by simpa using heq
      exact absurd (by simp [hxs]) h
  | some zs =>
    cases ys' with
    | none =>
      have hxs : xs ++ mark :: zs = xs' := by simpa using heq
      exact absurd (by simp [← hxs]) h'
    | some zs' =>
      have hsplit : splitOnce mark (xs ++ mark :: zs) = splitOnce mark (xs' ++ mark :: zs') :=
        congrArg _ heq
      rw [splitOnce_append h, splitOnce_append h', Option.some.injEq, Prod.mk.injEq] at hsplit
      exact ⟨hsplit.1, congrArg some hsplit.2⟩

/-- Two URLs that go on from the same root have the same target only if they have the same names
and the same query. -/
theorem Leads.eq_of_target {u u' base : Url} {names names' : List String}
    (h : u.Leads base names) (h' : u'.Leads base names') (ht : u.target = u'.target) :
    names = names' ∧ u.query = u'.query := by
  obtain ⟨parts, hpath, hnames, hmarks⟩ := h
  obtain ⟨parts', hpath', hnames', hmarks'⟩ := h'
  have happend (ps qs : List String) : (Path.segments (ps ++ qs)).toText.toList =
      (Path.segments ps).toText.toList ++ (Path.segments qs).toText.toList := by
    simp only [toText_segments, List.map_append, List.flatMap_append]
  have hfree {ps : List String} (hps : ∀ part ∈ ps, ∀ mark, isMark mark = true →
      mark ∉ part.toList) : '?' ∉ (Path.segments ps).toText.toList := by
    intro hmem
    rw [toText_segments, List.flatMap_map] at hmem
    obtain ⟨part, hpart, hmem⟩ := List.mem_flatMap.mp hmem
    obtain heq | hmem := List.mem_cons.mp hmem
    · exact absurd heq (by decide)
    · exact hps part hpart '?' (by decide) hmem
  -- Both targets start with the root, so what is behind it is the same.
  have hchars := congrArg String.toList ht
  rw [target_toList, target_toList, hpath, hpath', happend, happend, List.append_assoc,
    List.append_assoc] at hchars
  obtain ⟨htext, hquery⟩ :=
    eq_of_append_mark (hfree hmarks) (hfree hmarks') (List.append_cancel_left hchars)
  have hparts : parts = parts' :=
    segments_injective (fun p hp => hmarks p hp '/' (by decide))
      (fun p hp => hmarks' p hp '/' (by decide)) htext
  constructor
  · apply List.map_injective_iff.mpr (Option.some_injective String)
    rw [← hnames, ← hnames', hparts]
  · exact Option.map_injective (fun _ _ => String.toList_inj.mp) hquery

/-! ## Queries -/

/-- Pairs that are appended to a query are read behind those in it. -/
theorem queryPairs_appendPairs (u : Url) (ps : List (String × String)) :
    (u.appendPairs ps).queryPairs = u.queryPairs ++ ps := by
  unfold appendPairs queryPairs
  cases u.query with
  | none => exact Form.pairs_encode ps
  | some q =>
    by_cases hq : q = ""
    · subst hq
      exact Form.pairs_encode ps
    · show Form.pairs (if q = "" then Form.encode ps else q ++ "&" ++ Form.encode ps) = _
      rw [if_neg hq, Form.pairs_append, Form.pairs_encode]

end TabBoard.Url
