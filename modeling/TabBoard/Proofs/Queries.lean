import TabBoard.Proofs.Percent
import TabBoard.Proofs.Trimming
import TabBoard.Url.Parser

/-!
# Queries of URLs

What stands in front of the first question mark decides whether a text is a URL, and decides all of
the URL but its query and its fragment (`Settled`). There is one lemma for each step of reading,
which says that the step stops at the mark or in front of it (`.._mark`).

**Theorem (`parse_query`).** If a URL can be read with an empty query, then it can be read with
pairs in its query, and these are read back.
-/

namespace TabBoard

namespace Url

open Text

/-! ## Up to the mark -/

/-- No mark that ends a path is among the characters. -/
def Unmarked (cs : List Char) : Prop := ∀ c ∈ cs, isPathEnd c = false

/-- The URL with the query and the fragment that are read from behind a question mark. -/
def withQuery (u : Url) (cs : List Char) : Url :=
  { u with
    query := (queryAndFragment (schemeKind u.scheme) ('?' :: cs)).1
    fragment := (queryAndFragment (schemeKind u.scheme) ('?' :: cs)).2 }

/-- What is read does not depend on what stands behind a question mark, but for query and
fragment. -/
def Settled (read : List Char → Except Error Url) : Prop :=
  (∃ e, ∀ cs, read cs = .error e) ∨ ∃ u : Url, ∀ cs, read cs = .ok (u.withQuery cs)

/-- A part of a URL that ends in front of a question mark. -/
def Part {α : Type} (read : List Char → Except Error (α × List Char)) : Prop :=
  (∃ e, ∀ cs, read cs = .error e) ∨
    ∃ a rest, Unmarked rest ∧ ∀ cs, read cs = .ok (a, rest ++ '?' :: cs)

section Marks

variable {front : List Char} {p : Char → Bool} {kind : SchemeKind} {scheme : String} {base : Url}

theorem Unmarked.tail {c : Char} (h : Unmarked (c :: front)) : Unmarked front :=
  fun d hd => h d (List.mem_cons_of_mem c hd)

theorem Unmarked.sublist {front' : List Char} (h : Unmarked front) (hsub : front'.Sublist front) :
    Unmarked front' :=
  fun c hc => h c (hsub.subset hc)

theorem takeWhile_mark (hp : p '?' = false) (front cs : List Char) :
    (front ++ '?' :: cs).takeWhile p = front.takeWhile p := takeWhile_stop hp front cs

theorem dropWhile_mark (hp : p '?' = false) (front cs : List Char) :
    (front ++ '?' :: cs).dropWhile p = front.dropWhile p ++ '?' :: cs := dropWhile_stop hp front cs

@[simp] theorem isSlash_mark (kind : SchemeKind) : kind.isSlash '?' = false := by
  cases kind <;> rfl

/-! ## Path and query -/

theorem takeWhile_unmarked (h : Unmarked front) :
    front.takeWhile (fun c => !isPathEnd c) = front := by
  rw [List.takeWhile_eq_self_iff]
  exact fun c hc => by rw [h c hc]; rfl

theorem dropWhile_unmarked (h : Unmarked front) :
    front.dropWhile (fun c => !isPathEnd c) = [] := by
  rw [List.dropWhile_eq_nil_iff]
  exact fun c hc => by rw [h c hc]; rfl

theorem takeWhile_path (h : Unmarked front) (cs : List Char) :
    (front ++ '?' :: cs).takeWhile (fun c => !isPathEnd c) = front := by
  rw [takeWhile_mark rfl, takeWhile_unmarked h]

theorem dropWhile_path (h : Unmarked front) (cs : List Char) :
    (front ++ '?' :: cs).dropWhile (fun c => !isPathEnd c) = '?' :: cs := by
  rw [dropWhile_mark rfl, dropWhile_unmarked h, List.nil_append]

theorem finish_mark (scheme : String) (authority : Option Authority) (h : Unmarked front)
    (cs : List Char) :
    finish scheme authority (front ++ '?' :: cs) =
      (finish scheme authority front).withQuery cs := by
  simp only [finish, withQuery, takeWhile_path h, dropWhile_path h, takeWhile_unmarked h]

theorem settled_finish (scheme : String) (authority : Option Authority) (h : Unmarked front) :
    Settled fun cs => .ok (finish scheme authority (front ++ '?' :: cs)) :=
  .inr ⟨_, fun cs => congrArg _ (finish_mark scheme authority h cs)⟩

/-! ## The authority -/

theorem userInfo?_mark (kind : SchemeKind) (h : Unmarked front) :
    (∃ e, ∀ cs, userInfo? kind (front ++ '?' :: cs) = .error e) ∨
      ∃ user password rest, Unmarked rest ∧
        ∀ cs, userInfo? kind (front ++ '?' :: cs) = .ok (user, password, rest ++ '?' :: cs) := by
  have htake (cs : List Char) :=
    takeWhile_mark (p := fun c => !(kind.isSlash c || isPathEnd c)) (by simp [isPathEnd]) front cs
  have hdrop (cs : List Char) :=
    dropWhile_mark (p := fun c => !(kind.isSlash c || isPathEnd c)) (by simp [isPathEnd]) front cs
  have hlater : Unmarked (front.dropWhile fun c => !(kind.isSlash c || isPathEnd c)) :=
    h.sublist (List.dropWhile_sublist _)
  have hinside : Unmarked (front.takeWhile fun c => !(kind.isSlash c || isPathEnd c)) :=
    h.sublist (List.takeWhile_sublist _)
  simp only [userInfo?, htake, hdrop]
  generalize front.takeWhile (fun c => !(kind.isSlash c || isPathEnd c)) = inside at hinside ⊢
  generalize front.dropWhile (fun c => !(kind.isSlash c || isPathEnd c)) = later at hlater ⊢
  by_cases hat : inside.contains '@' = true
  · have hhost : Unmarked (inside.reverse.takeWhile (· != '@')).reverse :=
      hinside.sublist (List.reverse_sublist.1 (by simpa using List.takeWhile_sublist _))
    have hrest : Unmarked ((inside.reverse.takeWhile (· != '@')).reverse ++ later) :=
      List.forall_mem_append.2 ⟨hhost, hlater⟩
    generalize (inside.reverse.takeWhile (· != '@')).reverse = host at hrest ⊢
    generalize ((inside.reverse.dropWhile (· != '@')).drop 1).reverse = user
    have hfull (cs : List Char) : (host ++ (later ++ '?' :: cs)).isEmpty = false := by simp
    by_cases hempty : (user.isEmpty && host.isEmpty) = true
    · refine .inl ⟨.emptyHost, fun cs => ?_⟩
      rw [if_pos hat, if_pos (by rw [hempty, hfull]; rfl)]
    · have hnot (cs : List Char) :
          ¬ (user.isEmpty && host.isEmpty && !(host ++ (later ++ '?' :: cs)).isEmpty) = true := by
        simpa [hfull] using hempty
      cases hsplit : splitOnce ':' user with
      | none =>
        refine .inr ⟨String.ofList (Percent.encode inUserSet user), "", host ++ later, hrest,
          fun cs => ?_⟩
        rw [if_pos hat, if_neg (hnot cs), List.append_assoc]
      | some pair =>
        refine .inr ⟨String.ofList (Percent.encode inUserSet pair.1),
          String.ofList (Percent.encode inUserSet pair.2), host ++ later, hrest, fun cs => ?_⟩
        rw [if_pos hat, if_neg (hnot cs), List.append_assoc]
  · refine .inr ⟨"", "", front, h, fun cs => ?_⟩
    rw [if_neg hat]

theorem spanHost_mark (kind : SchemeKind) (inBrackets : Bool) (front cs : List Char) :
    spanHost kind inBrackets (front ++ '?' :: cs) =
      ((spanHost kind inBrackets front).1, (spanHost kind inBrackets front).2 ++ '?' :: cs) := by
  induction front generalizing inBrackets with
  | nil => simp [spanHost, isPathEnd]
  | cons c front ih =>
    by_cases hstop : ((c == ':' && !inBrackets) || kind.isSlash c || isPathEnd c) = true
    · rw [List.cons_append, spanHost, spanHost, if_pos hstop, if_pos hstop]
      rfl
    · rw [List.cons_append, spanHost, spanHost, if_neg hstop, if_neg hstop]
      simp only [ih]

theorem spanHost_suffix (kind : SchemeKind) (inBrackets : Bool) (front : List Char) :
    (spanHost kind inBrackets front).2 <:+ front := by
  induction front generalizing inBrackets with
  | nil => exact List.suffix_rfl
  | cons c front ih =>
    by_cases hstop : ((c == ':' && !inBrackets) || kind.isSlash c || isPathEnd c) = true
    · simp only [spanHost, if_pos hstop, List.suffix_rfl]
    · rw [spanHost, if_neg hstop]
      exact (ih _).trans (List.suffix_cons c front)

theorem port?_mark (scheme : String) (h : Unmarked front) :
    Part fun cs => port? scheme (front ++ '?' :: cs) := by
  have hrest : Unmarked (front.dropWhile Char.isDigit) := h.sublist (List.dropWhile_sublist _)
  -- a mark ends the digits as well as a slash does
  have hport : ∃ (atEnd : Bool) (n : Nat), ∀ cs, port? scheme (front ++ '?' :: cs) =
      if 65535 < n ∨ (!atEnd) = true then .error .invalidPort
      else if (front.takeWhile Char.isDigit).isEmpty = true ∨ defaultPort? scheme = some n then
        .ok (none, front.dropWhile Char.isDigit ++ '?' :: cs)
      else .ok (some n, front.dropWhile Char.isDigit ++ '?' :: cs) := by
    simp only [port?, takeWhile_mark (p := Char.isDigit) rfl,
      dropWhile_mark (p := Char.isDigit) rfl]
    cases front.dropWhile Char.isDigit with
    | nil => exact ⟨true, _, fun _ => rfl⟩
    | cons c rest => exact ⟨_, _, fun _ => rfl⟩
  obtain ⟨atEnd, n, hport⟩ := hport
  by_cases hwrong : 65535 < n ∨ (!atEnd) = true
  · exact .inl ⟨.invalidPort, fun cs => (hport cs).trans (if_pos hwrong)⟩
  · by_cases hdefault : (front.takeWhile Char.isDigit).isEmpty = true ∨ defaultPort? scheme = some n
    · refine .inr ⟨none, _, hrest, fun cs => (hport cs).trans ?_⟩
      rw [if_neg hwrong, if_pos hdefault]
    · refine .inr ⟨some n, _, hrest, fun cs => (hport cs).trans ?_⟩
      rw [if_neg hwrong, if_neg hdefault]

/-- The host that is read from its characters. -/
def hostOf [Idna] (kind : SchemeKind) (cs : List Char) : Except Error Host :=
  if kind = .other then Host.ofOpaque cs else Host.ofChars cs

/-- What follows the characters of a host: a port, perhaps. -/
def behindHost (scheme user password : String) (hostChars : List Char) (host : Host)
    (cs : List Char) : Except Error (Authority × List Char) := do
  if hostChars.isEmpty ∧ (cs.head? = some ':' ∨ user ≠ "" ∨ password ≠ "") then throw .emptyHost
  match cs with
  | ':' :: rest =>
    let (port, rest) ← port? scheme rest
    return ({ user, password, host, port }, rest)
  | cs => return ({ user, password, host }, cs)

theorem authority?_eq [Idna] {cs rest : List Char} {user password : String}
    (h : userInfo? (schemeKind scheme) cs = .ok (user, password, rest)) :
    authority? scheme cs =
      if (spanHost (schemeKind scheme) false rest).1.isEmpty ∧ schemeKind scheme = .common then
        .error .emptyHost
      else
        hostOf (schemeKind scheme) (spanHost (schemeKind scheme) false rest).1 >>= fun host =>
          behindHost scheme user password (spanHost (schemeKind scheme) false rest).1 host
            (spanHost (schemeKind scheme) false rest).2 := by
  rw [authority?, h]
  simp only [hostOf, behindHost, bind, Except.bind, throw, throwThe, MonadExceptOf.throw]
  split_ifs
  · rfl
  · cases Host.ofOpaque _ <;> rfl
  · cases Host.ofOpaque _ <;> rfl
  · cases Host.ofChars _ <;> rfl
  · cases Host.ofChars _ <;> rfl

theorem behindHost_mark (scheme user password : String) (hostChars : List Char) (host : Host)
    (h : Unmarked front) :
    Part fun cs => behindHost scheme user password hostChars host (front ++ '?' :: cs) := by
  have hhead : ∃ c, ∀ cs, (front ++ '?' :: cs).head? = c := by
    cases front with
    | nil => exact ⟨_, fun _ => rfl⟩
    | cons c front => exact ⟨_, fun _ => rfl⟩
  obtain ⟨c, hhead⟩ := hhead
  simp only [behindHost, hhead]
  by_cases hempty : hostChars.isEmpty = true ∧ (c = some ':' ∨ user ≠ "" ∨ password ≠ "")
  · refine .inl ⟨.emptyHost, fun cs => ?_⟩
    simp only [if_pos hempty]
    rfl
  · simp only [if_neg hempty]
    cases front with
    | nil => exact .inr ⟨_, [], h, fun _ => rfl⟩
    | cons c front =>
      by_cases hcolon : c = ':'
      · subst hcolon
        obtain ⟨e, he⟩ | ⟨port, rest, hrest, hok⟩ := port?_mark scheme h.tail
        · refine .inl ⟨e, fun cs => ?_⟩
          simp only [List.cons_append, he cs]
          rfl
        · refine .inr ⟨{ user, password, host, port }, rest, hrest, fun cs => ?_⟩
          simp only [List.cons_append, hok cs]
          rfl
      · refine .inr ⟨{ user, password, host }, c :: front, h, fun cs => ?_⟩
        show (match c :: (front ++ '?' :: cs) with
          | ':' :: rest => _
          | cs => pure _) = _
        split
        · next heq => exact absurd (List.cons.inj heq).1 hcolon
        · rfl

theorem authority?_mark [Idna] (scheme : String) (h : Unmarked front) :
    Part fun cs => authority? scheme (front ++ '?' :: cs) := by
  obtain ⟨e, he⟩ | ⟨user, password, later, hlater, hok⟩ := userInfo?_mark (schemeKind scheme) h
  · refine .inl ⟨e, fun cs => ?_⟩
    simp only [authority?, he cs]
    rfl
  · have hrest : Unmarked (spanHost (schemeKind scheme) false later).2 :=
      hlater.sublist (spanHost_suffix _ _ _).sublist
    simp only [authority?_eq (hok _), spanHost_mark]
    split_ifs
    · exact .inl ⟨_, fun _ => rfl⟩
    · generalize hostOf (schemeKind scheme) (spanHost (schemeKind scheme) false later).1 = host
      cases host with
      | error e => exact .inl ⟨e, fun _ => rfl⟩
      | ok host => exact behindHost_mark scheme user password _ host hrest

theorem afterSlashes_mark [Idna] (scheme : String) (h : Unmarked front) :
    Settled fun cs => afterSlashes scheme (front ++ '?' :: cs) := by
  obtain ⟨e, he⟩ | ⟨authority, rest, hrest, hok⟩ := authority?_mark scheme h
  · refine .inl ⟨e, fun cs => ?_⟩
    simp only [afterSlashes, he cs]
    rfl
  · refine .inr ⟨finish scheme (some authority) rest, fun cs => ?_⟩
    simp only [afterSlashes, hok cs]
    exact congrArg _ (finish_mark scheme _ hrest cs)

/-! ## The kinds of URLs -/

theorem fileUrl_mark [Idna] (h : Unmarked front) :
    Settled fun cs => fileUrl (front ++ '?' :: cs) := by
  cases front with
  | nil =>
    refine .inr ⟨finish "file" (some { host := .domain "" }) [], fun cs => ?_⟩
    cases cs with
    | nil => exact congrArg _ (finish_mark "file" _ h [])
    | cons c cs => exact congrArg _ (finish_mark "file" _ h (c :: cs))
  | cons a front =>
    cases front with
    | nil =>
      refine .inr ⟨finish "file" (some { host := .domain "" }) [a], fun cs => ?_⟩
      have hslash : ¬ (SchemeKind.file.isSlash a && SchemeKind.file.isSlash '?') = true := by simp
      rw [← finish_mark "file" _ h cs]
      exact if_neg hslash
    | cons b front =>
      have hrest := h.tail.tail
      have htake (cs : List Char) :=
        takeWhile_mark (p := fun c => !(SchemeKind.file.isSlash c || isPathEnd c)) rfl front cs
      have hdrop (cs : List Char) :=
        dropWhile_mark (p := fun c => !(SchemeKind.file.isSlash c || isPathEnd c)) rfl front cs
      have hbehind : Unmarked
          (front.dropWhile fun c => !(SchemeKind.file.isSlash c || isPathEnd c)) :=
        hrest.sublist (List.dropWhile_sublist _)
      simp only [List.cons_append, fileUrl, htake, hdrop]
      split_ifs
      · exact settled_finish _ _ hbehind
      · exact settled_finish _ _ hrest
      · split
        · exact settled_finish _ _ hbehind
        · exact settled_finish _ _ hbehind
        · exact .inl ⟨_, fun _ => rfl⟩
      · exact settled_finish _ _ h

theorem otherUrl_mark [Idna] (hkind : schemeKind scheme = .other) (h : Unmarked front) :
    Settled fun cs => otherUrl scheme (front ++ '?' :: cs) := by
  by_cases hslash : ∃ rest, front = '/' :: rest
  · obtain ⟨rest, rfl⟩ := hslash
    by_cases hslashes : ∃ rest', rest = '/' :: rest'
    · obtain ⟨rest', rfl⟩ := hslashes
      exact afterSlashes_mark scheme h.tail.tail
    · refine .inr ⟨finish scheme none ('/' :: rest), fun cs => ?_⟩
      rw [← finish_mark scheme none h cs]
      cases rest with
      | nil => rfl
      | cons c rest =>
        have hc : c ≠ '/' := by
          rintro rfl
          exact hslashes ⟨rest, rfl⟩
        simp [otherUrl, hc]
  · refine .inr ⟨⟨scheme, none,
      .opaqueText (String.ofList (Percent.encode Percent.isControl front)), none, none⟩,
      fun cs => ?_⟩
    have hfront : ∀ rest, front ++ '?' :: cs ≠ '/' :: rest := by
      intro rest heq
      cases front with
      | nil => cases heq
      | cons c front =>
        obtain ⟨rfl, -⟩ := List.cons.inj heq
        exact hslash ⟨front, rfl⟩
    show otherUrl scheme (front ++ '?' :: cs) = _
    rw [otherUrl.eq_def]
    split
    · next heq => exact absurd heq (hfront _)
    · next heq => exact absurd heq (hfront _)
    · rw [takeWhile_path h, dropWhile_path h]
      simp [withQuery, hkind]

theorem relative_mark [Idna] (base : Url) (h : Unmarked front) :
    Settled fun cs => relative base (front ++ '?' :: cs) := by
  cases front with
  | nil => exact .inr ⟨base, fun _ => rfl⟩
  | cons c front =>
    have hc := h c List.mem_cons_self
    have hquestion : c ≠ '?' := by rintro rfl; cases hc
    have hnumber : c ≠ '#' := by rintro rfl; cases hc
    have hfinish : Settled fun cs =>
        .ok (finish base.scheme base.authority (c :: (front ++ '?' :: cs))) :=
      settled_finish _ _ h
    simp only [List.cons_append, relative]
    by_cases hslash : (schemeKind base.scheme).isSlash c = true
    · simp only [hslash, if_true]
      cases front with
      | nil =>
        simpa using hfinish
      | cons d front =>
        simp only [List.cons_append, dropWhile_mark (isSlash_mark _)]
        split_ifs
        · exact afterSlashes_mark base.scheme h.tail.tail
        · exact afterSlashes_mark base.scheme
            (h.tail.tail.sublist (List.dropWhile_sublist _))
        · exact hfinish
    · refine .inr ⟨{ base with
        path := .segments (segmentsFrom (schemeKind base.scheme) base.path.front (c :: front)) },
        fun cs => ?_⟩
      have hpath := takeWhile_path h cs
      have hquery := dropWhile_path h cs
      rw [List.cons_append] at hpath hquery
      simp only [if_neg hslash, hpath, hquery]
      rfl

theorem scheme?_mark (h : Unmarked front) :
    (∀ cs, scheme? (front ++ '?' :: cs) = none) ∨
      ∃ scheme rest, Unmarked rest ∧
        ∀ cs, scheme? (front ++ '?' :: cs) = some (scheme, rest ++ '?' :: cs) := by
  cases front with
  | nil => exact .inl fun _ => rfl
  | cons c front =>
    have htake (cs : List Char) := takeWhile_mark
      (p := fun c => c.isAlphanum || c == '+' || c == '-' || c == '.') rfl (c :: front) cs
    have hdrop (cs : List Char) := dropWhile_mark
      (p := fun c => c.isAlphanum || c == '+' || c == '-' || c == '.') rfl (c :: front) cs
    have hrest := h.sublist
      (List.dropWhile_sublist fun c => c.isAlphanum || c == '+' || c == '-' || c == '.')
    simp only [List.cons_append] at htake hdrop
    simp only [List.cons_append, scheme?, htake, hdrop]
    generalize (c :: front).dropWhile (fun c => c.isAlphanum || c == '+' || c == '-' || c == '.') =
      rest at hrest ⊢
    by_cases halpha : c.isAlpha = true
    · simp only [halpha, if_true]
      cases rest with
      | nil => exact .inl fun _ => rfl
      | cons d rest =>
        by_cases hcolon : d = ':'
        · subst hcolon
          exact .inr ⟨_, rest, hrest.tail, fun _ => rfl⟩
        · refine .inl fun cs => ?_
          simp [hcolon]
    · exact .inl fun _ => if_neg halpha

/-- A URL from the characters that count. -/
def ofRelevant [Idna] (base : Url) (cs : List Char) : Except Error Url :=
  match scheme? cs with
  | some (scheme, rest) =>
    match schemeKind scheme with
    | .file => fileUrl rest
    | .other => otherUrl scheme rest
    | .common =>
      if (rest.takeWhile SchemeKind.common.isSlash).length < 2 ∧ base.scheme = scheme then
        relative base rest
      else afterSlashes scheme (rest.dropWhile SchemeKind.common.isSlash)
  | none => relative base cs

theorem parse_eq [Idna] (base : Url) (s : String) :
    parse (some base) s = ofRelevant base (relevant s) := rfl

/-- **What stands in front of the question mark settles the URL.** -/
theorem ofRelevant_mark [Idna] (base : Url) (h : Unmarked front) :
    Settled fun cs => ofRelevant base (front ++ '?' :: cs) := by
  obtain hnone | ⟨scheme, rest, hrest, hsome⟩ := scheme?_mark h
  · simp only [ofRelevant, hnone]
    exact relative_mark base h
  · simp only [ofRelevant, hsome]
    cases hkind : schemeKind scheme with
    | file => exact fileUrl_mark hrest
    | other => exact otherUrl_mark hkind hrest
    | common =>
      simp only [takeWhile_mark (p := SchemeKind.common.isSlash) rfl,
        dropWhile_mark (p := SchemeKind.common.isSlash) rfl]
      split_ifs
      · exact relative_mark base hrest
      · exact afterSlashes_mark scheme (hrest.sublist (List.dropWhile_sublist _))

end Marks

/-! ## What counts of a text -/

/-- What counts in front of a question mark, and behind it. -/
theorem relevant_mark (front cs : List Char) :
    relevant (String.ofList (front ++ '?' :: cs)) =
      (trimStartBy (·.toNat ≤ 0x20) front).filter (fun c => !isDropped c) ++
        '?' :: (trimEndBy (·.toNat ≤ 0x20) cs).filter (fun c => !isDropped c) := by
  rw [relevant, String.toList_ofList, trimBy, trimStartBy, dropWhile_mark (by decide),
    trimEndBy_stop (by decide), List.filter_append, List.filter_cons_of_pos (by decide)]
  rfl

/-! ## Pairs in a query -/

/-- The characters that form encoding writes. -/
def isFormChar (c : Char) : Bool := Form.isPlain c || "+%&=".toList.contains c

theorem isFormChar_of_mem_encodePiece {s : String} {c : Char} (h : c ∈ Form.encodePiece s) :
    isFormChar c = true := by
  rw [Form.encodePiece_eq, List.mem_map] at h
  obtain ⟨d, hd, rfl⟩ := h
  split_ifs with hblank
  · decide
  · obtain ⟨e, -, hd⟩ := List.mem_flatMap.mp hd
    obtain ⟨he, -, hset⟩ | he := Percent.encodeChar_cases Form.encodes e <;> rw [he] at hd
    · obtain rfl := List.mem_singleton.mp hd
      simp only [Form.encodes, Bool.and_eq_false_iff] at hset
      simp_all [isFormChar]
    · obtain ⟨b, -, hb⟩ := List.mem_flatMap.mp hd
      have hall : ∀ c ∈ "%0123456789ABCDEF".toList, isFormChar c = true :=
        List.all_eq_true.1 (by decide)
      exact hall d (Percent.mem_encodeOctet hb)

theorem isFormChar_of_mem_encodePair {p : String × String} {c : Char}
    (h : c ∈ Form.encodePair p) : isFormChar c = true := by
  rw [Form.encodePair, List.mem_append, List.mem_cons] at h
  obtain h | rfl | h := h
  · exact isFormChar_of_mem_encodePiece h
  · decide
  · exact isFormChar_of_mem_encodePiece h

theorem isFormChar_of_mem_encode {ps : List (String × String)} {c : Char}
    (h : c ∈ (Form.encode ps).toList) : isFormChar c = true := by
  rw [Form.encode, String.toList_ofList] at h
  cases ps with
  | nil => cases h
  | cons p ps =>
    rw [List.map_cons, intercalate_eq_flatMap, List.mem_append, List.mem_flatMap] at h
    obtain h | ⟨piece, hpiece, h⟩ := h
    · exact isFormChar_of_mem_encodePair h
    · obtain ⟨q, -, rfl⟩ := List.mem_map.mp hpiece
      obtain rfl | h := List.mem_cons.mp h
      · decide
      · exact isFormChar_of_mem_encodePair h

/-- What form encoding writes stands in a query as it is. -/
structure Stays (c : Char) : Prop where
  ascii : c.toNat < 0x80
  shown : decide (c.toNat ≤ 0x20) = false
  kept : isDropped c = false
  inside : c ≠ '#'
  plain : ∀ kind, inQuerySet kind c = false

/-- Letters and digits are those of ASCII. -/
theorem lt_of_isAlphanum {c : Char} (h : c.isAlphanum = true) : c.toNat < 0x80 := by
  obtain halpha | hdigit := (Bool.or_eq_true _ _).mp h
  · obtain hupper | hlower := (Bool.or_eq_true _ _).mp halpha
    · have hle : c.toNat ≤ 90 := (of_decide_eq_true hupper).2
      omega
    · have hle : c.toNat ≤ 122 := of_decide_eq_true (Bool.and_eq_true_iff.mp hlower).2
      omega
  · have hle : c.toNat ≤ 57 := of_decide_eq_true (Bool.and_eq_true_iff.mp hdigit).2
    omega

theorem stays_of_isFormChar {c : Char} (h : isFormChar c = true) : Stays c := by
  have hascii : c.toNat < 0x80 := by
    simp only [isFormChar, Form.isPlain, Bool.or_eq_true, beq_iff_eq, List.contains_iff_mem] at h
    obtain ((((h | rfl) | rfl) | rfl) | rfl) | h := h
    · exact lt_of_isAlphanum h
    · decide
    · decide
    · decide
    · decide
    · have hmarks : ∀ c ∈ "+%&=".toList, c.toNat < 0x80 := by simp
      exact hmarks c h
  have hall : ∀ n : Fin 128, isFormChar (Char.ofNat n) = true →
      decide ((Char.ofNat n).toNat ≤ 0x20) = false ∧ isDropped (Char.ofNat n) = false ∧
        Char.ofNat n ≠ '#' ∧ inQuerySet .file (Char.ofNat n) = false ∧
        inQuerySet .common (Char.ofNat n) = false ∧ inQuerySet .other (Char.ofNat n) = false := by
    decide +kernel
  have hc := hall ⟨c.toNat, hascii⟩
  simp only [Char.ofNat_toNat] at hc
  obtain ⟨hshown, hkept, hinside, hfile, hcommon, hother⟩ := hc h
  refine ⟨hascii, hshown, hkept, hinside, fun kind => ?_⟩
  cases kind with
  | file => exact hfile
  | common => exact hcommon
  | other => exact hother

/-- Nothing, or a fragment behind its mark. -/
def IsTail (tail : String) : Prop := tail = "" ∨ ∃ fragment, tail = "#" ++ fragment

/-- What counts of a query and what follows it: all of the query. -/
theorem relevant_query {query tail : List Char} (hquery : ∀ c ∈ query, Stays c)
    (htail : tail = [] ∨ ∃ fragment, tail = '#' :: fragment) :
    ∃ rest, (trimEndBy (·.toNat ≤ 0x20) (query ++ tail)).filter (fun c => !isDropped c) =
        query ++ rest ∧ (query ++ rest).takeWhile (· != '#') = query := by
  have hkept : query.filter (fun c => !isDropped c) = query :=
    List.filter_eq_self.mpr fun c hc => by rw [(hquery c hc).kept]; rfl
  have hinside : query.takeWhile (· != '#') = query :=
    List.takeWhile_eq_self_iff.mpr fun c hc => bne_iff_ne.mpr (hquery c hc).inside
  obtain rfl | ⟨fragment, rfl⟩ := htail
  · refine ⟨[], ?_, ?_⟩
    · rw [List.append_nil, trimEndBy_eq_self fun c hc => (hquery c hc).shown, hkept]
    · rw [List.append_nil, hinside]
  · refine ⟨'#' :: (trimEndBy (·.toNat ≤ 0x20) fragment).filter fun c => !isDropped c, ?_, ?_⟩
    · rw [trimEndBy_stop (by decide), List.filter_append, hkept,
        List.filter_cons_of_pos (by decide)]
    · rw [takeWhile_stop (by decide), hinside]

/-- A query of characters that stay is the query of the URL. -/
theorem query_withQuery (u : Url) {query rest : List Char} (hquery : ∀ c ∈ query, Stays c)
    (hrest : (query ++ rest).takeWhile (· != '#') = query) :
    (u.withQuery (query ++ rest)).query = some (String.ofList query) := by
  have hencode : Percent.encode (inQuerySet (schemeKind u.scheme)) query = query :=
    Percent.encode_eq_self fun c hc => ⟨(hquery c hc).ascii, (hquery c hc).plain _⟩
  rw [withQuery, queryAndFragment, hrest, hencode]

/-- **Pairs are read back from the query of every URL**, and nothing else of the URL depends on
them. -/
theorem parse_query [Idna] {base u : Url} {front tail : String} (hfront : Unmarked front.toList)
    (hparse : parse (some base) (front ++ "?") = .ok u) (htail : IsTail tail)
    (ps : List (String × String)) :
    ∃ u', parse (some base) (front ++ "?" ++ Form.encode ps ++ tail) = .ok u' ∧
      u'.queryPairs = ps ∧ u' = { u with query := u'.query, fragment := u'.fragment } := by
  have hmarked : front ++ "?" = String.ofList (front.toList ++ '?' :: []) := by
    rw [← String.toList_inj]
    simp
  have hwhole : front ++ "?" ++ Form.encode ps ++ tail =
      String.ofList (front.toList ++ '?' :: ((Form.encode ps).toList ++ tail.toList)) := by
    rw [← String.toList_inj]
    simp
  have htailChars : tail.toList = [] ∨ ∃ fragment, tail.toList = '#' :: fragment := by
    obtain rfl | ⟨fragment, rfl⟩ := htail
    · exact .inl rfl
    · exact .inr ⟨fragment.toList, by simp⟩
  have hquery : ∀ c ∈ (Form.encode ps).toList, Stays c :=
    fun c hc => stays_of_isFormChar (isFormChar_of_mem_encode hc)
  obtain ⟨rest, hcounts, hrest⟩ := relevant_query hquery htailChars
  have hstart : Unmarked ((trimStartBy (·.toNat ≤ 0x20) front.toList).filter
      fun c => !isDropped c) :=
    hfront.sublist (List.filter_sublist.trans (List.dropWhile_sublist _))
  rw [parse_eq, hmarked, relevant_mark] at hparse
  rw [parse_eq, hwhole, relevant_mark, hcounts]
  obtain ⟨e, he⟩ | ⟨v, hv⟩ := ofRelevant_mark base hstart
  · cases (he _).symm.trans hparse
  · obtain rfl := Except.ok.inj ((hv _).symm.trans hparse)
    refine ⟨v.withQuery ((Form.encode ps).toList ++ rest), hv _, ?_, rfl⟩
    rw [queryPairs, query_withQuery v hquery hrest, String.ofList_toList]
    exact Form.pairs_encode ps

end Url

end TabBoard
