import TabBoard.Board.Basic
import TabBoard.Proofs.Restart.Calls
import TabBoard.Proofs.Trimming
import Mathlib.Data.List.Forall2

/-!
# The catalog in order

A catalog keeps the tabs that it is made of, in their places, with every text trimmed.

**Theorem (`catalog_normalized`).** There is a catalog of a list of tabs exactly if the list is not
empty and no required text is blank; otherwise the first text that is blank is named, in the order
of tabs and of fields. The catalog has the tabs in their places, with tidy texts (`Normalized`), and
is the catalog of its own tabs. Its deployments are those that can be restarted, each once and in
order of first use, and two tabs exclude each other's restarts exactly if the names of their
deployments agree up to blanks at the ends.

The proof writes the catalog down at once (`ofTabs_eq`): what is looked at are the required texts of
all tabs, one after another.
-/

namespace TabBoard

open Text (isBlankText trimmed Trims)

namespace Tab

variable {α β : Type} {texts rest : List (Field × String)} {field : Field} {t : Tab}

/-! ## Texts that are looked at in order -/

/-- The field of the first blank text. -/
def firstBlank? (texts : List (Field × String)) : Option Field :=
  (texts.find? fun p => isBlankText p.2).map (·.1)

theorem firstBlank?_append : firstBlank? (texts ++ rest) =
    (firstBlank? texts).or (firstBlank? rest) := by
  simp only [firstBlank?, List.find?_append]
  cases texts.find? fun p => isBlankText p.2 <;> rfl

theorem firstBlank?_eq_none_iff :
    firstBlank? texts = none ↔ ∀ p ∈ texts, isBlankText p.2 = false := by
  simp [firstBlank?]

theorem firstBlank?_eq_some_iff : firstBlank? texts = some field ↔
    ∃ before s after, texts = before ++ (field, s) :: after ∧ isBlankText s = true ∧
      ∀ p ∈ before, isBlankText p.2 = false := by
  simp only [firstBlank?, Option.map_eq_some_iff, List.find?_eq_some_iff_append,
    Bool.not_eq_true']
  constructor
  · rintro ⟨⟨_, s⟩, ⟨hs, before, after, hsplit, hbefore⟩, rfl⟩
    exact ⟨before, s, after, hsplit, hs, hbefore⟩
  · rintro ⟨before, s, after, hsplit, hs, hbefore⟩
    exact ⟨(field, s), ⟨hs, before, after, hsplit, hbefore⟩, rfl⟩

theorem firstBlank?_flatMap (f : α → List (Field × String)) (xs : List α) :
    firstBlank? (xs.flatMap f) = xs.findSome? fun x => firstBlank? (f x) := by
  simp only [firstBlank?, List.find?_flatMap, List.map_findSome?]
  rfl

/-- The value, unless a text is blank. -/
def unlessBlank (texts : List (Field × String)) (a : α) : Except Field α :=
  match firstBlank? texts with
  | some field => .error field
  | none => .ok a

theorem pure_eq (a : α) : (pure a : Except Field α) = unlessBlank [] a := rfl

/-- What is looked at next stands behind what was looked at first. -/
theorem unlessBlank_bind (a : α) (f : α → β) :
    (unlessBlank texts a >>= fun x => unlessBlank rest (f x)) =
      unlessBlank (texts ++ rest) (f a) := by
  unfold unlessBlank
  rw [firstBlank?_append]
  cases firstBlank? texts <;> rfl

/-! ## One tab -/

/-- The texts that a key has to have, in the order in which they are looked at. -/
def keyTexts (k : DeploymentKey) : List (Field × String) :=
  [(.space, k.space), (.deployment, k.name)]

/-- The texts that a tab has to have, in the order in which they are looked at. -/
def requiredTexts (t : Tab) : List (Field × String) :=
  [(.caption, t.caption), (.iconUrl, t.iconUrl), (.frameUrl, t.frameUrl)] ++
    t.deployment.toList.flatMap keyTexts

def trimmedKey (k : DeploymentKey) : DeploymentKey := ⟨trimmed k.space, trimmed k.name⟩

def trimmedTab (t : Tab) : Tab where
  caption := trimmed t.caption
  iconUrl := trimmed t.iconUrl
  frameUrl := trimmed t.frameUrl
  color := normalColor t.color
  deployment := t.deployment.map trimmedKey

theorem required_eq (field : Field) (s : String) :
    required field s = unlessBlank [(field, s)] (trimmed s) := by
  simp only [required, Text.trimmed_eq_empty_iff, unlessBlank, firstBlank?]
  cases hblank : isBlankText s <;> simp [hblank]

theorem normalKey_eq (k : DeploymentKey) :
    normalKey k = unlessBlank (keyTexts k) (trimmedKey k) := by
  simp only [normalKey, required_eq, pure_eq, unlessBlank_bind]
  rfl

/-- **A tab is trimmed, or its first blank text is named.** -/
theorem normalize_eq (t : Tab) : t.normalize = unlessBlank t.requiredTexts t.trimmedTab := by
  have hkey : t.deployment.mapM normalKey =
      unlessBlank (t.deployment.toList.flatMap keyTexts) (t.deployment.map trimmedKey) := by
    cases t.deployment with
    | none => rfl
    | some k =>
      have hsome : (some <$> normalKey k) =
          unlessBlank (keyTexts k ++ []) (some (trimmedKey k)) := by
        rw [normalKey_eq, ← unlessBlank_bind]
        rfl
      rwa [List.append_nil] at hsome
  simp only [normalize, required_eq, hkey, pure_eq, unlessBlank_bind, List.append_nil]
  rfl

/-! ## Texts that are kept -/

/-- `s'` is `s` without the blanks at its ends, and something is left. -/
structure Kept (s s' : String) : Prop where
  trims : Trims s s'
  ne_empty : s' ≠ ""

theorem kept_iff {s s' : String} : Kept s s' ↔ isBlankText s = false ∧ trimmed s = s' := by
  rw [← Bool.not_eq_true, ← Text.trimmed_eq_empty_iff]
  constructor
  · rintro ⟨htrims, hne⟩
    obtain rfl := Text.trims_iff.1 htrims
    exact ⟨hne, rfl⟩
  · rintro ⟨hne, rfl⟩
    exact ⟨Text.trims_iff.2 rfl, hne⟩

/-- Both names of a deployment are kept. -/
structure KeptKey (k k' : DeploymentKey) : Prop where
  space : Kept k.space k'.space
  name : Kept k.name k'.name

/-- Every text of a tab is kept, a blank colour apart. -/
structure KeptTab (t t' : Tab) : Prop where
  caption : Kept t.caption t'.caption
  iconUrl : Kept t.iconUrl t'.iconUrl
  frameUrl : Kept t.frameUrl t'.frameUrl
  color : ∀ s', t'.color = some s' ↔ ∃ s, t.color = some s ∧ Kept s s'
  deployment : Option.Rel KeptKey t.deployment t'.deployment

/-- No text that the tab has to have is blank. -/
def Full (t : Tab) : Prop := ∀ p ∈ t.requiredTexts, isBlankText p.2 = false

/-- The text of this field is blank, and none that is looked at before it. -/
def Lacks (t : Tab) (field : Field) : Prop :=
  ∃ before s after, t.requiredTexts = before ++ (field, s) :: after ∧ isBlankText s = true ∧
    ∀ p ∈ before, isBlankText p.2 = false

theorem full_iff : t.Full ↔ isBlankText t.caption = false ∧ isBlankText t.iconUrl = false ∧
    isBlankText t.frameUrl = false ∧
      ∀ k, t.deployment = some k → isBlankText k.space = false ∧ isBlankText k.name = false := by
  unfold Full requiredTexts
  cases t.deployment <;> simp [keyTexts]

theorem keptKey_iff {k k' : DeploymentKey} : KeptKey k k' ↔
    (isBlankText k.space = false ∧ isBlankText k.name = false) ∧ trimmedKey k = k' := by
  constructor
  · rintro ⟨hspace, hname⟩
    obtain ⟨⟨hspace, hspace'⟩, hname, hname'⟩ := And.intro (kept_iff.1 hspace) (kept_iff.1 hname)
    exact ⟨⟨hspace, hname⟩, by rw [trimmedKey, hspace', hname']⟩
  · rintro ⟨⟨hspace, hname⟩, rfl⟩
    exact ⟨kept_iff.2 ⟨hspace, rfl⟩, kept_iff.2 ⟨hname, rfl⟩⟩

/-- Both names agree, up to blanks at the ends. -/
structure SameNames (k k' : DeploymentKey) : Prop where
  space : trimmed k.space = trimmed k'.space
  name : trimmed k.name = trimmed k'.name

theorem trimmedKey_eq_iff {k k' : DeploymentKey} :
    trimmedKey k = trimmedKey k' ↔ SameNames k k' := by
  rw [trimmedKey, trimmedKey, DeploymentKey.mk.injEq]
  exact ⟨fun h => ⟨h.1, h.2⟩, fun h => ⟨h.space, h.name⟩⟩

theorem normalColor_eq_some_iff {color : Option String} {s' : String} :
    normalColor color = some s' ↔ ∃ s, color = some s ∧ Kept s s' := by
  simp only [normalColor, kept_iff, Option.filter_eq_some_iff, Option.map_eq_some_iff,
    ← Bool.not_eq_true, ← Text.trimmed_eq_empty_iff, decide_eq_true_eq]
  constructor
  · rintro ⟨⟨s, hs, rfl⟩, hne⟩
    exact ⟨s, hs, hne, rfl⟩
  · rintro ⟨s, hs, hne, rfl⟩
    exact ⟨⟨s, hs, rfl⟩, hne⟩

/-- **Texts are kept exactly if none is blank and all are trimmed.** -/
theorem keptTab_iff {t' : Tab} : KeptTab t t' ↔ t.Full ∧ t.trimmedTab = t' := by
  rw [full_iff]
  constructor
  · intro h
    obtain ⟨hcaption, hcaption'⟩ := kept_iff.1 h.caption
    obtain ⟨hicon, hicon'⟩ := kept_iff.1 h.iconUrl
    obtain ⟨hframe, hframe'⟩ := kept_iff.1 h.frameUrl
    have hcolor : normalColor t.color = t'.color :=
      Option.ext fun s' => normalColor_eq_some_iff.trans (h.color s').symm
    have hdeployment : (∀ k, t.deployment = some k →
        isBlankText k.space = false ∧ isBlankText k.name = false) ∧
          t.deployment.map trimmedKey = t'.deployment := by
      have hrel := h.deployment
      generalize t.deployment = key, t'.deployment = key' at hrel
      cases hrel with
      | some hkey =>
        obtain ⟨hfull, rfl⟩ := keptKey_iff.1 hkey
        exact ⟨fun k hk => Option.some.inj hk ▸ hfull, rfl⟩
      | none => exact ⟨by simp, rfl⟩
    refine ⟨⟨hcaption, hicon, hframe, hdeployment.1⟩, ?_⟩
    rw [trimmedTab, hcaption', hicon', hframe', hcolor, hdeployment.2]
  · rintro ⟨⟨hcaption, hicon, hframe, hkeys⟩, rfl⟩
    refine ⟨kept_iff.2 ⟨hcaption, rfl⟩, kept_iff.2 ⟨hicon, rfl⟩, kept_iff.2 ⟨hframe, rfl⟩,
      fun _ => normalColor_eq_some_iff, ?_⟩
    cases hkey : t.deployment with
    | none => simp [trimmedTab, hkey]
    | some k => simpa [trimmedTab, hkey] using keptKey_iff.2 ⟨hkeys k hkey, rfl⟩

/-! ## Trimming twice -/

theorem isBlankText_trimmed (s : String) : isBlankText (trimmed s) = isBlankText s := by
  rw [Bool.eq_iff_iff, ← Text.trimmed_eq_empty_iff, ← Text.trimmed_eq_empty_iff,
    Text.trimmed_trimmed]

theorem trimmedKey_trimmedKey (k : DeploymentKey) : trimmedKey (trimmedKey k) = trimmedKey k := by
  simp only [trimmedKey, Text.trimmed_trimmed]

theorem normalColor_some (s : String) :
    normalColor (some s) = if trimmed s = "" then none else some (trimmed s) := by
  simp [normalColor, Option.filter_some]

theorem normalColor_normalColor (color : Option String) :
    normalColor (normalColor color) = normalColor color := by
  cases color with
  | none => rfl
  | some s =>
    by_cases hs : trimmed s = ""
    · rw [normalColor_some, if_pos hs]
      rfl
    · rw [normalColor_some, if_neg hs, normalColor_some, Text.trimmed_trimmed, if_neg hs]

theorem trimmedTab_trimmedTab (t : Tab) : t.trimmedTab.trimmedTab = t.trimmedTab := by
  have hkey : trimmedKey ∘ trimmedKey = trimmedKey := funext trimmedKey_trimmedKey
  simp only [trimmedTab, Text.trimmed_trimmed, normalColor_normalColor, Option.map_map, hkey]

theorem full_trimmedTab : t.trimmedTab.Full ↔ t.Full := by
  simp only [full_iff, trimmedTab, trimmedKey, isBlankText_trimmed, Option.map_eq_some_iff,
    forall_exists_index, and_imp, forall_apply_eq_imp_iff₂]

end Tab

namespace Catalog

open Tab (firstBlank? unlessBlank KeptKey KeptTab SameNames trimmedKey trimmedKey_eq_iff)

variable {tabs : List Tab} {c : Catalog}

/-! ## All tabs -/

theorem mapM_normalize (tabs : List Tab) : tabs.mapM Tab.normalize =
    unlessBlank (tabs.flatMap Tab.requiredTexts) (tabs.map Tab.trimmedTab) := by
  induction tabs with
  | nil => rfl
  | cons t tabs ih =>
    simp only [List.mapM_cons, Tab.normalize_eq, ih, Tab.pure_eq, Tab.unlessBlank_bind,
      List.append_nil]
    rfl

/-- **The catalog of a list of tabs, or the first blank text of them all.** -/
theorem ofTabs_eq (hne : tabs ≠ []) : ofTabs tabs =
    match firstBlank? (tabs.flatMap Tab.requiredTexts) with
    | some field => .error (.blank field)
    | none => .ok ⟨tabs.map Tab.trimmedTab⟩ := by
  unfold ofTabs
  rw [if_neg (by simpa using hne), mapM_normalize, unlessBlank]
  cases firstBlank? (tabs.flatMap Tab.requiredTexts) <;> rfl

theorem ofTabs_nil : ofTabs [] = .error .noTabs := rfl

theorem ofTabs_eq_ok_iff : ofTabs tabs = .ok c ↔
    (tabs ≠ [] ∧ ∀ t ∈ tabs, t.Full) ∧ c = ⟨tabs.map Tab.trimmedTab⟩ := by
  by_cases hne : tabs = []
  · subst hne
    simp [ofTabs_nil]
  · have hfull : firstBlank? (tabs.flatMap Tab.requiredTexts) = none ↔ ∀ t ∈ tabs, t.Full := by
      rw [Tab.firstBlank?_flatMap, List.findSome?_eq_none_iff]
      exact forall₂_congr fun t _ => Tab.firstBlank?_eq_none_iff
    rw [ofTabs_eq hne, ← hfull]
    cases firstBlank? (tabs.flatMap Tab.requiredTexts) <;> simp [hne, eq_comm]

/-- The first tab that lacks a text lacks this one. -/
def Lack (tabs : List Tab) (field : Tab.Field) : Prop :=
  ∃ pre t post, tabs = pre ++ t :: post ∧ (∀ t' ∈ pre, t'.Full) ∧ t.Lacks field

theorem ofTabs_eq_error_iff {e : Error} : ofTabs tabs = .error e ↔
    (tabs = [] ∧ e = .noTabs) ∨ ∃ field, Lack tabs field ∧ e = .blank field := by
  by_cases hne : tabs = []
  · subst hne
    simp [ofTabs_nil, Lack, eq_comm]
  · have hlack : ∀ field, firstBlank? (tabs.flatMap Tab.requiredTexts) = some field ↔
        Lack tabs field := by
      intro field
      rw [Tab.firstBlank?_flatMap, List.findSome?_eq_some_iff]
      constructor
      · rintro ⟨pre, t, post, hsplit, ht, hpre⟩
        exact ⟨pre, t, post, hsplit, fun t' ht' => Tab.firstBlank?_eq_none_iff.1 (hpre t' ht'),
          Tab.firstBlank?_eq_some_iff.1 ht⟩
      · rintro ⟨pre, t, post, hsplit, hpre, ht⟩
        exact ⟨pre, t, post, hsplit, Tab.firstBlank?_eq_some_iff.2 ht,
          fun t' ht' => Tab.firstBlank?_eq_none_iff.2 (hpre t' ht')⟩
    simp only [ofTabs_eq hne, ← hlack, hne, false_and, false_or]
    cases firstBlank? (tabs.flatMap Tab.requiredTexts) <;> simp [eq_comm]

/-! ## Keys -/

theorem mem_distinct {k : DeploymentKey} (seen ks : List DeploymentKey) :
    k ∈ distinct seen ks ↔ k ∈ ks ∧ k ∉ seen := by
  induction ks generalizing seen with
  | nil => simp [distinct]
  | cons k' ks ih =>
    unfold distinct
    split_ifs with hseen
    · rw [ih, List.mem_cons]
      constructor
      · exact fun h => ⟨.inr h.1, h.2⟩
      · rintro ⟨rfl | hmem, hfresh⟩
        · exact absurd hseen hfresh
        · exact ⟨hmem, hfresh⟩
    · rw [List.mem_cons, ih, List.mem_cons, List.mem_cons, not_or]
      by_cases hk : k = k'
      · simp [hk, hseen]
      · simp [hk]

/-- The place of the first tab that has the deployment. -/
def firstUse (tabs : List Tab) (k : DeploymentKey) : Nat :=
  tabs.findIdx fun t => t.deployment = some k

theorem firstUse_cons_of_ne {t : Tab} {k : DeploymentKey} (h : t.deployment ≠ some k) :
    firstUse (t :: tabs) k = firstUse tabs k + 1 := by
  simp [firstUse, List.findIdx_cons, h]

theorem firstUse_cons_self {t : Tab} {k : DeploymentKey} (h : t.deployment = some k) :
    firstUse (t :: tabs) k = 0 := by
  simp [firstUse, List.findIdx_cons, h]

/-- **What was not seen before is listed in the order of first use.** -/
theorem pairwise_distinct (seen : List DeploymentKey) (tabs : List Tab) :
    (distinct seen (tabs.filterMap (·.deployment))).Pairwise fun k k' =>
      firstUse tabs k < firstUse tabs k' := by
  induction tabs generalizing seen with
  | nil => exact .nil
  | cons t tabs ih =>
    have hother : ∀ seen, (∀ k, t.deployment = some k → k ∈ seen) →
        ∀ k ∈ distinct seen (tabs.filterMap (·.deployment)), t.deployment ≠ some k :=
      fun seen hseen k hk heq => ((mem_distinct _ _).1 hk).2 (hseen k heq)
    -- all other deployments are first used one place later
    have hlater : ∀ seen, (∀ k, t.deployment = some k → k ∈ seen) →
        (distinct seen (tabs.filterMap (·.deployment))).Pairwise fun k k' =>
          firstUse (t :: tabs) k < firstUse (t :: tabs) k' := by
      intro seen hseen
      refine (ih seen).imp_of_mem ?_
      intro k k' hk hk' hlt
      rw [firstUse_cons_of_ne (hother seen hseen k hk),
        firstUse_cons_of_ne (hother seen hseen k' hk')]
      exact Nat.succ_lt_succ hlt
    cases hkey : t.deployment with
    | none =>
      rw [List.filterMap_cons_none hkey]
      exact hlater seen (by simp [hkey])
    | some k =>
      rw [List.filterMap_cons_some hkey]
      unfold distinct
      split_ifs with hk
      · exact hlater seen (by simpa [hkey] using hk)
      · have hseen : ∀ k', t.deployment = some k' → k' ∈ k :: seen := by simp [hkey]
        refine List.pairwise_cons.2 ⟨?_, hlater _ hseen⟩
        intro k' hk'
        rw [firstUse_cons_self hkey, firstUse_cons_of_ne (hother _ hseen k' hk')]
        exact Nat.succ_pos _

theorem binding_of_tab {i : Nat} {t : Tab} (h : c.tabs[i]? = some t) :
    c.binding i = .ok ⟨i, t.deployment⟩ := by
  simp only [binding, tab, h]
  rfl

theorem binding_of_le {i : Nat} (h : c.size ≤ i) : c.binding i = .error (.unknownTab i) := by
  simp only [binding, tab, List.getElem?_eq_none_iff.2 h]
  rfl

theorem restartable_eq_ok_iff {i : Nat} {b : Binding} :
    c.restartable i = .ok b ↔ c.binding i = .ok b ∧ b.restartable = true := by
  unfold restartable
  cases c.binding i with
  | error e => simp
  | ok b' =>
    by_cases hb : b'.restartable = true
    · simp only [if_pos hb, Except.ok.injEq]
      exact ⟨fun h => ⟨h, h ▸ hb⟩, And.left⟩
    · simp only [if_neg hb, reduceCtorEq, Except.ok.injEq, false_iff, not_and]
      exact fun h => h ▸ hb

theorem restartable_iff {i : Nat} {k : DeploymentKey} : c.restartable i = .ok ⟨i, some k⟩ ↔
    ∃ t, c.tabs[i]? = some t ∧ t.deployment = some k := by
  rw [restartable_eq_ok_iff]
  constructor
  · rintro ⟨h, -⟩
    cases htab : c.tabs[i]? with
    | none =>
      rw [binding_of_le (List.getElem?_eq_none_iff.1 htab)] at h
      cases h
    | some t =>
      obtain ⟨-, hkey⟩ := Binding.mk.inj (Except.ok.inj ((binding_of_tab htab).symm.trans h))
      exact ⟨t, rfl, hkey⟩
  · rintro ⟨t, htab, hkey⟩
    exact ⟨hkey ▸ binding_of_tab htab, rfl⟩

theorem mem_deployments {k : DeploymentKey} :
    k ∈ c.deployments ↔ ∃ i : Nat, c.restartable i = .ok ⟨i, some k⟩ := by
  rw [deployments, mem_distinct, and_iff_left List.not_mem_nil, List.mem_filterMap]
  constructor
  · rintro ⟨t, ht, hkey⟩
    obtain ⟨i, htab⟩ := List.mem_iff_getElem?.1 ht
    exact ⟨i, restartable_iff.2 ⟨t, htab, hkey⟩⟩
  · rintro ⟨i, h⟩
    obtain ⟨t, htab, hkey⟩ := restartable_iff.1 h
    exact ⟨t, List.mem_of_getElem? htab, hkey⟩

/-! ## The catalog -/

/-- The catalog has these tabs, in order and with tidy texts. -/
structure Normalized (tabs : List Tab) (c : Catalog) : Prop where
  places : List.Forall₂ KeptTab tabs c.tabs
  /-- The catalog is that of its own tabs. -/
  again : ofTabs c.tabs = .ok c
  /-- A place carries a key exactly if its tab has a deployment. -/
  bound : ∀ i t, tabs[i]? = some t →
    ∃ key, c.binding i = .ok ⟨i, key⟩ ∧ Option.Rel KeptKey t.deployment key
  unbound : ∀ i, tabs.length ≤ i → c.binding i = .error (.unknownTab i)
  /-- The deployments are listed once, and in the order of first use. -/
  first : c.deployments.Pairwise fun k k' => firstUse c.tabs k < firstUse c.tabs k'
  deployments : ∀ k, k ∈ c.deployments ↔ ∃ i : Nat, c.restartable i = .ok ⟨i, some k⟩
  /-- Two tabs have one key, and exclude each other's restarts, exactly if their names agree. -/
  shared : ∀ i j ti tj ki kj, tabs[i]? = some ti → ti.deployment = some ki →
    tabs[j]? = some tj → tj.deployment = some kj →
      ∃ ki' kj', c.restartable i = .ok ⟨i, some ki'⟩ ∧ c.restartable j = .ok ⟨j, some kj'⟩ ∧
        (ki' = kj' ↔ SameNames ki kj) ∧
          ∀ b b' : Board, b.requestRestart i (some ki') = (.ok (), b') →
            ((b'.requestRestart j (some kj')).1 = .error (.inProgress kj') ↔
              SameNames ki kj ∨ (b.requestRestart j (some kj')).1 = .error (.inProgress kj'))

/-- Which catalog there is of the tabs, if there is one. -/
structure Judged (tabs : List Tab) : Prop where
  accepted : (∃ c, ofTabs tabs = .ok c) ↔ tabs ≠ [] ∧ ∀ t ∈ tabs, t.Full
  rejected : ∀ e, ofTabs tabs = .error e ↔
    (tabs = [] ∧ e = .noTabs) ∨ ∃ field, Lack tabs field ∧ e = .blank field
  normalized : ∀ c, ofTabs tabs = .ok c → Normalized tabs c

theorem again_trimmed (hne : tabs ≠ []) (hfull : ∀ t ∈ tabs, t.Full) :
    ofTabs (tabs.map Tab.trimmedTab) = .ok ⟨tabs.map Tab.trimmedTab⟩ := by
  have htwice : (tabs.map Tab.trimmedTab).map Tab.trimmedTab = tabs.map Tab.trimmedTab := by
    rw [List.map_map]
    exact List.map_congr_left fun t _ => Tab.trimmedTab_trimmedTab t
  refine ofTabs_eq_ok_iff.2 ⟨⟨by simpa using hne, ?_⟩, by rw [htwice]⟩
  intro t' ht'
  obtain ⟨t, ht, rfl⟩ := List.mem_map.1 ht'
  exact Tab.full_trimmedTab.2 (hfull t ht)

theorem normalized_trimmed (hne : tabs ≠ []) (hfull : ∀ t ∈ tabs, t.Full) :
    Normalized tabs ⟨tabs.map Tab.trimmedTab⟩ := by
  have htab : ∀ {i : Nat} {t : Tab}, tabs[i]? = some t →
      (tabs.map Tab.trimmedTab)[i]? = some t.trimmedTab := by
    intro i t ht
    rw [List.getElem?_map, ht]
    rfl
  have hkept : ∀ t ∈ tabs, KeptTab t t.trimmedTab := fun t ht =>
    Tab.keptTab_iff.2 ⟨hfull t ht, rfl⟩
  refine ⟨?_, again_trimmed hne hfull, ?_, ?_, pairwise_distinct [] _, fun k => mem_deployments, ?_⟩
  · rw [List.forall₂_map_right_iff, List.forall₂_same]
    exact hkept
  · intro i t ht
    exact ⟨_, binding_of_tab (htab ht), (hkept t (List.mem_of_getElem? ht)).deployment⟩
  · intro i hi
    exact binding_of_le (by simpa [size] using hi)
  · intro i j ti tj ki kj hti hki htj hkj
    have hkey : ∀ {i : Nat} {t : Tab} {k}, tabs[i]? = some t → t.deployment = some k →
        (⟨tabs.map Tab.trimmedTab⟩ : Catalog).restartable i = .ok ⟨i, some (trimmedKey k)⟩ := by
      intro i t k ht hk
      exact restartable_iff.2 ⟨_, htab ht, by rw [Tab.trimmedTab, hk]; rfl⟩
    refine ⟨trimmedKey ki, trimmedKey kj, hkey hti hki, hkey htj hkj, trimmedKey_eq_iff, ?_⟩
    intro b b' h
    rw [Restarts.requestRestart_after h, trimmedKey_eq_iff]

/-- **A list of tabs makes a catalog, in order and trimmed, or its first blank text is named.** -/
theorem catalog_normalized (tabs : List Tab) : Judged tabs where
  accepted := by
    simp only [ofTabs_eq_ok_iff, exists_and_left, exists_eq, and_true]
  rejected _ := ofTabs_eq_error_iff
  normalized c h := by
    obtain ⟨⟨hne, hfull⟩, rfl⟩ := ofTabs_eq_ok_iff.1 h
    exact normalized_trimmed hne hfull

end Catalog

end TabBoard
