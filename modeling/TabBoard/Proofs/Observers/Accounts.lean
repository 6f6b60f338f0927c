import TabBoard.Proofs.Observers.Turns

/-!
# What observers note

Every step of a publication adds its entries to the log. An account says what such entries tell
(`Account`): their publications are numbered one after another, and each of them runs those who had
subscribed when it began. Accounts of successive stretches add up (`Account.append`), because no
entry is about a publication of a later stretch, and so all that a publication does is accounted for
(`reports_publish`), by induction on the event and on the script of each handler.
-/

namespace TabBoard.Observers

variable {σ ε : Type} [WellFoundedRelation ε] {b b' b'' : Observers σ ε}
  {hs : List (Handler σ ε)} {es es' : List (Entry σ ε)} {lo mid hi k : Nat} {own : Option Nat}

/-! ## Entries -/

/-- The publication that an entry belongs to. -/
def Entry.publication? : Entry σ ε → Option Nat
  | .began k _ => some k
  | .ran k _ => some k
  | .broke k _ _ => some k
  | .subscribed _ => none

/-- The publication that begins. -/
def Entry.began? : Entry σ ε → Option Nat
  | .began k _ => some k
  | _ => none

/-- The handler that publication `k` runs. -/
def Entry.ran? (k : Nat) : Entry σ ε → Option (Handler σ ε)
  | .ran k' h => if k' = k then some h else none
  | _ => none

/-- The position at which a handler of publication `k` breaks off, and how. -/
def Entry.broke? (k : Nat) : Entry σ ε → Option (Nat × Panic)
  | .broke k' pos p => if k' = k then some (pos, p) else none
  | _ => none

/-- The handler that subscribes. -/
def Entry.subscribed? : Entry σ ε → Option (Handler σ ε)
  | .subscribed h => some h
  | _ => none

@[simp] theorem Entry.ran?_ran (k : Nat) (h : Handler σ ε) : (Entry.ran k h).ran? k = some h :=
  if_pos rfl

@[simp] theorem Entry.ran?_broke (k j pos : Nat) (p : Panic) :
    (Entry.broke j pos p : Entry σ ε).ran? k = none := rfl

@[simp] theorem Entry.broke?_ran (k j : Nat) (h : Handler σ ε) : (Entry.ran j h).broke? k = none :=
  rfl

@[simp] theorem Entry.broke?_broke (k pos : Nat) (p : Panic) :
    (Entry.broke k pos p : Entry σ ε).broke? k = some (pos, p) := if_pos rfl

/-- No entry belongs to publication `k`. -/
def Silent (k : Nat) (es : List (Entry σ ε)) : Prop := ∀ entry ∈ es, entry.publication? ≠ some k

theorem Silent.ran (h : Silent k es) : es.filterMap (Entry.ran? k) = [] := by
  refine List.filterMap_eq_nil_iff.2 fun entry hentry => ?_
  have hne := h entry hentry
  cases entry with
  | ran k' handler => exact if_neg fun heq => hne (congrArg some heq)
  | began | broke | subscribed => rfl

theorem Silent.broke (h : Silent k es) : es.filterMap (Entry.broke? k) = [] := by
  refine List.filterMap_eq_nil_iff.2 fun entry hentry => ?_
  have hne := h entry hentry
  cases entry with
  | broke k' pos p => exact if_neg fun heq => hne (congrArg some heq)
  | began | ran | subscribed => rfl

/-! ## Accounts -/

/-- Publication `k` begins between `pre` and `post`: from then on it runs the handlers of its
snapshot, each once and in order, until something escapes from one of those that break off. -/
structure Heard (k : Nat) (snapshot : List (Handler σ ε)) (pre post : List (Entry σ ε)) : Prop where
  before : Silent k pre
  reached : Reached 0 snapshot (post.filterMap (Entry.ran? k)) (post.filterMap (Entry.broke? k))

/-- What entries say that were added when the handlers were `hs` and `lo` publications had begun;
`hi` have begun after them. A publication that goes on around them may be `own`. -/
structure Account (own : Option Nat) (hs : List (Handler σ ε)) (lo : Nat) (es : List (Entry σ ε))
    (hi : Nat) : Prop where
  le : lo ≤ hi
  around : ∀ k ∈ own, k < lo
  /-- Publications begin in the order of their numbers. -/
  began : es.filterMap Entry.began? = List.range' lo (hi - lo)
  /-- Every entry belongs to one of them, or to the one around them. -/
  within : ∀ entry ∈ es, ∀ k ∈ entry.publication?, k ∈ own ∨ lo ≤ k ∧ k < hi
  /-- Each runs those who had subscribed when it began. -/
  heard : ∀ pre k e post, es = pre ++ .began k e :: post →
    Heard k (hs ++ pre.filterMap Entry.subscribed?) pre post

theorem account_nil (h : ∀ k ∈ own, k < lo) : Account own hs lo [] lo where
  le := Nat.le_refl lo
  around := h
  began := by rw [Nat.sub_self]; rfl
  within := by simp
  heard := by simp

theorem Account.mem_began (h : Account own hs lo es hi) {e : ε} (he : .began k e ∈ es) :
    lo ≤ k ∧ k < hi := by
  have hmem : k ∈ es.filterMap Entry.began? := List.mem_filterMap.2 ⟨_, he, rfl⟩
  rw [h.began, List.mem_range'_1] at hmem
  exact ⟨hmem.1, by have := h.le; omega⟩

/-- Nothing is said of a publication that is neither around these entries nor among them. -/
theorem Account.silent (h : Account own hs lo es hi) (hown : k ∉ own) (hk : k < lo ∨ hi ≤ k) :
    Silent k es := by
  intro entry hentry hpublication
  obtain hmem | hrange := h.within entry hentry k hpublication
  · exact hown hmem
  · omega

theorem Heard.behind {snapshot : List (Handler σ ε)} {pre post : List (Entry σ ε)}
    (h : Heard k snapshot pre post) (hes : Silent k es) : Heard k snapshot (es ++ pre) post where
  before entry hentry := (List.mem_append.1 hentry).elim (hes entry) (h.before entry)
  reached := h.reached

theorem Heard.followed {snapshot : List (Handler σ ε)} {pre post : List (Entry σ ε)}
    (h : Heard k snapshot pre post) (hes : Silent k es) : Heard k snapshot pre (post ++ es) where
  before := h.before
  reached := by
    rw [List.filterMap_append, hes.ran, List.append_nil, List.filterMap_append, hes.broke,
      List.append_nil]
    exact h.reached

/-- What begins in a later stretch hears those who subscribed in an earlier one as well. -/
theorem Account.heard_behind (h : Account own hs lo es mid)
    (h' : Account own (hs ++ es.filterMap Entry.subscribed?) mid es' hi)
    {pre post : List (Entry σ ε)} {e : ε} (hes' : es' = pre ++ .began k e :: post) :
    Heard k (hs ++ (es ++ pre).filterMap Entry.subscribed?) (es ++ pre) post := by
  have hle := h.le
  have hmem : .began k e ∈ es' := by
    rw [hes']
    exact List.mem_append_right _ List.mem_cons_self
  have hrange := h'.mem_began hmem
  have hsilent : Silent k es :=
    h.silent (fun hown => by have := h.around k hown; omega) (.inr hrange.1)
  have hheard := (h'.heard pre k e post hes').behind hsilent
  rwa [List.append_assoc, ← List.filterMap_append] at hheard

/-- Accounts of successive stretches add up. -/
theorem Account.append (h : Account own hs lo es mid)
    (h' : Account own (hs ++ es.filterMap Entry.subscribed?) mid es' hi) :
    Account own hs lo (es ++ es') hi where
  le := Nat.le_trans h.le h'.le
  around := h.around
  began := by
    have hle := h.le
    have hle' := h'.le
    rw [List.filterMap_append, h.began, h'.began,
      show hi - lo = (mid - lo) + (hi - mid) by omega, ← List.range'_append_1,
      show lo + (mid - lo) = mid by omega]
  within := by
    intro entry hentry k hk
    have hle := h.le
    have hle' := h'.le
    obtain hmem | hmem := List.mem_append.1 hentry
    · exact (h.within entry hmem k hk).imp_right fun hrange => by omega
    · exact (h'.within entry hmem k hk).imp_right fun hrange => by omega
  heard := by
    intro pre k e post hsplit
    obtain ⟨inner, rfl, hes'⟩ | ⟨_ | ⟨entry, inner⟩, rfl, hpost⟩ :=
      List.append_eq_append_iff.1 hsplit
    · exact h.heard_behind h' hes'
    · rw [List.append_nil] at h h'
      have hheard := h.heard_behind h' (hpost.symm.trans (List.nil_append _).symm)
      rwa [List.append_nil] at hheard
    · -- the publication begins in the first stretch
      obtain ⟨rfl, rfl⟩ := List.cons.inj hpost
      have hrange := h.mem_began (e := e) (List.mem_append_right _ List.mem_cons_self)
      have hsilent : Silent k es' :=
        h'.silent (fun hown => by have := h.around k hown; omega) (.inl hrange.2)
      exact (h.heard pre k e inner rfl).followed hsilent

/-- An entry that begins nothing. -/
theorem account_entry {entry : Entry σ ε} (hbegan : entry.began? = none)
    (hwithin : ∀ k ∈ entry.publication?, k ∈ own) (haround : ∀ k ∈ own, k < lo) :
    Account own hs lo [entry] lo where
  le := Nat.le_refl lo
  around := haround
  began := by simp [hbegan]
  within := by
    intro entry' hentry' k hk
    rw [List.mem_singleton.1 hentry'] at hk
    exact .inl (hwithin k hk)
  heard := by
    intro pre k e post hsplit
    have hmem : .began k e ∈ [entry] := by
      rw [hsplit]
      exact List.mem_append_right _ List.mem_cons_self
    rw [← List.mem_singleton.1 hmem] at hbegan
    cases hbegan

/-- What happens while no publication goes on may as well happen in one. -/
theorem Account.inside (h : Account none hs lo es hi) (hk : k < lo) :
    Account (some k) hs lo es hi where
  le := h.le
  around _ hk' := Option.mem_some.1 hk' ▸ hk
  began := h.began
  within entry hentry k' hk' := .inr ((h.within entry hentry k' hk').resolve_left (nomatch ·))
  heard := h.heard

/-- A publication together with what happens in it. -/
theorem Account.close {e : ε} (h : Account (some k) hs (k + 1) es hi)
    (hreached : Reached 0 hs (es.filterMap (Entry.ran? k)) (es.filterMap (Entry.broke? k))) :
    Account none hs k (.began k e :: es) hi where
  le := Nat.le_of_succ_le h.le
  around := by simp
  began := by
    have hle := h.le
    have hbegan : (Entry.began k e :: es).filterMap Entry.began? =
        k :: es.filterMap Entry.began? := rfl
    rw [hbegan, h.began, show hi - k = (hi - (k + 1)) + 1 by omega, List.range'_succ]
  within := by
    intro entry hentry k' hk'
    have hle := h.le
    obtain rfl | hmem := List.mem_cons.1 hentry
    · cases hk'
      exact .inr ⟨Nat.le_refl k, hle⟩
    · obtain hown | hrange := h.within entry hmem k' hk'
      · cases hown
        exact .inr ⟨Nat.le_refl k, hle⟩
      · exact .inr (by omega)
  heard := by
    intro pre k' e' post hsplit
    cases pre with
    | nil =>
      obtain ⟨hentry, rfl⟩ := List.cons.inj hsplit
      cases hentry
      rw [List.filterMap_nil, List.append_nil]
      exact ⟨by simp [Silent], hreached⟩
    | cons entry pre =>
      obtain ⟨rfl, rfl⟩ := List.cons.inj hsplit
      have hrange := h.mem_began (e := e') (List.mem_append_right _ List.mem_cons_self)
      have hsilent : Silent k' [Entry.began (σ := σ) k e] := by
        intro entry hentry heq
        rw [List.mem_singleton.1 hentry] at heq
        cases heq
        omega
      exact (h.heard pre k' e' post rfl).behind hsilent

/-! ## What is added to the log -/

/-- `b'` comes after `b`, and `es` are the entries for what happened in between. -/
structure Reports (own : Option Nat) (b : Observers σ ε) (es : List (Entry σ ε))
    (b' : Observers σ ε) : Prop where
  name : b'.name = b.name
  log : b'.log = b.log ++ es
  handlers : b'.handlers = b.handlers ++ es.filterMap Entry.subscribed?
  account : Account own b.handlers b.begun es b'.begun

theorem reports_refl (b : Observers σ ε) : Reports none b [] b where
  name := rfl
  log := (List.append_nil _).symm
  handlers := (List.append_nil _).symm
  account := account_nil (by simp)

theorem Reports.append (h : Reports own b es b') (h' : Reports own b' es' b'') :
    Reports own b (es ++ es') b'' where
  name := h'.name.trans h.name
  log := by rw [h'.log, h.log, List.append_assoc]
  handlers := by rw [h'.handlers, h.handlers, List.filterMap_append, List.append_assoc]
  account := h.account.append (h.handlers ▸ h'.account)

theorem Reports.inside (h : Reports none b es b') (hk : k < b.begun) :
    Reports (some k) b es b' :=
  { h with account := h.account.inside hk }

theorem reports_subscribe (b : Observers σ ε) (h : Handler σ ε) :
    Reports none b [.subscribed h] (b.subscribe h) :=
  ⟨rfl, rfl, rfl, account_entry rfl (by simp [Entry.publication?]) (by simp)⟩

theorem reports_write {entry : Entry σ ε} (hbegan : entry.began? = none)
    (hsubscribed : entry.subscribed? = none) (hpublication : entry.publication? = some k)
    (hk : k < b.begun) : Reports (some k) b [entry] (b.write entry) where
  name := rfl
  log := rfl
  handlers := by simp [write, hsubscribed]
  account := account_entry hbegan (fun _ hk' => hpublication ▸ hk')
    (fun _ hk' => Option.mem_some.1 hk' ▸ hk)

/-- **What a handler does is accounted for**, if what it publishes is. -/
theorem reports_perform {e : ε} (script : Script σ e)
    {again : (e' : ε) → WellFoundedRelation.rel e' e → Observers σ ε →
      Except Panic Nat × Observers σ ε}
    (hagain : ∀ e' smaller b, ∃ es, Reports none b es (again e' smaller b).2)
    (b : Observers σ ε) : ∃ es, Reports none b es (perform again script b).2 := by
  induction script generalizing b with
  | finish => exact ⟨[], reports_refl b⟩
  | panic p => exact ⟨[], reports_refl b⟩
  | share change rest ih =>
    obtain ⟨es, hes⟩ := ih b.shared hagain { b with shared := change b.shared }
    exact ⟨es, hes.name, hes.log, hes.handlers, hes.account⟩
  | count rest ih => exact ih b.size hagain b
  | subscribe h rest _ ih =>
    obtain ⟨es, hes⟩ := ih hagain (b.subscribe h)
    exact ⟨_, (reports_subscribe b h).append hes⟩
  | publish e' smaller rest ih =>
    obtain ⟨es, hes⟩ := hagain e' smaller b
    rw [perform]
    rcases hagain' : again e' smaller b with ⟨p | n, b'⟩
    · rw [hagain'] at hes
      exact ⟨es, hes⟩
    · rw [hagain'] at hes
      obtain ⟨es', hes'⟩ := ih n hagain b'
      exact ⟨_, hes.append hes'⟩

/-! ## Publications -/

/-- The turn of a handler in publication `k` of the event `e`. -/
def respond (e : ε) (k : Nat) (h : Handler σ ε) (s : Observers σ ε) :
    Option Panic × Observers σ ε :=
  perform (fun e' _ s => s.publish e') (h e) (s.write (.ran k h))

theorem publish_eq (e : ε) (b : Observers σ ε) :
    b.publish e = notify (respond e b.begun) (note b.begun) 0 b.handlers (b.start e) := by
  rw [publish]
  rfl

/-- A turn that broke off is noted. -/
theorem reports_left (pos : Nat) (t : Turn (Handler σ ε) (Observers σ ε))
    (hk : k < t.after.begun) :
    Reports (some k) t.after (t.ending.map (Entry.broke k pos)).toList (t.left (note k) pos) := by
  rw [Turn.left]
  cases t.ending with
  | none => exact (reports_refl t.after).inside hk
  | some p => exact reports_write rfl rfl rfl hk

/-- What the handlers of a publication do, one after another, is accounted for, if what they
publish is. -/
theorem reports_course {e : ε} {pos : Nat} {turns : List (Turn (Handler σ ε) (Observers σ ε))}
    (hagain : ∀ e', WellFoundedRelation.rel e' e → ∀ b : Observers σ ε,
      ∃ es, Reports none b es (b.publish e').2)
    (h : Course (respond e k) (note k) pos b turns b') (hk : k < b.begun) :
    ∃ es, Reports (some k) b es b' ∧ es.filterMap (Entry.ran? k) = turns.map (·.handler) ∧
      es.filterMap (Entry.broke? k) = breaks pos turns := by
  induction h with
  | nil pos s => exact ⟨[], (reports_refl s).inside hk, rfl, rfl⟩
  | @cons pos t turns s' hrun _ ih =>
    obtain ⟨es, hes⟩ := reports_perform (t.handler e)
      (fun e' smaller b => hagain e' smaller b) (t.before.write (.ran k t.handler))
    have hafter : (perform (fun e' _ s => s.publish e') (t.handler e)
        (t.before.write (.ran k t.handler))).2 = t.after := congrArg Prod.snd hrun
    rw [hafter] at hes
    have hsilent : Silent k es := hes.account.silent (by simp) (.inl hk)
    have hlater : k < t.after.begun := Nat.lt_of_lt_of_le hk hes.account.le
    have hleft := reports_left pos t hlater
    obtain ⟨es', hes', hran, hbroke⟩ := ih (Nat.lt_of_lt_of_le hlater hleft.account.le)
    refine ⟨_, (((reports_write rfl rfl rfl hk).append (hes.inside hk)).append hleft).append hes',
      ?_, ?_⟩
    · cases t.ending <;> simp [List.filterMap_cons, hsilent.ran, hran]
    · rw [breaks_cons]
      cases t.ending <;> simp [List.filterMap_cons, hsilent.broke, hbroke]

/-- The turns that a publication takes. -/
def turns (e : ε) (b : Observers σ ε) : List (Turn (Handler σ ε) (Observers σ ε)) :=
  takeTurns (respond e b.begun) (note b.begun) 0 b.handlers (b.start e)

theorem course_turns (e : ε) (b : Observers σ ε) :
    Course (respond e b.begun) (note b.begun) 0 (b.start e) (b.turns e) (b.publish e).2 := by
  rw [publish_eq]
  exact course_takeTurns _ _ _ _ _

theorem reached_turns (e : ε) (b : Observers σ ε) :
    Reached 0 b.handlers ((b.turns e).map Turn.handler) (breaks 0 (b.turns e)) :=
  reached_takeTurns _ _ _ _ _

theorem outcome_turns (e : ε) (b : Observers σ ε) : (b.publish e).1 = outcome (b.turns e) := by
  rw [publish_eq]
  exact outcome_takeTurns _ _ _ _ _

/-- The entries of a publication, if what is published in it is accounted for. -/
theorem exists_entries {e : ε} (b : Observers σ ε)
    (hagain : ∀ e', WellFoundedRelation.rel e' e → ∀ b : Observers σ ε,
      ∃ es, Reports none b es (b.publish e').2) :
    ∃ es, Reports none b (.began b.begun e :: es) (b.publish e).2 ∧
      es.filterMap (Entry.broke? b.begun) = breaks 0 (b.turns e) := by
  obtain ⟨es, hes, hran, hbroke⟩ :=
    reports_course hagain (b.course_turns e) (Nat.lt_succ_self b.begun)
  have hreached : Reached 0 b.handlers (es.filterMap (Entry.ran? b.begun))
      (es.filterMap (Entry.broke? b.begun)) := by
    rw [hran, hbroke]
    exact b.reached_turns e
  refine ⟨es, ⟨hes.name, ?_, hes.handlers, hes.account.close hreached⟩, hbroke⟩
  rw [hes.log, start, write, List.append_assoc]
  rfl

/-- **What a publication does is accounted for**, with all that is published in it. -/
theorem reports_publish (e : ε) (b : Observers σ ε) : ∃ es, Reports none b es (b.publish e).2 := by
  induction e using (‹WellFoundedRelation ε›.wf).induction generalizing b with
  | _ e ih =>
    obtain ⟨es, hes, -⟩ := exists_entries b fun e' smaller b => ih e' smaller b
    exact ⟨_, hes⟩

theorem Course.respond_eq {e : ε} {pos : Nat} {turns : List (Turn (Handler σ ε) (Observers σ ε))}
    (h : Course (respond e k) (note k) pos b turns b') :
    ∀ t ∈ turns, respond e k t.handler t.before = (t.ending, t.after) := by
  induction h with
  | nil => simp
  | cons hrun _ ih => exact List.forall_mem_cons.2 ⟨hrun, ih⟩

end TabBoard.Observers
