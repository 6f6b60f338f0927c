import TabBoard.Delivery.Registry
import TabBoard.Proofs.Table

/-!
# The registry stays consistent

A registry changes in four indivisible ways (`Registry.Change`): a connection is registered, a token
is disconnected, a connection that was picked earlier turns out to be lost, a subject is bound.
`Registry.run` makes any list of such changes, in any order, to an empty registry.

**Theorem (`run_consistent`).** After every list of changes the tokens are exactly the inverse of
the connections. So no token belongs to two request ids and no request id has two tokens, both
tables have one entry for each connection, a disconnect never finds a token that leads nowhere, and
it removes exactly the connection that has the token now, if there is one.

The invariant is `Registry.Sound`: consistency, and no key twice in either table. Everything is
derived from one lemma for each change that says that the change keeps it.
-/

namespace TabBoard.Registry

/-! ## Changes -/

/-- One indivisible change of a registry. -/
inductive Change where
  | connect (id token url : String)
  | disconnect (token : String)
  /-- The gateway does not know the token of a connection that was picked at some earlier time. -/
  | lost (id token : String)
  | bind (id subject : String)
  deriving Repr, DecidableEq

/-- The registry after a change. A subject without a live connection changes nothing. -/
def apply (r : Registry) : Change → Registry
  | .connect id token url => (r.connect id token url).1
  | .disconnect token => (r.disconnect token).1
  | .lost id token => r.removeIfCurrent id token
  | .bind id subject => (r.bind? id subject).getD r

def applyAll (r : Registry) (cs : List Change) : Registry := cs.foldl apply r

def run (cs : List Change) : Registry := applyAll {} cs

/-! ## The invariant -/

/-- Both directions agree and neither holds a key twice. -/
structure Sound (r : Registry) : Prop where
  consistent : r.Consistent
  connections : r.connections.Distinct
  tokens : r.tokens.Distinct

variable {r : Registry} {id token : String}

theorem sound_empty : Sound {} where
  consistent := by simp [Consistent]
  connections := Table.distinct_empty
  tokens := Table.distinct_empty

theorem isCurrent_iff :
    r.isCurrent id token = true ↔ ∃ c, r.connections.get? id = some c ∧ c.token = token := by
  simp [isCurrent, Option.any_eq_true]

/-- In a sound registry a token leads to the request id whose connection has it. -/
theorem Sound.isCurrent_iff (h : r.Sound) :
    r.isCurrent id token = true ↔ r.tokens.get? token = some id := by
  rw [Registry.isCurrent_iff, h.consistent]

theorem Sound.eq_of_token (h : r.Sound) {id' : String} {c c' : Connection}
    (hc : r.connections.get? id = some c) (hc' : r.connections.get? id' = some c')
    (ht : c.token = c'.token) : id = id' := by
  have h₁ := (h.consistent c.token id).2 ⟨c, hc, rfl⟩
  have h₂ := (h.consistent c.token id').2 ⟨c', hc', ht.symm⟩
  exact Option.some.inj (h₁.symm.trans h₂)

/-! ## Removing -/

theorem removeIfCurrent_of_not (h : r.isCurrent id token = false) :
    r.removeIfCurrent id token = r := by simp [removeIfCurrent, h]

theorem removeIfCurrent_of (h : r.isCurrent id token = true) :
    r.removeIfCurrent id token = ⟨r.connections.erase id, r.tokens.erase token⟩ := by
  simp [removeIfCurrent, h]

theorem Sound.removeIfCurrent (h : r.Sound) (id token : String) :
    (r.removeIfCurrent id token).Sound := by
  cases hcur : r.isCurrent id token with
  | false => rwa [removeIfCurrent_of_not hcur]
  | true =>
    rw [removeIfCurrent_of hcur]
    refine ⟨?_, h.connections.erase id, h.tokens.erase token⟩
    intro t i
    obtain ⟨c, hc, hct⟩ := Registry.isCurrent_iff.1 hcur
    rw [Table.get?_erase, Table.get?_erase]
    by_cases ht : token = t
    · -- the erased token: any other connection with it would be the erased one
      simp only [if_pos ht, reduceCtorEq, false_iff, not_exists, not_and]
      intro c' hc' hct'
      by_cases hi : id = i
      · simp [hi] at hc'
      · rw [if_neg hi] at hc'
        exact hi (h.eq_of_token hc hc' (hct.trans (ht.trans hct'.symm)))
    · rw [if_neg ht, h.consistent]
      by_cases hi : id = i
      · subst hi
        simp only [if_true, reduceCtorEq, false_and, exists_false, iff_false, not_exists, not_and]
        intro c' hc' hct'
        rw [hc] at hc'
        exact ht (hct ▸ Option.some.inj hc' ▸ hct')
      · rw [if_neg hi]

/-! ## Connecting -/

theorem Sound.releaseToken (h : r.Sound) (id token : String) : (r.releaseToken id token).Sound := by
  unfold Registry.releaseToken
  split
  · split
    · exact h
    · exact h.removeIfCurrent _ _
  · exact h

/-- Afterwards the token is free, or it belongs to the request id already. -/
theorem Sound.tokens_releaseToken (h : r.Sound) {i : String}
    (hi : (r.releaseToken id token).tokens.get? token = some i) : i = id := by
  unfold Registry.releaseToken at hi
  split at hi
  · rename_i owner howner
    split at hi
    · rename_i heq
      exact (Option.some.inj (howner.symm.trans hi)) ▸ heq
    · rw [removeIfCurrent_of (h.isCurrent_iff.2 howner), Table.get?_erase, if_pos rfl] at hi
      cases hi
  · rename_i hnone
    rw [hnone] at hi
    cases hi

/-- The tokens that a registration keeps: all but the one it takes the place of. -/
def kept (r : Registry) (id token : String) : Table String String :=
  match r.replaced id token with
  | some old => r.tokens.erase old
  | none => r.tokens

theorem connect_eq (r : Registry) (id token url : String) :
    r.connect id token url =
      (⟨(r.releaseToken id token).connections.insert id { token, url },
        ((r.releaseToken id token).kept id token).insert token id⟩,
        (r.releaseToken id token).replaced id token) := rfl

theorem Sound.distinct_kept (h : r.Sound) : (r.kept id token).Distinct := by
  unfold kept
  split
  · exact h.tokens.erase _
  · exact h.tokens

/-- A kept token other than the new one leads where it led, and not to the request id. -/
theorem Sound.get?_kept (h : r.Sound) {t i : String} (ht : token ≠ t) :
    (r.kept id token).get? t = some i ↔ r.tokens.get? t = some i ∧ i ≠ id := by
  have hid : ∀ c, r.connections.get? id = some c →
      (r.tokens.get? t = some id ↔ c.token = t) := by
    intro c hc
    rw [h.consistent]
    simp [hc]
  have hnone : r.connections.get? id = none → r.tokens.get? t ≠ some id := by
    intro hc ht'
    obtain ⟨c, hc', -⟩ := (h.consistent _ _).1 ht'
    rw [hc] at hc'
    cases hc'
  unfold kept replaced
  cases hc : r.connections.get? id with
  | none => grind
  | some c =>
    have := hid c hc
    by_cases hct : c.token = token <;> grind [Table.get?_erase]

theorem Sound.connect (h : r.Sound) (id token url : String) : (r.connect id token url).1.Sound := by
  have h₁ := h.releaseToken id token
  have hfree : ∀ i, (r.releaseToken id token).tokens.get? token = some i → i = id :=
    fun i => h.tokens_releaseToken
  rw [connect_eq]
  generalize r.releaseToken id token = r₁ at h₁ hfree
  refine ⟨?_, h₁.connections.insert _ _, h₁.distinct_kept.insert _ _⟩
  intro t i
  rw [Table.get?_insert, Table.get?_insert]
  by_cases ht : token = t
  · subst ht
    by_cases hi : id = i
    · simp [hi]
    · -- the token was free or belonged to `id`, so no other connection has it
      rw [if_pos rfl, if_neg hi, ← h₁.consistent]
      exact ⟨fun he => absurd (Option.some.inj he) hi, fun he => absurd (hfree i he).symm hi⟩
  · rw [if_neg ht, h₁.get?_kept ht, h₁.consistent]
    by_cases hi : id = i
    · subst hi
      simp [ht]
    · simp [hi, Ne.symm hi]

/-! ## Disconnecting and binding -/

/-- **In a sound registry a disconnect removes the connection that has the token, or nothing.** -/
theorem Sound.disconnect_eq (h : r.Sound) (token : String) :
    r.disconnect token =
      match r.tokens.get? token with
      | none => (r, .unknown)
      | some id => (⟨r.connections.erase id, r.tokens.erase token⟩, .removed id) := by
  unfold Registry.disconnect
  cases ht : r.tokens.get? token with
  | none => rfl
  | some id =>
    have hcur : r.isCurrent id token = true := h.isCurrent_iff.2 ht
    simp only [if_pos hcur, removeIfCurrent_of hcur]

theorem Sound.disconnect (h : r.Sound) (token : String) : (r.disconnect token).1.Sound := by
  rw [h.disconnect_eq]
  cases ht : r.tokens.get? token with
  | none => exact h
  | some id =>
    have hremoved := h.removeIfCurrent id token
    rwa [removeIfCurrent_of (h.isCurrent_iff.2 ht)] at hremoved

theorem Sound.bind (h : r.Sound) (id subject : String) :
    ((r.bind? id subject).getD r).Sound := by
  unfold Registry.bind?
  split
  · refine ⟨?_, h.connections.modify _ _, h.tokens⟩
    intro t i
    -- binding changes no token
    simp only [Option.getD_some, h.consistent t i, Table.get?_modify]
    split
    · simp [Option.map_eq_some_iff]
    · rfl
  · exact h

/-! ## Any changes -/

theorem Sound.apply (h : r.Sound) (c : Change) : (r.apply c).Sound := by
  cases c with
  | connect id token url => exact h.connect id token url
  | disconnect token => exact h.disconnect token
  | lost id token => exact h.removeIfCurrent id token
  | bind id subject => exact h.bind id subject

theorem Sound.applyAll (h : r.Sound) (cs : List Change) : (r.applyAll cs).Sound := by
  induction cs generalizing r with
  | nil => exact h
  | cons c cs ih => exact ih (h.apply c)

theorem sound_run (cs : List Change) : (run cs).Sound := sound_empty.applyAll cs

/-- **The tokens of a sound registry are its connections, read backwards.** -/
theorem Sound.tokens_perm (h : r.Sound) :
    (r.connections.entries.map fun e => (e.2.token, e.1)).Perm r.tokens.entries := by
  have hnodup : (r.connections.entries.map fun e => (e.2.token, e.1)).Nodup :=
    List.Nodup.of_map Prod.snd (by rw [List.map_map]; exact h.connections)
  rw [List.perm_ext_iff_of_nodup hnodup h.tokens.nodup_entries]
  rintro ⟨t, i⟩
  rw [h.tokens.mem_entries, h.consistent, List.mem_map]
  constructor
  · rintro ⟨⟨i', c⟩, hm, he⟩
    obtain ⟨rfl, rfl⟩ := Prod.mk.inj he
    exact ⟨c, h.connections.mem_entries.1 hm, rfl⟩
  · rintro ⟨c, hc, rfl⟩
    exact ⟨(i, c), h.connections.mem_entries.2 hc, rfl⟩

theorem Sound.size_tokens (h : r.Sound) : r.tokens.size = r.size := by
  have := h.tokens_perm.length_eq
  rw [List.length_map] at this
  exact this.symm

theorem Sound.eq_of_id (h : r.Sound) {t t' : String} (ht : r.tokens.get? t = some id)
    (ht' : r.tokens.get? t' = some id) : t = t' := by
  obtain ⟨c, hc, rfl⟩ := (h.consistent t id).1 ht
  obtain ⟨c', hc', rfl⟩ := (h.consistent t' id).1 ht'
  rw [hc] at hc'
  exact congrArg _ (Option.some.inj hc')

theorem Sound.disconnect_of_current (h : r.Sound) {c : Connection}
    (hc : r.connections.get? id = some c) :
    r.disconnect c.token = (⟨r.connections.erase id, r.tokens.erase c.token⟩, .removed id) := by
  rw [h.disconnect_eq, (h.consistent c.token id).2 ⟨c, hc, rfl⟩]

theorem Sound.disconnect_of_unknown (h : r.Sound)
    (hnone : ∀ id c, r.connections.get? id = some c → c.token ≠ token) :
    r.disconnect token = (r, .unknown) := by
  have ht : r.tokens.get? token = none := by
    rw [Option.eq_none_iff_forall_ne_some]
    intro id hid
    obtain ⟨c, hc, hct⟩ := (h.consistent token id).1 hid
    exact hnone id c hc hct
  rw [h.disconnect_eq, ht]

theorem Sound.disconnect_ne_stale (h : r.Sound) (token : String) :
    (r.disconnect token).2 ≠ .stale := by
  rw [h.disconnect_eq]
  split <;> simp

/-! ## Where tokens come from -/

theorem tokens_of_removeIfCurrent {i t i' : String}
    (hi : (r.removeIfCurrent i t).tokens.get? token = some i') :
    r.tokens.get? token = some i' := by
  unfold Registry.removeIfCurrent at hi
  split at hi
  · exact Table.get?_of_erase hi
  · exact hi

theorem tokens_of_releaseToken {i t i' : String}
    (hi : (r.releaseToken i t).tokens.get? token = some i') : r.tokens.get? token = some i' := by
  unfold Registry.releaseToken at hi
  split at hi
  · split at hi
    · exact hi
    · exact tokens_of_removeIfCurrent hi
  · exact hi

/-- **Only a registration brings a token in**, and only for its own request id. -/
theorem tokens_of_apply {c : Change} (hi : (r.apply c).tokens.get? token = some id) :
    r.tokens.get? token = some id ∨ ∃ url, c = .connect id token url := by
  cases c with
  | connect i t url =>
    simp only [apply, connect_eq, Table.get?_insert] at hi
    split_ifs at hi with ht
    · exact .inr ⟨url, ht ▸ congrArg (Change.connect · t url) (Option.some.inj hi)⟩
    · refine .inl (tokens_of_releaseToken (i := i) (t := t) ?_)
      unfold kept at hi
      split at hi
      · exact Table.get?_of_erase hi
      · exact hi
  | disconnect t =>
    left
    simp only [apply, disconnect] at hi
    split at hi
    · exact hi
    · split at hi
      · exact tokens_of_removeIfCurrent hi
      · exact Table.get?_of_erase hi
  | lost i t => exact .inl (tokens_of_removeIfCurrent hi)
  | bind i subject =>
    left
    simp only [apply, bind?] at hi
    split at hi <;> exact hi

/-! ## Targets -/

/-- A delivery is for a request id. -/
def Reaches (whom : Recipient) (id : String) : Prop :=
  match whom with
  | .all => True
  | .one id' => id' = id

/-- **A delivery goes to the tokens of the request ids that it is for.** -/
theorem Sound.mem_targets (h : r.Sound) (whom : Recipient) :
    token ∈ (r.targets whom none).map (·.2) ↔
      ∃ id, Reaches whom id ∧ r.tokens.get? token = some id := by
  have hiff := h.consistent token
  cases whom with
  | one id =>
    simp only [targets, Reaches, hiff, exists_eq_left']
    cases r.connections.get? id <;> simp [eq_comm]
  | all =>
    simp only [targets, Reaches, matchesSubject, List.filter_true, List.map_map, List.mem_map,
      Function.comp_apply, true_and, hiff]
    constructor
    · rintro ⟨⟨id, c⟩, hmem, ht⟩
      exact ⟨id, c, h.connections.mem_entries.1 hmem, ht⟩
    · rintro ⟨id, c, hc, ht⟩
      exact ⟨(id, c), h.connections.mem_entries.2 hc, ht⟩

/-- A delivery goes to no token twice. -/
theorem Sound.nodup_targets (h : r.Sound) (whom : Recipient) :
    ((r.targets whom none).map (·.2)).Nodup := by
  cases whom with
  | one id => cases hc : r.connections.get? id <;> simp [targets, hc]
  | all =>
    have htokens : (r.targets .all none).map (·.2) =
        (r.connections.entries.map fun e => (e.2.token, e.1)).map (·.1) := by
      simp [targets, matchesSubject, Function.comp_def]
    rw [htokens, (h.tokens_perm.map _).nodup_iff]
    exact h.tokens

/-! ## Consistency -/

/-- **Every registry that changes lead to is consistent**, whatever they are and in whatever order
they come. -/
theorem run_consistent (cs : List Change) :
    let r := run cs
    -- the tokens are the inverse of the connections
    (∀ token id, r.tokens.get? token = some id ↔
      ∃ c, r.connections.get? id = some c ∧ c.token = token) ∧
    -- no token belongs to two request ids, and no request id has two tokens
    (∀ id id' c c', r.connections.get? id = some c → r.connections.get? id' = some c' →
      c.token = c'.token → id = id') ∧
    (∀ token token' id, r.tokens.get? token = some id → r.tokens.get? token' = some id →
      token = token') ∧
    -- both tables have one entry for each connection
    (r.connections.keys.Nodup ∧ r.tokens.keys.Nodup ∧
      r.connections.entries.length = r.size ∧ r.tokens.entries.length = r.size) ∧
    -- a disconnect removes exactly the connection that has the token now, or nothing
    (∀ token, (r.disconnect token).2 ≠ .stale) ∧
    (∀ id c, r.connections.get? id = some c →
      r.disconnect c.token = (⟨r.connections.erase id, r.tokens.erase c.token⟩, .removed id)) ∧
    ∀ token, (∀ id c, r.connections.get? id = some c → c.token ≠ token) →
      r.disconnect token = (r, .unknown) := by
  have h := sound_run cs
  exact ⟨h.consistent, fun _ _ _ _ => h.eq_of_token, fun _ _ _ => h.eq_of_id,
    ⟨h.connections, h.tokens, rfl, h.size_tokens⟩, h.disconnect_ne_stale,
    fun _ _ => h.disconnect_of_current, fun _ => h.disconnect_of_unknown⟩

/-- A client took over another one's token, a lost connection was not the current one any more, and
a disconnect came for a token that was replaced. Only the client that has the token now is left, and
a disconnect removes it. -/
theorem run_consistent_reused :
    let r := run [.connect "a" "s" "/", .connect "b" "t" "/", .connect "b" "s" "/", .lost "a" "s",
      .disconnect "t"]
    r.tokens.entries = [("s", "b")] ∧ r.disconnect "s" = ({}, .removed "b") ∧
      r.disconnect "t" = (r, .unknown) := by
  intro r
  obtain ⟨hinverse, -, -, -, -, hcurrent, hunknown⟩ := run_consistent [.connect "a" "s" "/",
    .connect "b" "t" "/", .connect "b" "s" "/", .lost "a" "s", .disconnect "t"]
  have hb : r.connections.get? "b" = some { token := "s", url := "/" } := by decide
  refine ⟨by decide, hcurrent "b" _ hb, hunknown "t" fun id c hc ht => ?_⟩
  have hnone : r.tokens.get? "t" = none := by decide
  cases hnone.symm.trans ((hinverse "t" id).2 ⟨c, hc, ht⟩)

end TabBoard.Registry
