import TabBoard.Proofs.Delivery.Queue

/-!
# Nobody is left behind

A connection that is registered knows the last status of every tab, or is about to: it is still to
be greeted, or an item with the last edition is in the queue for it, or was aimed at its token
(`Covered`). An emission queues such an item for everyone and a replay queues one for each tab, and
an item in the queue stays good as long as its connection is there: whoever comes later under the
same request id is greeted.

**Theorem (`sound_run`).** Whatever the schedule, the queue is truthful, the dispatcher serves it in
order, the registry is consistent and everyone is covered (`Sound`).
-/

namespace TabBoard.Traffic

open Registry (Reaches)

variable {tabs : Nat} {s : Traffic} {n : Nat}

/-- An item with the last edition of a tab is queued for a request id, or was aimed at a token. -/
def Informed (s : Traffic) (token id : String) (tab : Nat) : Prop :=
  ∃ n p, s.posted[n]? = some p ∧ p.update.tab = tab ∧ p.edition = s.edition tab ∧
    (s.aims.length ≤ n ∧ Reaches p.whom id ∨ token ∈ (s.aim n).map (·.2))

/-- Whoever is registered is still to be greeted, or informed of every tab. -/
def Covered (tabs : Nat) (s : Traffic) : Prop :=
  ∀ token id, s.registry.tokens.get? token = some id →
    id ∈ s.greeting ∨ ∀ tab < tabs, s.Informed token id tab

theorem covered_start (tabs : Nat) : Covered tabs (start tabs) := by
  intro token id h
  simp [start] at h

/-! ## Queueing -/

theorem Informed.queue {token id : String} {tab : Nat} (h : s.Informed token id tab)
    (store : Store) : (s.queue store).Informed token id tab := by
  obtain ⟨n, p, hp, htab, hedition, hgoes⟩ := h
  refine ⟨n, p, ?_, htab, hedition, hgoes⟩
  show (s.posted ++ _)[n]? = some p
  rw [List.getElem?_append_left (List.getElem?_eq_some_iff.1 hp).1]
  exact hp

theorem Informed.noted {token id : String} {tab : Nat} (h : s.Informed token id tab)
    {u : Status.Update} (hu : u.tab ≠ tab) : (s.noted u).Informed token id tab := by
  obtain ⟨n, p, hp, htab, hedition, hgoes⟩ := h
  refine ⟨n, p, hp, htab, ?_, hgoes⟩
  rw [edition_noted, if_neg hu]
  exact hedition

/-- An item that is queued now informs everyone whom it is for. -/
theorem Dispatched.informed (h : Dispatched s) {store : Store}
    {items : List (Recipient × Status.Update)} (houtbox : store.outbox = s.store.outbox ++ items)
    {whom : Recipient} {u : Status.Update} (hmem : (whom, u) ∈ items) {id : String}
    (hreaches : Reaches whom id) (token : String) :
    (s.queue store).Informed token id u.tab := by
  have hposted : (s.queue store).posted = s.posted ++ items.map s.stamp := by
    simp only [Traffic.queue, houtbox, List.drop_left]
  obtain ⟨k, hk⟩ := List.getElem?_of_mem (List.mem_map_of_mem hmem : s.stamp (whom, u) ∈ _)
  have haims : s.aims.length ≤ s.posted.length := by
    have := h.taken
    have := h.taken_le
    omega
  refine ⟨s.posted.length + k, s.stamp (whom, u), ?_, rfl, rfl, .inl ⟨?_, hreaches⟩⟩
  · rw [hposted, List.getElem?_append_right (Nat.le_add_right _ _), Nat.add_sub_cancel_left]
    exact hk
  · exact Nat.le_trans haims (Nat.le_add_right _ _)

/-! ## Aiming -/

/-- Whoever an item is queued for is among its targets. -/
theorem Informed.aim {token id : String} {tab : Nat} (h : s.Informed token id tab)
    (hdispatched : Dispatched s) (hregistry : s.registry.Sound)
    (hid : s.registry.tokens.get? token = some id) {j : Job} (hholding : s.dispatcher = .holding j)
    {order : List (String × String)} (horder : order.Perm (s.registry.targets j.whom none)) :
    Informed { s with dispatcher := .aimedAt j order, aims := s.aims ++ [order] } token id tab := by
  obtain ⟨⟨q, hq, hwhom, -⟩, hnumber⟩ := hdispatched.number_of_holding hholding
  obtain ⟨n, p, hp, htab, hedition, hgoes⟩ := h
  refine ⟨n, p, hp, htab, hedition, ?_⟩
  have haim : Traffic.aim { s with dispatcher := .aimedAt j order, aims := s.aims ++ [order] } n =
      if s.aims.length = n then order else s.aim n := getD_getElem?_concat _ _ _ _
  rw [haim]
  rcases hgoes with ⟨hle, hreaches⟩ | haimed
  · by_cases hn : s.aims.length = n
    · -- it is the item that is aimed now
      rw [if_pos hn, (horder.map _).mem_iff, hregistry.mem_targets]
      rw [hnumber, hn, hp] at hq
      rw [Option.some.inj hq, hwhom] at hreaches
      exact .inr ⟨id, hreaches, hid⟩
    · refine .inl ⟨?_, hreaches⟩
      rw [List.length_append, List.length_singleton]
      omega
  · right
    have hne : s.aims.length ≠ n := by
      rintro rfl
      simp [Traffic.aim] at haimed
    rwa [if_neg hne]

/-! ## What holds of every state -/

/-- The queue is truthful and served in order, the registry consistent, and everyone covered. -/
structure Sound (tabs : Nat) (s : Traffic) : Prop where
  stamped : Stamped tabs s
  dispatched : Dispatched s
  registry : s.registry.Sound
  covered : Covered tabs s

theorem sound_start (tabs : Nat) : Sound tabs (start tabs) :=
  ⟨stamped_start tabs, dispatched_start tabs, Registry.sound_empty, covered_start tabs⟩

/-! ## Every move keeps it -/

theorem Sound.emit (h : Sound tabs s) {tab : Nat} (htab : tab < tabs) (status : Status) :
    Sound tabs ((s.noted ⟨tab, status⟩).queue (s.store.emitted tab status)) := by
  have houtbox : (s.store.emitted tab status).outbox = s.store.outbox ++ [(.all, ⟨tab, status⟩)] :=
    Store.outbox_emitted h.stamped.external
  have hnoted : Dispatched (s.noted ⟨tab, status⟩) := h.dispatched.frame rfl rfl rfl rfl rfl rfl
  refine ⟨h.stamped.emit htab status, hnoted.queue houtbox, h.registry, ?_⟩
  intro token id hid
  refine (h.covered token id hid).imp_right ?_
  intro hinformed tab' htab'
  by_cases heq : tab = tab'
  · subst heq
    exact hnoted.informed houtbox (List.mem_singleton_self _) trivial token
  · exact ((hinformed tab' htab').noted heq).queue _

theorem Sound.replay (h : Sound tabs s) (id : String) :
    Sound tabs (s.queue (s.store.replay id)) := by
  have houtbox : (s.store.replay id).outbox =
      s.store.outbox ++ s.store.snapshot.map (.one id, ·) := by
    rw [Store.replay_eq h.stamped.external]
  exact ⟨h.stamped.replay id, h.dispatched.queue houtbox, h.registry, fun token id' hid =>
    (h.covered token id' hid).imp_right fun hinformed tab htab => (hinformed tab htab).queue _⟩

/-- A replay informs whoever has the request id. -/
theorem Sound.informed_of_replay (h : Sound tabs s) (token id : String) {tab : Nat}
    (htab : tab < tabs) : (s.queue (s.store.replay id)).Informed token id tab := by
  have houtbox : (s.store.replay id).outbox =
      s.store.outbox ++ s.store.snapshot.map (.one id, ·) := by
    rw [Store.replay_eq h.stamped.external]
  have hlt : tab < s.store.statuses.length := Nat.lt_of_lt_of_eq htab h.stamped.size.symm
  have hmem : (⟨tab, s.store.statuses[tab]⟩ : Status.Update) ∈ s.store.snapshot :=
    Store.mem_snapshot.2 (List.getElem?_eq_getElem hlt)
  exact h.dispatched.informed houtbox (List.mem_map_of_mem hmem) rfl token

theorem Sound.greet (h : Sound tabs s) (id : String) :
    Sound tabs (({ s with greeting := s.greeting.erase id } : Traffic).queue
      (s.store.replay id)) := by
  have hreplayed := h.replay id
  refine ⟨hreplayed.stamped.frame rfl rfl rfl rfl,
    hreplayed.dispatched.frame rfl rfl rfl rfl rfl rfl, h.registry, ?_⟩
  intro token id' hid
  by_cases heq : id' = id
  · subst heq
    exact .inr fun tab htab => h.informed_of_replay token id' htab
  · -- the others are still to be greeted, if they were
    exact (hreplayed.covered token id' hid).imp_left fun hmem => (List.mem_erase_of_ne heq).2 hmem

theorem Sound.change (h : Sound tabs s) (c : Registry.Change) :
    Sound tabs { s with
      registry := s.registry.apply c, greeting := s.greeting ++ newcomers c } := by
  refine ⟨h.stamped.frame rfl rfl rfl rfl, h.dispatched.frame rfl rfl rfl rfl rfl rfl,
    h.registry.apply c, ?_⟩
  intro token id hid
  rcases Registry.tokens_of_apply hid with hold | ⟨url, rfl⟩
  · exact (h.covered token id hold).imp_left fun hmem => List.mem_append_left _ hmem
  · -- whoever comes in is to be greeted
    exact .inl (List.mem_append_right _ (List.mem_singleton_self _))

theorem Sound.take (h : Sound tabs s) (hidle : s.dispatcher = .idle) {whom : Recipient}
    {u : Status.Update} {rest : List (Recipient × Status.Update)}
    (houtbox : s.store.outbox = (whom, u) :: rest) :
    Sound tabs { s with
      store := { s.store with outbox := rest }
      dispatcher := .holding ⟨s.taken, whom, u⟩
      taken := s.taken + 1 } :=
  ⟨h.stamped.frame rfl rfl rfl rfl, h.dispatched.take hidle houtbox, h.registry, h.covered⟩

theorem Sound.aim (h : Sound tabs s) {j : Job} (hholding : s.dispatcher = .holding j)
    {order : List (String × String)} (horder : order.Perm (s.registry.targets j.whom none)) :
    Sound tabs { s with dispatcher := .aimedAt j order, aims := s.aims ++ [order] } := by
  have hdistinct : (order.map (·.2)).Nodup :=
    (horder.map _).nodup_iff.2 (h.registry.nodup_targets j.whom)
  refine ⟨h.stamped.frame rfl rfl rfl rfl, h.dispatched.aim hholding hdistinct, h.registry,
    fun token id hid => (h.covered token id hid).imp_right ?_⟩
  intro hinformed tab htab
  exact (hinformed tab htab).aim h.dispatched h.registry hid hholding horder

theorem Sound.call (h : Sound tabs s) {j : Job} {target : String × String}
    {rest : List (String × String)} (hcalling : s.dispatcher = .calling j target rest)
    (outcome : SendOutcome) :
    Sound tabs { s with
      dispatcher := .answered j target outcome rest
      sends := s.sends ++ [⟨j, target.2, outcome⟩] } :=
  ⟨h.stamped.frame rfl rfl rfl rfl, h.dispatched.call hcalling outcome, h.registry, h.covered⟩

theorem answer_eq (r : Registry) (target : String × String) (outcome : SendOutcome) :
    answer r target outcome = r ∨ answer r target outcome = r.apply (.lost target.1 target.2) := by
  cases outcome with
  | notFound => exact .inr rfl
  | delivered | rejected | unreachable => exact .inl rfl

theorem Sound.settle (h : Sound tabs s) {j : Job} {target : String × String}
    {outcome : SendOutcome} {rest : List (String × String)}
    (hanswered : s.dispatcher = .answered j target outcome rest) :
    Sound tabs { s with
      registry := answer s.registry target outcome, dispatcher := .aimedAt j rest } := by
  have hlost := h.change (.lost target.1 target.2)
  refine ⟨h.stamped.frame rfl rfl rfl rfl, h.dispatched.settle hanswered _, ?_, ?_⟩
  · show (answer s.registry target outcome).Sound
    rcases answer_eq s.registry target outcome with heq | heq
    · rw [heq]
      exact h.registry
    · rw [heq]
      exact hlost.registry
  · show ∀ token id, (answer s.registry target outcome).tokens.get? token = some id → _
    rcases answer_eq s.registry target outcome with heq | heq
    · rw [heq]
      exact h.covered
    · rw [heq]
      have hcovered := hlost.covered
      simp only [Covered, newcomers, List.append_nil] at hcovered
      exact hcovered

/-- **Every move keeps it.** -/
theorem Sound.step (h : Sound tabs s) (m : Move) : Sound tabs (s.step m) := by
  have hmakes := s.makes_step m
  generalize s.step m = s' at hmakes ⊢
  cases hmakes with
  | nothing => exact h
  | emit htab status => exact h.emit (h.stamped.size ▸ htab) status
  | change c => exact h.change c
  | replay id => exact h.replay id
  | greet => exact h.greet _
  | take hidle houtbox => exact h.take hidle houtbox
  | aim hholding horder => exact h.aim hholding horder
  | call hcalling outcome => exact h.call hcalling outcome
  | settle hanswered => exact h.settle hanswered

theorem Sound.moves (h : Sound tabs s) (ms : List Move) : Sound tabs (s.moves ms) := by
  induction ms generalizing s with
  | nil => exact h
  | cons m ms ih => exact ih (h.step m)

theorem sound_run (tabs : Nat) (ms : List Move) : Sound tabs (run tabs ms) :=
  (sound_start tabs).moves ms

end TabBoard.Traffic
