import TabBoard.Delivery.Store
import Mathlib.Tactic.SplitIfs

/-!
# Laws of the store

What an emission and a replay change: the statuses, and what waits to leave through the gateway. A
replay posts one update for each tab, to one connection, and leaves the statuses alone.
-/

namespace TabBoard.Store

/-! ## Posting -/

@[simp] theorem statuses_post (s : Store) (whom : Recipient) (u : Status.Update) :
    (s.post whom u).statuses = s.statuses := by
  unfold post
  split <;> rfl

@[simp] theorem external_post (s : Store) (whom : Recipient) (u : Status.Update) :
    (s.post whom u).external = s.external := by
  unfold post
  split <;> rfl

/-! ## Emitting -/

variable {s s' : Store} {tab : Nat} {status : Status}

/-- What an emission does to a store that is large enough. -/
def emitted (s : Store) (tab : Nat) (status : Status) : Store :=
  { s with
    statuses := s.statuses.set tab status
    fanout := s.fanout.deliver .all ⟨tab, status⟩ }.post .all ⟨tab, status⟩

theorem emit_eq (s : Store) (tab : Nat) (status : Status) :
    s.emit tab status =
      if tab < s.size then .ok (s.emitted tab status) else .error ⟨tab, s.size⟩ := rfl

theorem emit_ok_iff : s.emit tab status = .ok s' ↔ tab < s.size ∧ s' = s.emitted tab status := by
  rw [emit_eq]
  split_ifs with h
  · simp [h, eq_comm]
  · simp [h]

@[simp] theorem statuses_emitted : (s.emitted tab status).statuses = s.statuses.set tab status :=
  statuses_post _ _ _

@[simp] theorem external_emitted : (s.emitted tab status).external = s.external :=
  external_post _ _ _

@[simp] theorem fanout_emitted :
    (s.emitted tab status).fanout = s.fanout.deliver .all ⟨tab, status⟩ := by
  unfold emitted post
  split <;> rfl

theorem outbox_emitted (h : s.external = true) :
    (s.emitted tab status).outbox = s.outbox ++ [(.all, ⟨tab, status⟩)] := by
  simp [emitted, post, h]

@[simp] theorem size_emitted : (s.emitted tab status).size = s.size := by simp [size]

theorem current_eq_ok_iff : s.current tab = .ok status ↔ s.statuses[tab]? = some status := by
  unfold current
  split <;> simp_all

theorem emit_error (h : s.size ≤ tab) (status : Status) :
    s.emit tab status = .error ⟨tab, s.size⟩ := by
  rw [emit_eq, if_neg (Nat.not_lt.2 h)]

/-! ## Subscribing -/

/-- What a subscription does to a store that has the tab. -/
def subscribed (s : Store) (id : String) (tab : Nat) (status : Status) : Store :=
  { s with fanout := s.fanout.register id tab [⟨tab, status⟩] }

theorem subscribe_ok_iff {id : String} : s.subscribe id tab = .ok s' ↔
    ∃ status, s.statuses[tab]? = some status ∧ s' = s.subscribed id tab status := by
  unfold subscribe
  cases s.statuses[tab]? with
  | none => simp
  | some status => simp [subscribed, eq_comm]

theorem subscribe_error (h : s.size ≤ tab) (id : String) :
    s.subscribe id tab = .error ⟨tab, s.size⟩ := by
  unfold subscribe
  rw [List.getElem?_eq_none h]

/-! ## Emitting in a row -/

/-- The statuses that some updates tell of a tab, in order. -/
def told (us : List Status.Update) (tab : Nat) : List Status :=
  (us.filter (·.tab = tab)).map (·.status)

theorem told_concat (us : List Status.Update) (u : Status.Update) (tab : Nat) :
    told (us ++ [u]) tab = if u.tab = tab then told us tab ++ [u.status] else told us tab := by
  by_cases htab : u.tab = tab
  · simp [told, List.filter_append, htab]
  · simp [told, List.filter_append, htab]

/-- The store once some updates were emitted in order. -/
def emitAll (s : Store) (us : List Status.Update) : Except UnknownTab Store :=
  us.foldlM (fun s u => s.emit u.tab u.status) s

theorem emitAll_one (s : Store) (u : Status.Update) : s.emitAll [u] = s.emit u.tab u.status := by
  simp only [emitAll, List.foldlM_cons, List.foldlM_nil]
  cases s.emit u.tab u.status <;> rfl

theorem emitAll_append {us : List Status.Update} (h : s.emitAll us = .ok s')
    (us' : List Status.Update) : s.emitAll (us ++ us') = s'.emitAll us' := by
  unfold emitAll at h ⊢
  rw [List.foldlM_append, h]
  rfl

/-- **A tab has the status that it was told last.** -/
theorem statuses_emitAll {us : List Status.Update} (h : s.emitAll us = .ok s') (tab : Nat) :
    s'.statuses[tab]? =
      (s.statuses[tab]?).map fun first => ((told us tab).getLast?).getD first := by
  induction us generalizing s with
  | nil =>
    cases h
    simp only [told, List.filter_nil, List.map_nil, List.getLast?_nil, Option.getD_none,
      Option.map_id']
  | cons u us ih =>
    simp only [emitAll, List.foldlM_cons] at h
    cases hemit : s.emit u.tab u.status with
    | error e =>
      rw [hemit] at h
      cases h
    | ok s₁ =>
      rw [hemit] at h
      obtain ⟨hlt, rfl⟩ := emit_ok_iff.1 hemit
      rw [ih h, statuses_emitted, List.getElem?_set]
      by_cases htab : u.tab = tab
      · subst htab
        have hlt' : u.tab < s.statuses.length := hlt
        simp [told, hlt', List.getLast?_cons]
      · simp [told, htab]

/-! ## Replaying -/

/-- The updates that tell the status of every tab. -/
def snapshot (s : Store) : List Status.Update :=
  s.statuses.zipIdx.map fun (status, tab) => ⟨tab, status⟩

theorem mem_snapshot {u : Status.Update} : u ∈ s.snapshot ↔ s.statuses[u.tab]? = some u.status := by
  obtain ⟨tab, status⟩ := u
  simp only [snapshot, List.mem_map, Prod.exists, List.mem_zipIdx_iff_getElem?]
  grind

theorem foldl_post (h : s.external = true) (id : String) (us : List Status.Update) :
    us.foldl (·.post (.one id) ·) s =
      { s with outbox := s.outbox ++ us.map (.one id, ·) } := by
  induction us generalizing s with
  | nil => simp
  | cons u us ih =>
    rw [List.foldl_cons, ih (by rw [external_post, h])]
    simp [post, h]

theorem statuses_replay (s : Store) (id : String) : (s.replay id).statuses = s.statuses := by
  unfold replay
  generalize s.statuses.zipIdx.map _ = us
  induction us generalizing s with
  | nil => rfl
  | cons u us ih => exact (ih (s.post (.one id) u)).trans (statuses_post _ _ _)

theorem replay_eq (h : s.external = true) (id : String) :
    s.replay id = { s with outbox := s.outbox ++ s.snapshot.map (.one id, ·) } :=
  foldl_post h id s.snapshot

/-! ## Stores that post alike -/

/-- The stores differ in their direct subscribers at most. -/
structure Alike (a b : Store) : Prop where
  statuses : a.statuses = b.statuses
  external : a.external = b.external
  outbox : a.outbox = b.outbox

variable {a b c : Store}

theorem Alike.refl (a : Store) : a.Alike a := ⟨rfl, rfl, rfl⟩

theorem Alike.trans (h : a.Alike b) (h' : b.Alike c) : a.Alike c :=
  ⟨h.statuses.trans h'.statuses, h.external.trans h'.external, h.outbox.trans h'.outbox⟩

/-- The store with another outbox. -/
def withOutbox (s : Store) (outbox : List (Recipient × Status.Update)) : Store := { s with outbox }

theorem Alike.size (h : a.Alike b) : a.size = b.size := congrArg List.length h.statuses

theorem Alike.post (h : a.Alike b) (whom : Recipient) (u : Status.Update) :
    (a.post whom u).Alike (b.post whom u) := by
  refine ⟨?_, ?_, ?_⟩
  · rw [statuses_post, statuses_post, h.statuses]
  · rw [external_post, external_post, h.external]
  · unfold Store.post
    rw [h.external]
    split_ifs
    · exact congrArg (· ++ [(whom, u)]) h.outbox
    · exact h.outbox

theorem Alike.emitted (h : a.Alike b) (tab : Nat) (status : Status) :
    (a.emitted tab status).Alike (b.emitted tab status) := by
  have hset : Alike
      { a with
        statuses := a.statuses.set tab status
        fanout := a.fanout.deliver .all ⟨tab, status⟩ }
      { b with
        statuses := b.statuses.set tab status
        fanout := b.fanout.deliver .all ⟨tab, status⟩ } :=
    ⟨congrArg (·.set tab status) h.statuses, h.external, h.outbox⟩
  exact hset.post .all ⟨tab, status⟩

theorem Alike.replay (h : a.Alike b) (id : String) : (a.replay id).Alike (b.replay id) := by
  unfold Store.replay
  rw [h.statuses]
  generalize b.statuses.zipIdx.map _ = us
  induction us generalizing a b with
  | nil => exact h
  | cons u us ih => exact ih (h.post (.one id) u)

end TabBoard.Store
