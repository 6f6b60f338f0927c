import TabBoard.Proofs.Restart.Ownership
import Mathlib.Data.List.Count

/-!
# Restarts of one deployment exclude each other

**Theorem (`run_exclusive`).** In every run (`Exclusive`) the deployments under way are those that
were taken and not yet given back, and each is given back once. Between two acceptances for one
deployment the first restart made all its calls, published its outcome and let go. A call is refused
as busy exactly if its deployment is under way when it looks, and a call that fails shows nothing.

All of it is read off the invariant `Sound`: what a call wrote is told by its phase, or is one of
the three forms that a call that is over can take.
-/

namespace TabBoard.Restarts

open Restart (Act Outcome)

variable {b : Board} {s s' : Restarts} {log : List Entry} {e : Entry} {c : Call} {n : Nat}

/-! ## What histories have in common -/

/-- The event is that a call fails. -/
def Event.Fails : Event → Prop
  | .refused _ | .unknown _ => True
  | _ => False

/-- The event shows outside: a status, or a call to the cluster. -/
def Event.Shows : Event → Prop
  | .accepted | .did _ | .published _ => True
  | _ => False

@[simp] theorem count_took_begun (done : List Act) : (begun done).count .took = 1 := by
  simp [begun, List.count_eq_zero]

@[simp] theorem count_released_begun (done : List Act) : (begun done).count .released = 0 := by
  simp [begun, List.count_eq_zero]

/-- A call that holds its deployment took it once and has not given it back. -/
theorem Call.Told.count {es : List Event} (h : c.Told es) :
    es.count .took = 1 ∧ es.count .released = 0 := by
  unfold Told at h
  split at h
  · simp [h]
  · simp [h]
  · obtain ⟨done, -, rfl⟩ := h
    simp
  · obtain ⟨done, o, -, rfl⟩ := h
    simp [List.count_append]

/-- A call that is over took its deployment once and gave it back once, or did neither. -/
theorem Whole.count {key : Option DeploymentKey} {es : List Event} (h : Whole key es) :
    es.count .released = es.count .took ∧ es.count .took ≤ 1 := by
  cases h with
  | refused | unknown => simp
  | finished => simp [complete, List.count_append]

theorem Call.Told.silent {es : List Event} (h : c.Told es) (hfails : ∃ ev ∈ es, ev.Fails) :
    ∀ ev ∈ es, ¬ ev.Shows := by
  obtain ⟨ev, hmem, hev⟩ := hfails
  unfold Told at h
  split at h
  · simp [h, Event.Shows]
  · simp [h, Event.Shows]
  · obtain ⟨done, -, rfl⟩ := h
    simp only [begun, List.mem_cons, List.mem_map] at hmem
    rcases hmem with rfl | rfl | ⟨a, -, rfl⟩ <;> exact hev.elim
  · obtain ⟨done, o, -, rfl⟩ := h
    simp only [begun, List.mem_append, List.mem_cons, List.mem_map, List.mem_nil_iff] at hmem
    rcases hmem with (rfl | rfl | ⟨a, -, rfl⟩) | rfl | hmem
    all_goals first | exact hev.elim | exact hmem.elim

theorem Whole.silent {key : Option DeploymentKey} {es : List Event} (h : Whole key es)
    (hfails : ∃ ev ∈ es, ev.Fails) : ∀ ev ∈ es, ¬ ev.Shows := by
  obtain ⟨ev, hmem, hev⟩ := hfails
  cases h with
  | refused | unknown => simp [Event.Shows]
  | @finished k done o hkey hserves =>
    simp only [complete, begun, List.mem_append, List.mem_cons, List.mem_map,
      List.mem_nil_iff] at hmem
    rcases hmem with (rfl | rfl | ⟨a, -, rfl⟩) | rfl | rfl | hmem
    all_goals first | exact hev.elim | exact hmem.elim

/-- Only a call that was accepted and finished everything can be over after an acceptance. -/
theorem Whole.of_accepted {key : Option DeploymentKey} {es : List Event} (h : Whole key es)
    (hmem : .accepted ∈ es) :
    ∃ k done o, key = some k ∧ Serves k (done ++ [.publish o]) ∧
      es = complete done o := by
  cases h with
  | refused | unknown => simp at hmem
  | finished hkey hserves => exact ⟨_, _, _, hkey, hserves, rfl⟩

/-- What a call wrote, whether it still holds a deployment or is over. -/
theorem Sound.history (h : Sound log s) (hn : n < s.calls) :
    ∃ tab key es, entriesOf n log = es.map (Entry.mk n tab key) ∧
      ((∃ c ∈ s.holders, c.number = n ∧ c.tab = tab ∧ some c.key = key ∧ c.Told es) ∨
        (∀ c ∈ s.holders, c.number ≠ n) ∧ Whole key es) := by
  by_cases hheld : ∃ c ∈ s.holders, c.number = n
  · obtain ⟨c, hc, rfl⟩ := hheld
    obtain ⟨es, htold, hes⟩ := h.held c hc
    exact ⟨c.tab, some c.key, es, hes, .inl ⟨c, hc, rfl, rfl, rfl, htold⟩⟩
  · have hfree : ∀ c ∈ s.holders, c.number ≠ n := fun c hc heq => hheld ⟨c, hc, heq⟩
    obtain ⟨tab, key, es, hwhole, hes⟩ := h.ended n hn hfree
    exact ⟨tab, key, es, hes, .inr ⟨hfree, hwhole⟩⟩

/-- An entry of a call is one of its events, with its tab and its key. -/
theorem mem_of_entriesOf {tab : Nat} {key : Option DeploymentKey} {es : List Event}
    (hes : entriesOf n log = es.map (Entry.mk n tab key)) (he : e ∈ log) (hcall : e.call = n) :
    e.event ∈ es ∧ e = ⟨n, tab, key, e.event⟩ := by
  have hmem : e ∈ entriesOf n log := mem_entriesOf.2 ⟨he, hcall⟩
  rw [hes, List.mem_map] at hmem
  obtain ⟨ev, hev, rfl⟩ := hmem
  exact ⟨hev, rfl⟩

theorem mem_log_iff {tab : Nat} {key : Option DeploymentKey} {es : List Event} {ev : Event}
    (hes : entriesOf n log = es.map (Entry.mk n tab key)) :
    ⟨n, tab, key, ev⟩ ∈ log ↔ ev ∈ es := by
  have hmem : (⟨n, tab, key, ev⟩ : Entry) ∈ entriesOf n log ↔ _ := mem_entriesOf
  rw [hes, List.mem_map] at hmem
  simpa using hmem.symm

theorem count_log {tab : Nat} {key : Option DeploymentKey} {es : List Event} {ev : Event}
    (hes : entriesOf n log = es.map (Entry.mk n tab key)) :
    log.count ⟨n, tab, key, ev⟩ = es.count ev := by
  have hinj : Function.Injective (Entry.mk n tab key) := fun _ _ h => (Entry.mk.inj h).2.2.2
  rw [← List.count_map_of_injective es _ hinj, ← hes, entriesOf, List.count_filter (by simp)]

/-! ## Every deployment taken is given back once -/

/-- **The deployments under way were taken and not given back.** -/
theorem Sound.inFlight_iff (h : Sound log s) (key : DeploymentKey) (tab : Nat) :
    s.board.inFlight.get? key = some tab ↔
      ∃ n, ⟨n, tab, some key, .took⟩ ∈ log ∧ ⟨n, tab, some key, .released⟩ ∉ log := by
  rw [h.inFlight]
  constructor
  · rintro ⟨c, hc, rfl, rfl⟩
    obtain ⟨es, htold, hes⟩ := h.held c hc
    refine ⟨c.number, (mem_log_iff hes).2 ?_, ?_⟩
    · exact List.count_pos_iff.1 (by rw [htold.count.1]; exact Nat.one_pos)
    · intro hmem
      exact List.count_eq_zero.1 htold.count.2 ((mem_log_iff hes).1 hmem)
  · rintro ⟨n, htook, hreleased⟩
    obtain ⟨tab', key', es, hes, hcase⟩ := h.history (h.past _ htook)
    obtain ⟨hev, heq⟩ := mem_of_entriesOf hes htook rfl
    obtain ⟨-, rfl, rfl, -⟩ := Entry.mk.inj heq
    rcases hcase with ⟨c, hc, -, htab, hkey, -⟩ | ⟨-, hwhole⟩
    · exact ⟨c, hc, Option.some.inj hkey, htab⟩
    · -- a call that is over gave back what it took
      refine absurd ((mem_log_iff hes).2 (List.count_pos_iff.1 ?_)) hreleased
      rw [hwhole.count.1]
      exact List.count_pos_iff.2 hev

theorem Sound.count_eq_one (h : Sound log s) (he : e ∈ log)
    (hev : e.event = .took ∨ e.event = .released) : log.count e = 1 := by
  obtain ⟨tab, key, es, hes, hcase⟩ := h.history (h.past e he)
  obtain ⟨-, heq⟩ := mem_of_entriesOf hes he rfl
  have hpos : 0 < log.count e := List.count_pos_iff.2 he
  rw [heq, count_log hes] at hpos ⊢
  rcases hcase with ⟨c, -, -, -, -, htold⟩ | ⟨-, hwhole⟩
  · have := htold.count
    rcases hev with hev | hev <;> rw [hev] at hpos ⊢ <;> omega
  · have := hwhole.count
    rcases hev with hev | hev <;> rw [hev] at hpos ⊢ <;> omega

theorem Sound.took_of_released (h : Sound log s) {tab : Nat} {key : Option DeploymentKey}
    (hmem : ⟨n, tab, key, .released⟩ ∈ log) : ⟨n, tab, key, .took⟩ ∈ log := by
  obtain ⟨tab', key', es, hes, hcase⟩ := h.history (h.past _ hmem)
  obtain ⟨hev, heq⟩ := mem_of_entriesOf hes hmem rfl
  obtain ⟨-, rfl, rfl, -⟩ := Entry.mk.inj heq
  have hpos : 0 < es.count .released := List.count_pos_iff.2 hev
  refine (mem_log_iff hes).2 (List.count_pos_iff.1 ?_)
  rcases hcase with ⟨c, -, -, -, -, htold⟩ | ⟨-, hwhole⟩
  · have := htold.count
    omega
  · have := hwhole.count
    omega

/-- A call that fails shows nothing. -/
theorem Sound.silent (h : Sound log s) {e' : Entry} (he : e ∈ log) (hfails : e.event.Fails)
    (he' : e' ∈ log) (hcall : e'.call = e.call) : ¬ e'.event.Shows := by
  obtain ⟨tab, key, es, hes, hcase⟩ := h.history (h.past e he)
  have hev := (mem_of_entriesOf hes he rfl).1
  have hev' := (mem_of_entriesOf hes he' hcall).1
  rcases hcase with ⟨c, -, -, -, -, htold⟩ | ⟨-, hwhole⟩
  · exact htold.silent ⟨_, hev, hfails⟩ _ hev'
  · exact hwhole.silent ⟨_, hev, hfails⟩ _ hev'

/-! ## One restart after the other -/

/-- A call that is over stays over: it does nothing any more. -/
theorem Step.quiet (h : Step s e s') (hn : n < s.calls) (hfree : ∀ c ∈ s.holders, c.number ≠ n) :
    e.call ≠ n ∧ n < s'.calls ∧ ∀ c ∈ s'.holders, c.number ≠ n := by
  cases h with
  | refuse => exact ⟨Nat.ne_of_gt hn, Nat.lt_succ_of_lt hn, hfree⟩
  | take =>
    refine ⟨Nat.ne_of_gt hn, Nat.lt_succ_of_lt hn, ?_⟩
    intro c hc
    rcases List.mem_append.1 hc with hold | hnew
    · exact hfree c hold
    · rw [List.mem_singleton.1 hnew]
      exact Nat.ne_of_gt hn
  | @advance before after c ev phase b hholders hadvance =>
    rw [hholders] at hfree
    have hself := hfree c (mem_middle.2 (.inl rfl))
    refine ⟨hself, hn, ?_⟩
    intro c' hc'
    rcases mem_middle.1 hc' with rfl | hold
    · exact hself
    · exact hfree c' (mem_middle.2 (.inr hold))
  | release hholders hover =>
    rw [hholders] at hfree
    exact ⟨hfree _ (mem_middle.2 (.inl rfl)), hn, fun c' hc' => hfree c' (mem_middle.2 (.inr hc'))⟩

theorem Run.quiet (h : Run s log s') (hn : n < s.calls) (hfree : ∀ c ∈ s.holders, c.number ≠ n) :
    (∀ e ∈ log, e.call ≠ n) ∧ n < s'.calls ∧ ∀ c ∈ s'.holders, c.number ≠ n := by
  induction h with
  | nil => exact ⟨by simp, hn, hfree⟩
  | snoc hrun hstep ih =>
    obtain ⟨hlog, hn', hfree'⟩ := ih
    obtain ⟨he, hnext⟩ := hstep.quiet hn' hfree'
    refine ⟨?_, hnext⟩
    intro e' he'
    rcases List.mem_append.1 he' with hold | hnew
    · exact hlog e' hold
    · rwa [List.mem_singleton.1 hnew]

/-- Whoever is accepted has taken the deployment and done nothing else. -/
theorem Step.of_accepted (h : Step s e s') (hev : e.event = .accepted) :
    ∃ c ∈ s.holders, c.phase = .taken ∧ e = c.entry .accepted := by
  cases h with
  | refuse | take | release => cases hev
  | advance hholders hadvance =>
    cases hadvance with
    | accept limit script time hphase hemit =>
      exact ⟨_, by rw [hholders]; exact mem_middle.2 (.inl rfl), hphase, rfl⟩
    | unknown | act | publish => cases hev

/-- **When a call is accepted, every earlier restart of its deployment is over.** -/
theorem Sound.over_of_accepted (h : Sound log s) {a a' : Entry} (ha : a ∈ log)
    (hacc : a.event = .accepted) (hstep : Step s a' s') (hacc' : a'.event = .accepted)
    (hkey : a.key = a'.key) :
    (∀ c ∈ s.holders, c.number ≠ a.call) ∧
      ∃ key done o, a.key = some key ∧ Serves key (done ++ [.publish o]) ∧
        entriesOf a.call log = (complete done o).map (Entry.mk a.call a.tab a.key) := by
  obtain ⟨c', hc', hphase, rfl⟩ := hstep.of_accepted hacc'
  obtain ⟨tab, key, es, hes, hcase⟩ := h.history (h.past a ha)
  obtain ⟨hev, heq⟩ := mem_of_entriesOf hes ha rfl
  have htab : a.tab = tab := congrArg Entry.tab heq
  have hkey' : a.key = key := congrArg Entry.key heq
  rw [hacc] at hev
  rcases hcase with ⟨c, hc, -, -, hck, htold⟩ | ⟨hfree, hwhole⟩
  · -- the earlier call cannot hold the deployment: it would be the one that was just accepted
    have hsame : c = c' := by
      refine List.inj_on_of_nodup_map h.keys hc hc' (Option.some.inj ?_)
      exact (hck.trans hkey'.symm).trans hkey
    subst hsame
    simp only [Call.Told, hphase] at htold
    rw [htold] at hev
    simp at hev
  · obtain ⟨k, done, o, hk, hserves, rfl⟩ := hwhole.of_accepted hev
    refine ⟨hfree, k, done, o, hkey'.trans hk, hserves, ?_⟩
    rw [htab, hkey']
    exact hes

/-! ## What one step changes -/

/-- What one step does to the deployments under way and to the statuses. -/
structure Effect (s : Restarts) (e : Entry) (s' : Restarts) : Prop where
  /-- A call is refused as busy exactly if its deployment is under way when it looks. -/
  busy : ∀ key, e.event = .refused (.inProgress key) ↔
    e.call = s.calls ∧ e.key = some key ∧ s.board.inFlight.contains key = true
  refused : ∀ x, e.event = .refused x →
    s'.board.store = s.board.store ∧ s'.board.inFlight = s.board.inFlight
  took : e.event = .took → s'.board.store = s.board.store ∧
    ∃ key, e.key = some key ∧ s.board.inFlight.get? key = none ∧
      s'.board.inFlight = s.board.inFlight.insert key e.tab
  unknown : ∀ x, e.event = .unknown x → s'.board = s.board
  accepted : e.event = .accepted →
    s'.board.inFlight = s.board.inFlight ∧ s'.board.store.current e.tab = .ok .restarting
  did : ∀ a, e.event = .did a → s'.board = s.board
  published : ∀ o, e.event = .published o →
    s'.board.inFlight = s.board.inFlight ∧ s'.board.store.current e.tab = .ok o.status
  released : e.event = .released → s'.board.store = s.board.store ∧
    ∃ key, e.key = some key ∧ s.board.inFlight.get? key = some e.tab ∧
      s'.board.inFlight = s.board.inFlight.erase key

theorem Advance.effect {ev : Event} {phase : Phase} (h : Advance s.board c ev phase b)
    (hold : c.number < s.calls)
    (hknown : ∀ rest, c.phase = .working rest → c.tab < s.board.store.size)
    {holders : List Call} {calls : Nat} :
    Effect s (c.entry ev) ⟨b, holders, calls⟩ := by
  have hstored : ∀ status, c.tab < s.board.store.size →
      (s.board.store.statuses.set c.tab status)[c.tab]? = some status :=
    fun status hlt => List.getElem?_set_self hlt
  have hbusy : ∀ key, (c.entry ev).event = .refused (.inProgress key) ↔
      (c.entry ev).call = s.calls ∧ (c.entry ev).key = some key ∧
        s.board.inFlight.contains key = true := by
    intro key
    have hev : ev ≠ .refused (.inProgress key) := by cases h <;> simp
    simp [Call.entry, hev, Nat.ne_of_lt hold]
  cases h with
  | accept limit script time hphase hemit =>
    obtain ⟨hin, hlt, hstatuses⟩ := emit_ok hemit
    refine ⟨hbusy, ?_, ?_, ?_, ?accepted, ?_, ?_, ?_⟩
    case accepted =>
      have hstatus := hstored .restarting hlt
      rw [← hstatuses] at hstatus
      exact fun _ => ⟨hin, Store.current_eq_ok_iff.2 hstatus⟩
    all_goals simp [Call.entry]
  | unknown | act =>
    refine ⟨hbusy, ?_, ?_, ?_, ?_, ?_, ?_, ?_⟩
    all_goals simp [Call.entry]
  | @publish o rest hphase =>
    refine ⟨hbusy, ?_, ?_, ?_, ?_, ?_, ?published, ?_⟩
    case published =>
      intro o' ho
      obtain rfl := Event.published.inj ho
      refine ⟨publishOutcome_inFlight _ _ _ _, Store.current_eq_ok_iff.2 ?_⟩
      rw [publishOutcome_statuses]
      exact hstored _ (hknown _ hphase)
    all_goals simp [Call.entry]

theorem Sound.effect (h : Sound log s) (hstep : Step s e s') : Effect s e s' := by
  cases hstep with
  | @refuse tab key x b hkey hrequest =>
    obtain ⟨hin, hstore, rfl⟩ := requestRestart_refused hkey hrequest
    refine ⟨fun k => ?busy, fun _ _ => ⟨hstore, hin⟩, ?_, ?_, ?_, ?_, ?_, ?_⟩
    case busy =>
      cases key with
      | none => simp
      | some k' =>
        have hbusy := hkey k' rfl
        simp only [Option.elim_some, Event.refused.injEq, Restart.Error.inProgress.injEq,
          Option.some.injEq, true_and]
        exact ⟨fun hk => ⟨hk, hk ▸ hbusy⟩, fun hk => hk.1⟩
    all_goals simp
  | @take tab key b hoccupy =>
    obtain ⟨hnone, hin, hstore⟩ := occupy_ok hoccupy
    refine ⟨fun k => ?busy, ?_, fun _ => ⟨hstore, key, rfl, hnone, hin⟩, ?_, ?_, ?_, ?_, ?_⟩
    case busy =>
      simp only [reduceCtorEq, Option.some.injEq, true_and, false_iff, not_and]
      rintro rfl
      rw [Table.contains_eq_isSome, hnone]
      simp
    all_goals simp
  | @advance before after c ev phase b hholders hadvance =>
    have hself : c ∈ s.holders := by
      rw [hholders]
      exact mem_middle.2 (.inl rfl)
    exact hadvance.effect (h.numbered c hself) (h.known c hself)
  | @release before after c hholders hover =>
    have hself : c ∈ s.holders := by
      rw [hholders]
      exact mem_middle.2 (.inl rfl)
    have hheld := (h.inFlight c.key c.tab).2 ⟨c, hself, rfl, rfl⟩
    refine ⟨fun k => ?busy, ?_, ?_, ?_, ?_, ?_, ?_, fun _ => ⟨rfl, c.key, rfl, hheld, rfl⟩⟩
    case busy => simp [Call.entry, Nat.ne_of_lt (h.numbered c hself)]
    all_goals simp [Call.entry]

/-- **A call that holds a deployment can go on**, unless its worker waits for a call to the cluster
that is never answered. -/
theorem can_go_on (hc : c ∈ s.holders) :
    c.phase = .working [] ∨ ∃ ev s', Step s (c.entry ev) s' := by
  obtain ⟨before, after, hholders⟩ := List.append_of_mem hc
  cases hphase : c.phase with
  | taken =>
    cases hemit : s.board.emit c.tab .restarting with
    | ok b => exact .inr ⟨_, _, .advance hholders (.accept ⟨0⟩ {} 0 hphase hemit)⟩
    | error x => exact .inr ⟨_, _, .advance hholders (.unknown hphase hemit)⟩
  | refused x => exact .inr ⟨_, _, .release hholders (by simp [hphase, Phase.Over])⟩
  | published => exact .inr ⟨_, _, .release hholders (by simp [hphase, Phase.Over])⟩
  | working acts =>
    cases acts with
    | nil => exact .inl rfl
    | cons a rest =>
      right
      cases hact : a.outcome? with
      | none => exact ⟨_, _, .advance hholders (.act hphase hact)⟩
      | some o =>
        obtain rfl : a = .publish o := by
          cases a <;> simp_all [Act.outcome?]
        exact ⟨_, _, .advance hholders (.publish hphase)⟩

theorem Sound.size_inFlight (h : Sound log s) : s.board.inFlight.size = s.holders.length := by
  have hperm : (s.holders.map fun c => (c.key, c.tab)).Perm s.board.inFlight.entries := by
    have hnodup : (s.holders.map fun c => (c.key, c.tab)).Nodup :=
      List.Nodup.of_map Prod.fst (by rw [List.map_map]; exact h.keys)
    rw [List.perm_ext_iff_of_nodup hnodup h.distinct.nodup_entries]
    rintro ⟨key, tab⟩
    rw [h.distinct.mem_entries, h.inFlight]
    simp
  rw [Table.size, ← hperm.length_eq, List.length_map]

/-! ## Exclusion -/

/-- What holds of every log and of the state that it leads to. -/
structure Exclusive (log : List Entry) (s : Restarts) : Prop where
  /-- Between two acceptances for a deployment the first restart did everything it had to do, told
  its outcome and gave the deployment back; behind the second it does nothing. -/
  alternate : ∀ l₁ a l₂ a' l₃, log = l₁ ++ a :: (l₂ ++ a' :: l₃) →
    a.event = .accepted → a'.event = .accepted → a.key = a'.key →
    (∃ key done o, a.key = some key ∧ Serves key (done ++ [.publish o]) ∧
      entriesOf a.call (l₁ ++ a :: l₂) =
        (complete done o).map (Entry.mk a.call a.tab a.key)) ∧
    ∀ e ∈ a' :: l₃, e.call ≠ a.call
  /-- The deployments under way are those that a call took and did not give back. -/
  inFlight : ∀ key tab, s.board.inFlight.get? key = some tab ↔
    ∃ n, ⟨n, tab, some key, .took⟩ ∈ log ∧ ⟨n, tab, some key, .released⟩ ∉ log
  /-- Each of them is in the hands of one call, which is under way, or will be refused. -/
  held : (s.holders.map (·.key)).Nodup ∧ s.board.inFlight.size = s.holders.length ∧
    ∀ c ∈ s.holders, s.board.inFlight.get? c.key = some c.tab ∧
      ∃ es, c.Told es ∧ entriesOf c.number log = es.map c.entry
  /-- A deployment is taken once and given back once by a call, and is given back only if it was
  taken. -/
  once : (∀ e ∈ log, e.event = .took ∨ e.event = .released → log.count e = 1) ∧
    ∀ n tab key, ⟨n, tab, key, .released⟩ ∈ log → ⟨n, tab, key, .took⟩ ∈ log
  /-- Whoever holds a deployment can go on, unless the cluster never answers. -/
  goesOn : ∀ c ∈ s.holders, c.phase = .working [] ∨ ∃ ev s', Step s (c.entry ev) s'
  /-- A call that fails shows no status and makes no call to the cluster. -/
  silent : ∀ e ∈ log, e.event.Fails → ∀ e' ∈ log, e'.call = e.call → ¬ e'.event.Shows
  effect : ∀ e s', Step s e s' → Effect s e s'

/-- **Restarts of one deployment exclude each other**, however the steps of calls and workers
come. -/
theorem run_exclusive (h : Run (start b) log s) : Exclusive log s := by
  have hsound := sound_run h
  refine ⟨?alternate, hsound.inFlight_iff,
    ⟨hsound.keys, hsound.size_inFlight, fun c hc => ⟨?held, hsound.held c hc⟩⟩,
    ⟨fun e he hev => hsound.count_eq_one he hev, fun n tab key => hsound.took_of_released⟩,
    fun c hc => can_go_on hc, fun e he hfails e' he' => hsound.silent he hfails he',
    fun e s' hstep => hsound.effect hstep⟩
  case alternate =>
    intro l₁ a l₂ a' l₃ hlog hacc hacc' hkey
    -- look at the moment of the second acceptance
    rw [hlog, ← List.cons_append, ← List.append_assoc] at h
    obtain ⟨m, m', h₁, hstep, h₂⟩ := h.split
    have ha : a ∈ l₁ ++ a :: l₂ := by simp
    obtain ⟨hfree, hover⟩ := (sound_run h₁).over_of_accepted ha hacc hstep hacc' hkey
    obtain ⟨hne, hcalls, hfree'⟩ := hstep.quiet ((sound_run h₁).past a ha) hfree
    exact ⟨hover, List.forall_mem_cons.2 ⟨hne, (h₂.quiet hcalls hfree').1⟩⟩
  case held => exact (hsound.inFlight c.key c.tab).2 ⟨c, hc, rfl, rfl⟩

/-- Two tabs share a deployment. While the first restarts it, the second is refused; the cluster
rejects the restart, and then the second is accepted. -/
theorem run_exclusive_shared :
    let k : DeploymentKey := ⟨"default", "web"⟩
    let x : Cluster.Error := .setup "no credentials"
    ∃ s, Exclusive
      [⟨0, 0, some k, .took⟩, ⟨0, 0, some k, .accepted⟩, ⟨1, 1, some k, .refused (.inProgress k)⟩,
        ⟨0, 0, some k, .did .patch⟩, ⟨0, 0, some k, .published (.failed (.ofCluster k x))⟩,
        ⟨0, 0, some k, .released⟩, ⟨2, 1, some k, .took⟩, ⟨2, 1, some k, .accepted⟩] s := by
  intro k x
  let s₀ := start { catalog := ⟨[]⟩, store := .ofSize 2 }
  let script : Restart.Script := { patch := { ending := .failed x } }
  have taken : Run s₀ _ _ := .one (@Step.take _ 0 k _ rfl)
  have accepted := taken.snoc (.advance rfl (.accept ⟨1000⟩ script 0 rfl rfl))
  have busy := accepted.snoc (@Step.refuse _ 1 (some k) _ _ (by decide) rfl)
  have called := busy.snoc (.advance rfl (.act rfl rfl))
  have published := called.snoc (.advance rfl (.publish rfl))
  have released := published.snoc (.release rfl trivial)
  have again := released.snoc (@Step.take _ 1 k _ rfl)
  have accepted' := again.snoc (.advance rfl (.accept ⟨1000⟩ script 0 rfl rfl))
  exact ⟨_, run_exclusive accepted'⟩

end TabBoard.Restarts
