import TabBoard.Proofs.Restart.Exclusion
import TabBoard.Startup.Wiring

/-!
# What a tab was told

An accepted restart tells its tab that it is restarting, and its outcome tells it that it is running
or in error. Each tab is restarted through the deployment that the catalog binds it to (`Bound`), so
of the calls that hold a deployment one at most is for the tab, although several tabs may share the
deployment.

**Theorem (`run_history`).** However the steps of any number of calls and workers come (`History`),
a tab is told of whole rounds (`Rounds`), each of which is that it is restarting and then that it is
running or in error, and perhaps of the beginning of one more. While a tab is restarting, its
deployment is under way for this tab.

The rounds keep pace with the call for the tab (`Pace`): one is begun exactly while a worker is at
work for the tab, and ended otherwise.
-/

namespace TabBoard.Restarts

open Restart (Act Outcome)

/-! ## What is told -/

/-- The status that an event shows on its tab. -/
def Event.status? : Event → Option Status
  | .accepted => some .restarting
  | .published o => some o.status
  | .refused _ | .took | .unknown _ | .did _ | .released => none

def Entry.update? (e : Entry) : Option Status.Update := e.event.status?.map (⟨e.tab, ·⟩)

/-- The updates that the entries of a log stand for, in order. -/
def updates (log : List Entry) : List Status.Update := log.filterMap (·.update?)

/-- What restarts end with. -/
def Settled (s : Status) : Prop := s = .running ∨ ∃ message, s = .error message

/-- Any number of rounds: restarting, and then running or in error. -/
inductive Rounds : List Status → Prop
  | nil : Rounds []
  | snoc {w : List Status} {final : Status} (h : Rounds w) (hfinal : Settled final) :
      Rounds (w ++ [.restarting, final])

/-- Every call asks for a tab with the deployment that the catalog binds it to. -/
def Bound (catalog : Catalog) (log : List Entry) : Prop :=
  ∀ e ∈ log, catalog.binding e.tab = .ok ⟨e.tab, e.key⟩

variable {b b' : Board} {s s' : Restarts} {log : List Entry} {e : Entry} {c c' : Call} {tab : Nat}
  {catalog : Catalog} {told : List Status}

theorem updates_snoc (log : List Entry) (e : Entry) :
    updates (log ++ [e]) = updates log ++ e.update?.toList := by
  simp only [updates, List.filterMap_append, List.filterMap_cons, List.filterMap_nil]
  cases e.update? <;> rfl

theorem told_snoc_of_eq (h : e.tab = tab) :
    Store.told (updates (log ++ [e])) tab =
      Store.told (updates log) tab ++ e.event.status?.toList := by
  rw [updates_snoc, Entry.update?]
  cases e.event.status? with
  | none => simp
  | some status => exact (Store.told_concat _ _ _).trans (if_pos h)

theorem told_snoc_of_ne (h : e.tab ≠ tab) :
    Store.told (updates (log ++ [e])) tab = Store.told (updates log) tab := by
  rw [updates_snoc, Entry.update?]
  cases e.event.status? with
  | none => simp
  | some status => exact (Store.told_concat _ _ _).trans (if_neg h)

/-- Nothing is told by a step that shows no status. -/
theorem told_snoc_of_silent (h : e.event.status? = none) :
    Store.told (updates (log ++ [e])) tab = Store.told (updates log) tab := by
  rw [updates_snoc, Entry.update?, h]
  exact congrArg (Store.told · tab) (List.append_nil _)

theorem settled_status (o : Outcome) : Settled o.status := by
  cases o with
  | success => exact .inl rfl
  | failed | panicked => exact .inr ⟨_, rfl⟩

theorem Settled.state_ne {status : Status} (h : Settled status) : status.state ≠ .restarting := by
  rcases h with rfl | ⟨message, rfl⟩ <;> simp [Status.running, Status.error]

/-- Rounds end with a restart that ended. -/
theorem Rounds.settled (h : Rounds told) {status : Status} (hlast : told.getLast? = some status) :
    Settled status := by
  cases h with
  | nil => cases hlast
  | snoc h hfinal =>
    rw [List.append_cons, List.getLast?_concat] at hlast
    exact Option.some.inj hlast ▸ hfinal

/-- Whatever is told in rounds has a message exactly if it is an error. -/
theorem Rounds.message (h : Rounds told) {status : Status} (hmem : status ∈ told) :
    status.message.isSome = true ↔ status.state = .error := by
  induction h with
  | nil => simp at hmem
  | snoc h hfinal ih =>
    simp only [List.mem_append, List.mem_cons, List.not_mem_nil, or_false] at hmem
    rcases hmem with hold | rfl | rfl
    · exact ih hold
    · simp [Status.restarting]
    · rcases hfinal with rfl | ⟨message, rfl⟩ <;> simp [Status.running, Status.error]

/-! ## What steps emit -/

theorem store_emit {status : Status} (h : b.emit tab status = .ok b') :
    b.store.emit tab status = .ok b'.store := by
  unfold Board.emit at h
  cases hstore : b.store.emit tab status with
  | error x =>
    rw [hstore] at h
    cases h
  | ok store =>
    rw [hstore] at h
    cases h
    rfl

theorem store_publishOutcome (h : tab < b.store.size) (status : Status) (label : String) :
    b.store.emit tab status = .ok (b.publishOutcome tab status label).store := by
  obtain ⟨b', hb'⟩ := emit_isOk h status
  have hpublished : (b.publishOutcome tab status label).store = b'.store := by
    unfold Board.publishOutcome
    rw [hb']
    rfl
  rw [hpublished]
  exact store_emit hb'

/-- **A step emits what its entry stands for**, and changes nothing else in the store. -/
theorem Sound.emits (h : Sound log s) (hstep : Step s e s') :
    s.board.store.emitAll e.update?.toList = .ok s'.board.store := by
  cases hstep with
  | refuse hkey hrequest =>
    exact congrArg Except.ok (requestRestart_refused hkey hrequest).2.1.symm
  | take hoccupy => exact congrArg Except.ok (occupy_ok hoccupy).2.2.symm
  | release => rfl
  | @advance before after c ev phase b hholders hadvance =>
    have hself : c ∈ s.holders := by
      rw [hholders]
      exact mem_middle.2 (.inl rfl)
    cases hadvance with
    | accept limit script time hphase hemit =>
      have hemitted := store_emit hemit
      exact (Store.emitAll_one _ _).trans hemitted
    | unknown | act => rfl
    | publish hphase =>
      exact (Store.emitAll_one _ _).trans (store_publishOutcome (h.known c hself _ hphase) _ _)

/-! ## One call for a tab -/

/-- The worker of the call is at work. -/
def Phase.Working : Phase → Prop
  | .working _ => True
  | .taken | .refused _ | .published => False

/-- A worker is at work for the tab. -/
def AtWork (holders : List Call) (tab : Nat) : Prop :=
  ∃ c ∈ holders, c.tab = tab ∧ c.phase.Working

/-- Whoever holds a deployment asked for it with the binding of its tab. -/
theorem Sound.binding (h : Sound log s) (hbound : Bound catalog log) (hc : c ∈ s.holders) :
    catalog.binding c.tab = .ok ⟨c.tab, some c.key⟩ := by
  obtain ⟨n, htook, -⟩ := (h.inFlight_iff c.key c.tab).1 ((h.inFlight _ _).2 ⟨c, hc, rfl, rfl⟩)
  exact hbound _ htook

/-- **One call at most holds a deployment for a tab.** -/
theorem Sound.tab_injective (h : Sound log s) (hbound : Bound catalog log) (hc : c ∈ s.holders)
    (hc' : c' ∈ s.holders) (htab : c.tab = c'.tab) : c = c' := by
  have hbinding := h.binding hbound hc
  rw [htab, h.binding hbound hc'] at hbinding
  have hkey : c'.key = c.key := Option.some.inj (Binding.mk.inj (Except.ok.inj hbinding)).2
  exact List.inj_on_of_nodup_map h.keys hc hc' hkey.symm

theorem Sound.atWork_iff (h : Sound log s) (hbound : Bound catalog log) (hc : c ∈ s.holders)
    (htab : c.tab = tab) : AtWork s.holders tab ↔ c.phase.Working := by
  subst htab
  constructor
  · rintro ⟨c', hc', htab, hworking⟩
    rwa [h.tab_injective hbound hc hc' htab.symm]
  · exact fun hworking => ⟨c, hc, rfl, hworking⟩

/-! ## Keeping pace -/

/-- What was told of a tab, depending on whether a worker is at work for it: whole rounds, with one
more begun in that case. -/
structure Pace (working : Prop) (told : List Status) : Prop where
  begun : working → ∃ w, Rounds w ∧ told = w ++ [.restarting]
  whole : ¬ working → Rounds told

/-- **A call that goes on keeps pace.** -/
theorem Advance.pace {ev : Event} {phase : Phase} (h : Advance b c ev phase b')
    (hpace : Pace c.phase.Working told) : Pace phase.Working (told ++ ev.status?.toList) := by
  cases h with
  | accept limit script time hphase hemit =>
    rw [hphase] at hpace
    exact ⟨fun _ => ⟨told, hpace.whole id, rfl⟩, fun hnot => (hnot trivial).elim⟩
  | unknown hphase hemit =>
    rw [hphase] at hpace
    exact ⟨False.elim, fun _ => (List.append_nil told).symm ▸ hpace.whole id⟩
  | act hphase hact =>
    rw [hphase] at hpace
    exact (List.append_nil told).symm ▸ hpace
  | @publish o rest hphase =>
    rw [hphase] at hpace
    obtain ⟨w, hw, rfl⟩ := hpace.begun trivial
    refine ⟨False.elim, fun _ => ?_⟩
    rw [List.append_assoc]
    exact hw.snoc (settled_status o)

/-- The worker of a call that only has its deployment to give back is done. -/
theorem Phase.Over.not_working {phase : Phase} (h : phase.Over) : ¬ phase.Working := by
  cases phase with
  | taken | working => exact h.elim
  | refused | published => exact id

theorem atWork_middle {before after : List Call} :
    AtWork (before ++ c :: after) tab ↔
      (c.tab = tab ∧ c.phase.Working) ∨ AtWork (before ++ after) tab := by
  simp only [AtWork, mem_middle, or_and_right, exists_or, exists_eq_left]

/-- **Every step keeps pace**, for every tab. -/
theorem Sound.pace (h : Sound log s) (hstep : Step s e s') (hbound : Bound catalog (log ++ [e]))
    (hpace : ∀ tab, Pace (AtWork s.holders tab) (Store.told (updates log) tab)) (tab : Nat) :
    Pace (AtWork s'.holders tab) (Store.told (updates (log ++ [e])) tab) := by
  have hold : Bound catalog log := fun e' he' => hbound e' (List.mem_append_left _ he')
  cases hstep with
  | refuse =>
    rw [told_snoc_of_silent rfl]
    exact hpace tab
  | @take tab' key b hoccupy =>
    have hsame :
        AtWork (s.holders ++ [⟨s.calls, tab', key, .taken⟩]) tab ↔ AtWork s.holders tab := by
      simp [atWork_middle, Phase.Working]
    rw [told_snoc_of_silent rfl, hsame]
    exact hpace tab
  | @release before after c hholders hover =>
    have hsame : AtWork s.holders tab ↔ AtWork (before ++ after) tab := by
      simp [hholders, atWork_middle, hover.not_working]
    rw [told_snoc_of_silent rfl, ← hsame]
    exact hpace tab
  | @advance before after c ev phase b hholders hadvance =>
    by_cases htab : c.tab = tab
    · -- the call is the only one for the tab, before the step and after it
      have hself : c ∈ s.holders := by
        rw [hholders]
        exact mem_middle.2 (.inl rfl)
      have hafter := (h.advance hholders hadvance).atWork_iff hbound (mem_middle.2 (.inl rfl)) htab
      have hpaced := hpace tab
      rw [h.atWork_iff hold hself htab] at hpaced
      rw [told_snoc_of_eq (e := c.entry ev) htab, hafter]
      exact hadvance.pace hpaced
    · have hsame : AtWork (before ++ { c with phase } :: after) tab ↔ AtWork s.holders tab := by
        simp [hholders, atWork_middle, htab]
      rw [told_snoc_of_ne htab, hsame]
      exact hpace tab

/-! ## Histories -/

/-- What holds of every log and of the state that it leads to. -/
structure History (b : Board) (log : List Entry) (s : Restarts) : Prop where
  /-- The store is what emitting the updates of the log makes of it. -/
  emitted : b.store.emitAll (updates log) = .ok s.board.store
  /-- Every tab was told of whole rounds, and perhaps of the beginning of one more. -/
  rounds : ∀ tab, ∃ w, Rounds w ∧ Store.told (updates log) tab <+: w
  /-- The deployment of a tab that is restarting is under way for this tab. -/
  inFlight : ∀ tab status, s.board.store.current tab = .ok status → status.state = .restarting →
    ∃ key, b.catalog.binding tab = .ok ⟨tab, some key⟩ ∧ s.board.inFlight.get? key = some tab
  idle : s.board.inFlight.size = 0 →
    ∀ tab status, s.board.store.current tab = .ok status → status.state ≠ .restarting
  /-- Exactly an error has a message. -/
  message : ∀ tab status, s.board.store.current tab = .ok status →
    (status.message.isSome = true ↔ status.state = .error)

theorem Pace.rounds {working : Prop} (h : Pace working told) :
    ∃ w, Rounds w ∧ told <+: w := by
  by_cases hworking : working
  · obtain ⟨w, hw, rfl⟩ := h.begun hworking
    refine ⟨_, hw.snoc (.inl rfl), ?_⟩
    exact ⟨[.running], by simp⟩
  · exact ⟨told, h.whole hworking, List.prefix_refl _⟩

theorem run_pace (h : Run (start b) log s) (hbound : Bound catalog log) :
    b.store.emitAll (updates log) = .ok s.board.store ∧
      ∀ tab, Pace (AtWork s.holders tab) (Store.told (updates log) tab) := by
  induction h with
  | nil =>
    have hnobody : ∀ tab, ¬ AtWork (start b).holders tab := by simp [AtWork, start]
    exact ⟨rfl, fun tab => ⟨fun hworking => (hnobody tab hworking).elim, fun _ => .nil⟩⟩
  | @snoc log s e s' hrun hstep ih =>
    obtain ⟨hemitted, hpace⟩ := ih fun e' he' => hbound e' (List.mem_append_left _ he')
    refine ⟨?_, fun tab => (sound_run hrun).pace hstep hbound hpace tab⟩
    rw [updates_snoc, Store.emitAll_append hemitted]
    exact (sound_run hrun).emits hstep

/-- The status of a tab is the one that it was told last. -/
theorem status_eq {status : Status}
    (hstore : b.store.statuses = List.replicate b.catalog.size .running)
    (hemitted : b.store.emitAll (updates log) = .ok s.board.store)
    (hcurrent : s.board.store.current tab = .ok status) :
    status = ((Store.told (updates log) tab).getLast?).getD .running := by
  rw [Store.current_eq_ok_iff, Store.statuses_emitAll hemitted, hstore,
    List.getElem?_replicate] at hcurrent
  split_ifs at hcurrent
  · exact (Option.some.inj hcurrent).symm
  · cases hcurrent

/-- A tab that is not worked at is not restarting. -/
theorem Pace.atWork {working : Prop} (h : Pace working told)
    (hstate : (told.getLast?.getD .running).state = .restarting) : working := by
  by_contra hnot
  cases hlast : told.getLast? with
  | none =>
    rw [hlast] at hstate
    cases hstate
  | some status =>
    rw [hlast] at hstate
    exact ((h.whole hnot).settled hlast).state_ne hstate

theorem Pace.message {working : Prop} (h : Pace working told) :
    (told.getLast?.getD .running).message.isSome = true ↔
      (told.getLast?.getD .running).state = .error := by
  cases hlast : told.getLast? with
  | none => simp [Status.running]
  | some status =>
    obtain ⟨w, hw, hbegin⟩ := h.rounds
    exact hw.message (hbegin.subset (List.mem_of_getLast? hlast))

/-- **What a tab is told comes in rounds**, however the steps of calls and workers come. -/
theorem run_history (hstore : b.store.statuses = List.replicate b.catalog.size .running)
    (h : Run (start b) log s) (hbound : Bound b.catalog log) : History b log s := by
  have hsound := sound_run h
  obtain ⟨hemitted, hpace⟩ := run_pace h hbound
  have hworking : ∀ tab status, s.board.store.current tab = .ok status →
      status.state = .restarting → AtWork s.holders tab := by
    intro tab status hcurrent hstate
    rw [status_eq hstore hemitted hcurrent] at hstate
    exact (hpace tab).atWork hstate
  refine ⟨hemitted, fun tab => (hpace tab).rounds, ?inFlight, ?idle, ?message⟩
  case inFlight =>
    intro tab status hcurrent hstate
    obtain ⟨c, hc, rfl, -⟩ := hworking tab status hcurrent hstate
    exact ⟨c.key, hsound.binding hbound hc, (hsound.inFlight _ _).2 ⟨c, hc, rfl, rfl⟩⟩
  case idle =>
    intro hsize tab status hcurrent hstate
    obtain ⟨c, hc, -⟩ := hworking tab status hcurrent hstate
    rw [hsound.size_inFlight] at hsize
    exact List.ne_nil_of_mem hc (List.eq_nil_of_length_eq_zero hsize)
  case message =>
    intro tab status hcurrent
    rw [status_eq hstore hemitted hcurrent]
    exact (hpace tab).message

/-- Two tabs share a deployment. The worker of the first panics, so the first tab is in error; then
the second is restarted. -/
theorem run_history_shared :
    let k : DeploymentKey := ⟨"default", "web"⟩
    let tab : Tab := { caption := "web", iconUrl := "/i", frameUrl := "/", deployment := some k }
    let b : Board := .ofCatalog ⟨[tab, tab]⟩ {}
    ∃ s, History b
      [⟨0, 0, some k, .took⟩, ⟨0, 0, some k, .accepted⟩, ⟨0, 0, some k, .did .patch⟩,
        ⟨0, 0, some k, .published .panicked⟩, ⟨0, 0, some k, .released⟩, ⟨1, 1, some k, .took⟩,
        ⟨1, 1, some k, .accepted⟩] s := by
  intro k tab b
  let script : Restart.Script := { patch := { ending := .panicked } }
  have taken : Run (start b) _ _ := .one (@Step.take _ 0 k _ rfl)
  have accepted := taken.snoc (.advance rfl (.accept ⟨1000⟩ script 0 rfl rfl))
  have called := accepted.snoc (.advance rfl (.act rfl rfl))
  have published := called.snoc (.advance rfl (.publish rfl))
  have released := published.snoc (.release rfl trivial)
  have again := released.snoc (@Step.take _ 1 k _ rfl)
  have accepted' := again.snoc (.advance rfl (.accept ⟨1000⟩ script 0 rfl rfl))
  refine ⟨_, run_history rfl accepted' ?_⟩
  intro e he
  simp only [List.mem_cons, List.not_mem_nil, or_false] at he
  rcases he with rfl | rfl | rfl | rfl | rfl | rfl | rfl <;> rfl

end TabBoard.Restarts
