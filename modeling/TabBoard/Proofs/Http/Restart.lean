import TabBoard.Proofs.Agents

/-!
# Requests to restart a tab

A request to restart names a tab by a segment of its path. Three tables decide it: the catalog says
whether there is such a tab and which deployment is behind it, the deployments under way whether it
is being restarted already, and the store has to know the tab.

**Theorem (`restart_answered`).** On every board that was wired from a catalog, whatever happened to
it since, the answer is as the first two tables say (`Answered`). If the restart is accepted then
its tab shows it and its deployment is under way before the answer is given; a request that is
refused changes nothing but what is counted (`Untouched`).

The store agrees with the catalog (`Board.wired_moves`), so the tab is always known to it, also when
others make moves between the two steps of accepting a restart (`exists_emit`).
-/

namespace TabBoard.Http

open Board (Move)

variable {c : Catalog} {b : Board} {s s' : Simulation} {segment : String} {i : Nat}

/-! ## What the tables say -/

/-- The segment names this tab of the catalog, with what is behind it. -/
def Names (c : Catalog) (segment : String) (i : Nat) (key : Option DeploymentKey) : Prop :=
  tabIndex segment = .ok i ∧ (c.tabs[i]?).map Tab.deployment = some key

theorem Names.lt {key : Option DeploymentKey} (h : Names c segment i key) : i < c.size := by
  obtain ⟨t, ht, -⟩ := Option.map_eq_some_iff.1 h.2
  exact (List.getElem?_eq_some_iff.1 ht).1

theorem Names.unique {i' : Nat} {key key' : Option DeploymentKey} (h : Names c segment i key)
    (h' : Names c segment i' key') : i' = i ∧ key' = key := by
  obtain rfl := Except.ok.inj (h.1.symm.trans h'.1)
  exact ⟨rfl, Option.some.inj (h'.2.symm.trans h.2)⟩

theorem restartAction_of_ok (hindex : tabIndex segment = .ok i) :
    b.restartAction segment =
      ((b.catalog.restartable i).mapError Error.ofCatalog).map Action.restart := by
  unfold Board.restartAction
  rw [hindex]
  rfl

/-- A tab without a deployment is not restarted. -/
theorem restartAction_of_unbound (hcatalog : b.catalog = c) (h : Names c segment i none) :
    b.restartAction segment =
      .error (.notRestartable s!"Tab {i} has no deployment to restart") := by
  obtain ⟨t, ht, hkey⟩ := Option.map_eq_some_iff.1 h.2
  have hrestartable : b.catalog.restartable i = .error (.notRestartable i) := by
    simp [hcatalog, Catalog.restartable, Catalog.binding, Catalog.tab, ht, Except.map, hkey,
      Binding.restartable]
  rw [restartAction_of_ok h.1, hrestartable]
  rfl

theorem restartAction_of_bound {key : DeploymentKey} (hcatalog : b.catalog = c)
    (h : Names c segment i (some key)) :
    b.restartAction segment = .ok (.restart ⟨i, some key⟩) := by
  obtain ⟨t, ht, hkey⟩ := Option.map_eq_some_iff.1 h.2
  have hrestartable : b.catalog.restartable i = .ok ⟨i, some key⟩ := by
    simp [hcatalog, Catalog.restartable, Catalog.binding, Catalog.tab, ht, Except.map, hkey,
      Binding.restartable]
  rw [restartAction_of_ok h.1, hrestartable]
  rfl

/-- The segment names no tab. -/
def NamesNone (c : Catalog) (segment : String) : Prop :=
  (∃ e, tabIndex segment = .error e) ∨ ∃ i, tabIndex segment = .ok i ∧ c.size ≤ i

theorem names_or_none (c : Catalog) (segment : String) :
    NamesNone c segment ∨ ∃ i key, Names c segment i key := by
  cases hindex : tabIndex segment with
  | error e => exact .inl (.inl ⟨e, hindex⟩)
  | ok i =>
    by_cases hlt : i < c.size
    · exact .inr ⟨i, _, hindex, by rw [List.getElem?_eq_getElem hlt]; rfl⟩
    · exact .inl (.inr ⟨i, hindex, Nat.le_of_not_lt hlt⟩)

theorem NamesNone.not_names {key : Option DeploymentKey} (h : NamesNone c segment) :
    ¬ Names c segment i key := by
  intro hnames
  rcases h with ⟨e, he⟩ | ⟨i', hi', hle⟩
  · cases he.symm.trans hnames.1
  · obtain rfl := Except.ok.inj (hi'.symm.trans hnames.1)
    exact absurd hnames.lt (Nat.not_lt.2 hle)

theorem status_tabIndex {e : Error} (h : tabIndex segment = .error e) : e.status = 404 := by
  unfold tabIndex at h
  split at h
  · cases h
    rfl
  · split at h
    · cases h
    · cases h
      rfl

theorem restartAction_of_none (hcatalog : b.catalog = c) (h : NamesNone c segment) :
    ∃ e, b.restartAction segment = .error e ∧ e.status = 404 := by
  rcases h with ⟨e, he⟩ | ⟨i, hi, hle⟩
  · refine ⟨e, ?_, status_tabIndex he⟩
    unfold Board.restartAction
    rw [he]
    rfl
  · have hrestartable : b.catalog.restartable i = .error (.unknownTab i) := by
      simp [hcatalog, Catalog.restartable, Catalog.binding, Catalog.tab, Except.map,
        List.getElem?_eq_none hle]
    rw [restartAction_of_ok hi, hrestartable]
    exact ⟨_, rfl, rfl⟩

/-! ## The route -/

theorem tabIndex_empty : ∃ e, tabIndex "" = .error e := by
  have hdecode : Text.Utf8.decode? (Text.Percent.decode (Text.Utf8.encode "")) = some "" := by
    simp [Text.Utf8.encode, Text.Percent.decode, Text.Utf8.decode?, Text.Utf8.symbols,
      Text.Utf8.symbolsFrom]
  unfold tabIndex
  rw [hdecode]
  exact ⟨_, rfl⟩

/-- The path leads to the restart of the segment, unless this is empty. -/
theorem ofPath_restart {segment : List Char} (h : '/' ∉ segment) :
    Route.ofPath? ("/api/restart/".toList ++ segment) =
      if segment = [] then none else some (.restart (String.ofList segment)) := by
  have hpath : "/api/restart/".toList ++ segment =
      [] ++ '/' :: ("api".toList ++ '/' :: ("restart".toList ++ '/' :: segment)) := rfl
  have hpieces : Text.splitAll '/' ("/api/restart/".toList ++ segment) =
      [[], "api".toList, "restart".toList, segment] := by
    rw [hpath, Text.splitAll_append (by simp), Text.splitAll_append (by decide),
      Text.splitAll_append (by decide), Text.splitAll_of_not_mem h]
  unfold Route.ofPath?
  rw [hpieces]
  by_cases hempty : segment = []
  · simp [hempty]
  · simp [hempty]

/-- What a request to restart asks for. -/
theorem action_restart (b : Board) (now : Moment) {r : Request} (hmethod : r.method = "POST")
    {segment : List Char} (hpath : r.path = "/api/restart/".toList ++ segment)
    (hsegment : '/' ∉ segment) :
    b.action now r =
      if segment = [] then .answer { status := 404 }
      else Board.answerOr (b.restartAction (String.ofList segment)) := by
  unfold Board.action
  rw [hpath, ofPath_restart hsegment, hmethod]
  by_cases hempty : segment = []
  · simp [hempty]
  · simp [hempty, Route.methods, Board.routeAction]

/-! ## The two steps of accepting a restart -/

/-- **The tab is known to the store, whatever others do between the two steps.** -/
theorem exists_emit {key : DeploymentKey} (hwired : Board.Wired c b) (hlt : i < c.size)
    (hfree : b.inFlight.get? key = none) (ms : List Move) :
    ∃ occupied emitted, b.occupy i key = .ok occupied ∧
      occupied.inFlight = b.inFlight.insert key i ∧ occupied.store = b.store ∧
      (occupied.moves ms).emit i .restarting = .ok emitted ∧
      emitted.inFlight = (occupied.moves ms).inFlight ∧
      emitted.store.statuses = (occupied.moves ms).store.statuses.set i .restarting := by
  have hcontains : b.inFlight.contains key = false :=
    (Table.contains_eq_false_iff _ _).2 hfree
  obtain ⟨occupied, hoccupied⟩ : ∃ occupied, b.occupy i key = .ok occupied := by
    rw [Restarts.occupy_eq, if_neg (by simp [hcontains])]
    exact ⟨_, rfl⟩
  obtain ⟨-, hinFlight, hstore⟩ := Restarts.occupy_ok hoccupied
  have hsize : (occupied.moves ms).store.size = c.size := by
    rw [(Board.fixed_moves occupied ms).size, hstore, hwired.size]
  obtain ⟨emitted, hemitted⟩ := Restarts.emit_isOk (hsize ▸ hlt) .restarting
  obtain ⟨hsame, -, hstatuses⟩ := Restarts.emit_ok hemitted
  exact ⟨occupied, emitted, hoccupied, hinFlight, hstore, hemitted, hsame, hstatuses⟩

/-! ## What a request does -/

/-- A call to the cluster or to the gateway. -/
def IsCall : Simulation.Entry → Bool
  | .posted _ _ | .sighting _ => false
  | _ => true

/-- The calls so far, each with its time. -/
def calls (s : Simulation) : List (Nat × Simulation.Entry) := s.log.filter fun e => IsCall e.2

/-- What an entry of the log tells of what was posted. -/
def posted? : Simulation.Entry → Option (Recipient × Status.Update)
  | .posted whom u => some (whom, u)
  | _ => none

/-- What was posted and is not being dispatched yet: what was logged of it, and what waits. -/
def queued (s : Simulation) : List (Recipient × Status.Update) :=
  s.log.filterMap (fun e => posted? e.2) ++ s.board.store.outbox

/-- The restart of a deployment was accepted for a tab. -/
structure Accepted (s s' : Simulation) (i : Nat) (key : DeploymentKey) : Prop where
  statuses : s'.board.store.statuses = s.board.store.statuses.set i .restarting
  shown : s'.board.store.current i = .ok .restarting
  inFlight : s'.board.inFlight = s.board.inFlight.insert key i
  /-- A worker is to follow it, which has not begun. -/
  worker : ∃ turn, s'.workers = s.workers ++ [{ tab := i, key, turn }]
  calls : calls s' = calls s

/-- Nothing changed but what is counted and what observers noted. -/
structure Untouched (s s' : Simulation) : Prop where
  statuses : s'.board.store.statuses = s.board.store.statuses
  fanout : s'.board.store.fanout = s.board.store.fanout
  inFlight : s'.board.inFlight = s.board.inFlight
  registry : s'.board.registry = s.board.registry
  workers : s'.workers = s.workers
  scripts : s'.scripts = s.scripts
  sending : s'.dispatcher.sending = s.dispatcher.sending
  calls : calls s' = calls s
  queued : queued s' = queued s

theorem Untouched.refl (s : Simulation) : Untouched s s :=
  ⟨rfl, rfl, rfl, rfl, rfl, rfl, rfl, rfl, rfl⟩

theorem Untouched.trans (h : Untouched s s') {s'' : Simulation} (h' : Untouched s' s'') :
    Untouched s s'' :=
  ⟨h'.statuses.trans h.statuses, h'.fanout.trans h.fanout, h'.inFlight.trans h.inFlight,
    h'.registry.trans h.registry, h'.workers.trans h.workers, h'.scripts.trans h.scripts,
    h'.sending.trans h.sending, h'.calls.trans h.calls, h'.queued.trans h.queued⟩

theorem untouched_noteSightings (s : Simulation) : Untouched s s.noteSightings := by
  simp only [Simulation.noteSightings, Simulation.foldl_note]
  refine ⟨rfl, rfl, rfl, rfl, rfl, rfl, rfl, ?_, ?_⟩
  · simp [calls, List.filter_map, Function.comp_def, IsCall]
  · simp [queued, List.filterMap_append, List.filterMap_map, posted?]

/-- What is posted is only logged, or left to the dispatcher. -/
theorem untouched_forward (s : Simulation) : Untouched s s.forward := by
  unfold Simulation.forward
  split
  · exact .refl s
  · simp only [Simulation.takePosted,
      Simulation.foldl_note_eq fun p : Recipient × Status.Update => .posted p.1 p.2]
    refine ⟨rfl, rfl, rfl, rfl, rfl, rfl, rfl, ?_, ?_⟩
    · simp [calls, List.filter_map, Function.comp_def, IsCall]
    · simp [queued, List.filterMap_append, List.filterMap_map, posted?]
  · split_ifs
    · exact .refl s
    · exact ⟨rfl, rfl, rfl, rfl, rfl, rfl, rfl, rfl, rfl⟩

/-- What a board left to do touches nothing more. -/
theorem untouched_withBoard (s : Simulation) (b : Board) :
    Untouched { s with board := b } (s.withBoard b) :=
  (untouched_noteSightings _).trans (untouched_forward _)

/-- A request that is refused is counted. -/
theorem untouched_measure (s : Simulation) (f : Metrics → Metrics) :
    Untouched s (s.withBoard (s.board.measure f)) := by
  have hcounted : Untouched s { s with board := s.board.measure f } :=
    ⟨rfl, rfl, rfl, rfl, rfl, rfl, rfl, rfl, rfl⟩
  exact hcounted.trans (untouched_withBoard s _)

/-- What becomes of a request to restart, by what its segment names. -/
structure Answered (c : Catalog) (segment : String) (s : Simulation) (status : Nat)
    (s' : Simulation) : Prop where
  ok : status = 200 ↔ ∃ i key, Names c segment i (some key) ∧ s.board.inFlight.get? key = none
  unknown : status = 404 ↔ NamesNone c segment
  unbound : status = 400 ↔ ∃ i, Names c segment i none
  busy : status = 409 ↔
    ∃ i key, Names c segment i (some key) ∧ s.board.inFlight.get? key ≠ none
  only : status ∈ [200, 404, 400, 409]
  accepted : ∀ i key, Names c segment i (some key) → s.board.inFlight.get? key = none →
    Accepted s s' i key
  refused : status ≠ 200 → Untouched s s'
  /-- Whatever others do between the two steps of accepting a restart, the second succeeds. -/
  amid : ∀ i key, Names c segment i (some key) → s.board.inFlight.get? key = none →
    ∀ ms : List Move, ∃ occupied emitted, s.board.occupy i key = .ok occupied ∧
      occupied.inFlight = s.board.inFlight.insert key i ∧ occupied.store = s.board.store ∧
      (occupied.moves ms).emit i .restarting = .ok emitted ∧
      emitted.inFlight = (occupied.moves ms).inFlight ∧
      emitted.store.statuses = (occupied.moves ms).store.statuses.set i .restarting

/-- The status of the answer, by what the tables say. -/
inductive Verdict (c : Catalog) (segment : String) (inFlight : Table DeploymentKey Nat) :
    Nat → Prop
  | unknown (h : NamesNone c segment) : Verdict c segment inFlight 404
  | unbound {i : Nat} (h : Names c segment i none) : Verdict c segment inFlight 400
  | busy {i : Nat} {key : DeploymentKey} (h : Names c segment i (some key))
      (hbusy : inFlight.get? key ≠ none) : Verdict c segment inFlight 409
  | free {i : Nat} {key : DeploymentKey} (h : Names c segment i (some key))
      (hfree : inFlight.get? key = none) : Verdict c segment inFlight 200

theorem Verdict.unique {inFlight : Table DeploymentKey Nat} {m n : Nat}
    (h : Verdict c segment inFlight m) (h' : Verdict c segment inFlight n) : n = m := by
  cases h with
  | unknown h =>
    cases h' with
    | unknown => rfl
    | unbound h' | busy h' | free h' => exact absurd h' h.not_names
  | unbound h =>
    cases h' with
    | unknown h' => exact absurd h h'.not_names
    | unbound => rfl
    | busy h' | free h' => cases (h.unique h').2
  | busy h hbusy =>
    cases h' with
    | unknown h' => exact absurd h h'.not_names
    | unbound h' => cases (h.unique h').2
    | busy => rfl
    | free h' hfree =>
      cases (h.unique h').2
      exact absurd hfree hbusy
  | free h hfree =>
    cases h' with
    | unknown h' => exact absurd h h'.not_names
    | unbound h' => cases (h.unique h').2
    | busy h' hbusy =>
      cases (h.unique h').2
      exact absurd hfree hbusy
    | free => rfl

theorem Verdict.answered {status : Nat}
    (h : Verdict c segment s.board.inFlight status) (hwired : Board.Wired c s.board)
    (haccepted : ∀ i key, Names c segment i (some key) → s.board.inFlight.get? key = none →
      Accepted s s' i key)
    (hrefused : status ≠ 200 → Untouched s s') : Answered c segment s status s' where
  ok := by
    constructor
    · rintro rfl
      cases h with
      | free h hfree => exact ⟨_, _, h, hfree⟩
    · rintro ⟨i, key, hnames, hfree⟩
      exact (Verdict.free hnames hfree).unique h
  unknown := by
    constructor
    · rintro rfl
      cases h with
      | unknown h => exact h
    · exact fun hnone => (Verdict.unknown hnone).unique h
  unbound := by
    constructor
    · rintro rfl
      cases h with
      | unbound h => exact ⟨_, h⟩
    · rintro ⟨i, hnames⟩
      exact (Verdict.unbound hnames).unique h
  busy := by
    constructor
    · rintro rfl
      cases h with
      | busy h hbusy => exact ⟨_, _, h, hbusy⟩
    · rintro ⟨i, key, hnames, hbusy⟩
      exact (Verdict.busy hnames hbusy).unique h
  only := by cases h <;> simp
  accepted := haccepted
  refused := hrefused
  amid _ _ hnames hfree := exists_emit hwired hnames.lt hfree

/-! ## Answers -/

theorem handle_of_answer {now : Moment} {r : Request} {a : Response}
    (h : s.board.action now r = .answer a) (id : String) :
    s.handle now id r = (a.sealed r.method, none, s) := by
  simp only [Simulation.handle, h]

theorem handle_of_restart {now : Moment} {r : Request} {binding : Binding}
    (h : s.board.action now r = .restart binding) (id : String) :
    s.handle now id r =
      ((Board.restartResponse (s.requestRestart binding.tab binding.key).1).sealed r.method, none,
        (s.requestRestart binding.tab binding.key).2) := by
  simp only [Simulation.handle, h]

/-- A request for a deployment that is being restarted is refused. -/
theorem requestRestart_busy {key : DeploymentKey} (hbusy : s.board.inFlight.get? key ≠ none) :
    s.requestRestart i (some key) =
      (.error (.inProgress key), s.withBoard
        (s.board.measure (·.restartRejected (Restart.Error.inProgress key).label))) := by
  have hcontains : s.board.inFlight.contains key = true := by
    rw [Table.contains_eq_isSome]
    exact Option.isSome_iff_ne_none.2 hbusy
  simp only [Simulation.requestRestart, Board.requestRestart, Restarts.occupy_eq, if_pos hcontains]

/-- **A request for a deployment that is free is accepted**, and its tab shows it. -/
theorem requestRestart_free {key : DeploymentKey} (hwired : Board.Wired c s.board)
    (hlt : i < c.size) (hfree : s.board.inFlight.get? key = none) :
    (s.requestRestart i (some key)).1 = .ok () ∧
      Accepted s (s.requestRestart i (some key)).2 i key := by
  obtain ⟨occupied, emitted, hoccupied, hinFlight, hstore, hemitted, hsame, hstatuses⟩ :=
    exists_emit hwired hlt hfree []
  rw [Board.moves_nil] at hemitted hsame hstatuses
  rw [hstore] at hstatuses
  let b := emitted.measure Metrics.restartAccepted
  have hrequest : s.board.requestRestart i (some key) = (.ok (), b) := by
    simp only [Board.requestRestart, hoccupied, hemitted, b]
  have hleft : Untouched { s with board := b } (s.withBoard b) := untouched_withBoard s b
  have hset : (s.withBoard b).board.store.statuses =
      s.board.store.statuses.set i .restarting := hleft.statuses.trans hstatuses
  have hlt' : i < s.board.store.statuses.length := Nat.lt_of_lt_of_eq hlt hwired.size.symm
  have hshown : (s.withBoard b).board.store.statuses[i]? = some .restarting := by
    rw [hset]
    exact List.getElem?_set_self hlt'
  simp only [Simulation.requestRestart, hrequest, Simulation.takeTurn]
  refine ⟨trivial, hset, Store.current_eq_ok_iff.2 hshown, ?_, ?_, hleft.calls⟩
  · exact hleft.inFlight.trans (hsame.trans hinFlight)
  · rw [hleft.workers]
    exact ⟨_, rfl⟩

/-- **A request to restart is answered as the tables say.** -/
theorem restart_answered (catalog : Catalog) (settings : Settings) (ms : List Move)
    {s : Simulation} (hboard : s.board = (Board.ofCatalog catalog settings).moves ms)
    (now : Moment) (id : String) {r : Request}
    (hmethod : r.method = "POST") {segment : List Char}
    (hpath : r.path = "/api/restart/".toList ++ segment) (hsegment : '/' ∉ segment) :
    Answered catalog (String.ofList segment) s (s.handle now id r).1.status
      (s.handle now id r).2.2 := by
  have hwired : Board.Wired catalog s.board := hboard ▸ Board.wired_moves catalog settings ms
  have haction := action_restart s.board now hmethod hpath hsegment
  rcases names_or_none catalog (String.ofList segment) with hnone | ⟨i, key, hnames⟩
  · obtain ⟨e, he, hstatus⟩ := restartAction_of_none hwired.catalog hnone
    obtain ⟨a, ha, hunknown⟩ : ∃ a, s.board.action now r = .answer a ∧ a.status = 404 := by
      rw [haction, he]
      split_ifs
      · exact ⟨_, rfl, rfl⟩
      · exact ⟨_, rfl, hstatus⟩
    rw [handle_of_answer ha]
    have hverdict : Verdict catalog (String.ofList segment) s.board.inFlight a.status :=
      hunknown ▸ .unknown hnone
    exact hverdict.answered hwired (fun _ _ hnames => absurd hnames hnone.not_names)
      fun _ => .refl s
  have hempty : segment ≠ [] := by
    rintro rfl
    obtain ⟨e, he⟩ := tabIndex_empty
    cases he.symm.trans hnames.1
  rw [if_neg hempty] at haction
  cases key with
  | none =>
    rw [restartAction_of_unbound hwired.catalog hnames] at haction
    rw [handle_of_answer haction]
    have hverdict : Verdict catalog (String.ofList segment) s.board.inFlight 400 := .unbound hnames
    refine hverdict.answered hwired (fun _ _ hnames' => ?_) fun _ => .refl s
    cases (hnames.unique hnames').2
  | some key =>
    rw [restartAction_of_bound hwired.catalog hnames] at haction
    rw [handle_of_restart haction]
    cases hget : s.board.inFlight.get? key with
    | some tab =>
      have hbusy : s.board.inFlight.get? key ≠ none := by simp [hget]
      rw [requestRestart_busy hbusy]
      have hverdict : Verdict catalog (String.ofList segment) s.board.inFlight 409 :=
        .busy hnames hbusy
      refine hverdict.answered hwired (fun _ _ hnames' hfree => ?_)
        fun _ => untouched_measure s _
      cases (hnames.unique hnames').2
      exact absurd hfree hbusy
    | none =>
      obtain ⟨hok, haccepted⟩ := requestRestart_free hwired hnames.lt hget
      rw [hok]
      have hverdict : Verdict catalog (String.ofList segment) s.board.inFlight 200 :=
        .free hnames hget
      refine hverdict.answered hwired (fun i' key' hnames' _ => ?_) fun hne => absurd rfl hne
      obtain ⟨rfl, hkey⟩ := hnames.unique hnames'
      cases hkey
      exact haccepted

/-- Two tabs show the same deployment, which is being restarted from the first of them. A restart
from the second is refused. -/
theorem restart_answered_shared :
    let k : DeploymentKey := ⟨"default", "web"⟩
    let tab : Tab := { caption := "web", iconUrl := "/i", frameUrl := "/f", deployment := some k }
    let s : Simulation :=
      { board := (Board.ofCatalog ⟨[tab, tab]⟩ {}).moves [.occupy 0 k, .emit 0 .restarting]
        limit := ⟨1000⟩ }
    let r : Request := { method := "POST", uri := "/api/restart/1" }
    let answer := s.handle ⟨0, 0⟩ "a" r
    Answered ⟨[tab, tab]⟩ "1" s answer.1.status answer.2.2 ∧ answer.1.status = 409 := by
  intro k tab s r answer
  have hpath : r.path = "/api/restart/".toList ++ ['1'] := by decide
  have hanswered : Answered ⟨[tab, tab]⟩ "1" s answer.1.status answer.2.2 :=
    restart_answered ⟨[tab, tab]⟩ {} [.occupy 0 k, .emit 0 .restarting] rfl ⟨0, 0⟩ "a" rfl hpath
      (by decide)
  have hindex : tabIndex "1" = .ok 1 := by decide +kernel
  exact ⟨hanswered, hanswered.busy.2 ⟨1, k, ⟨hindex, rfl⟩, by decide⟩⟩

end TabBoard.Http
