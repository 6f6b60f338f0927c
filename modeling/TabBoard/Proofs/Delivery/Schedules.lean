import TabBoard.Proofs.Delivery.Convergence
import TabBoard.Proofs.Delivery.Dispatch
import TabBoard.Startup.Wiring

/-!
# Every simulation is a schedule

**Theorem (`Scheduled.handle`).** What a simulated dashboard with a gateway shows, some schedule
leads to (`Scheduled`), whatever requests it handles and however long it runs. So what holds of
every schedule holds of what is simulated; `Scheduled.converged` is one such case.

Each operation on the board is one move or two. A connect is a change of the registry and the
greeting that follows; the close of the connection that was replaced is a wait, during which the
workers and the dispatcher act.
-/

namespace TabBoard.Simulation

open Traffic (Move)

variable {t : Traffic} {s s' : Simulation} {b b' : Board} {tabs : Nat}

/-! ## Operations on the board -/

/-- A board that only restarts and counts otherwise carries the same. -/
theorem Carries.same (h : Carries t b) (hconnect : b'.connectObservers = b.connectObservers)
    (hdisconnect : b'.disconnectObservers = b.disconnectObservers)
    (hregistry : b'.registry = b.registry) (hstore : b'.store.Alike b.store) : Carries t b' :=
  ⟨⟨hconnect.trans h.connectObservers, hdisconnect.trans h.disconnectObservers,
    hregistry.trans h.registry, h.greeting⟩, hstore.trans h.store⟩

theorem Carries.measure (h : Carries t b) (f : Metrics → Metrics) : Carries t (b.measure f) :=
  h.same rfl rfl rfl (.refl _)

/-- An emission to an unknown tab is a move that changes nothing. -/
theorem Carries.emit (h : Carries t b) (tab : Nat) (status : Status) :
    Carries (t.step (.emit tab status)) ((b.emit tab status).toOption.getD b) := by
  unfold Board.emit
  simp only [Traffic.step, Store.emit_eq, h.store.size]
  by_cases htab : tab < t.store.size
  · simp only [if_pos htab]
    exact ⟨⟨h.connectObservers, h.disconnectObservers, h.registry, h.greeting⟩,
      h.store.emitted tab status⟩
  · simp only [if_neg htab]
    exact h

theorem Carries.replay (h : Carries t b) (id : String) :
    Carries (t.step (.replay id)) (b.replay id) :=
  ⟨⟨h.connectObservers, h.disconnectObservers, h.registry, h.greeting⟩, h.store.replay id⟩

/-- **A connect is a change of the registry and a greeting.** -/
theorem Carries.connect (h : Carries t b) (id token url : String) :
    Carries (t.moves [.change (.connect id token url), .greet id]) (b.connect id token url).2 := by
  have hboard : (b.connect id token url).2 =
      ({ b with registry := some (t.registry.connect id token url).1 }.measure
        (·.connected (t.registry.connect id token url).1.size)).replay id := by
    simp [Board.connect, h.registry, Board.measure, h.connectObservers, notify, Board.tell]
  have hmoves : t.moves [.change (.connect id token url), .greet id] =
      { t with registry := (t.registry.connect id token url).1 }.queue (t.store.replay id) := by
    simp [Traffic.moves, Traffic.step, Traffic.newcomers, h.greeting, Registry.apply,
      Traffic.queue]
  rw [hboard, hmoves]
  exact ⟨⟨h.connectObservers, h.disconnectObservers, rfl, h.greeting⟩, h.store.replay id⟩

theorem Carries.disconnect (h : Carries t b) (token : String) :
    Carries (t.step (.change (.disconnect token))) (b.disconnect token) := by
  have hmove : t.step (.change (.disconnect token)) =
      { t with registry := (t.registry.disconnect token).1 } := by
    simp [Traffic.step, Traffic.newcomers, Registry.apply]
  have hboard : (b.disconnect token).registry = some (t.registry.disconnect token).1 ∧
      (b.disconnect token).store = b.store ∧
      (b.disconnect token).connectObservers = b.connectObservers ∧
      (b.disconnect token).disconnectObservers = b.disconnectObservers := by
    simp only [Board.disconnect, Board.disconnectWithin, h.registry]
    rcases t.registry.disconnect token with ⟨r, _ | _ | id⟩
    · exact ⟨rfl, rfl, rfl, rfl⟩
    · exact ⟨rfl, rfl, rfl, rfl⟩
    · simp [Board.measure, h.disconnectObservers, notify]
  obtain ⟨hregistry, hstore, hconnect, hdisconnect⟩ := hboard
  rw [hmove]
  refine ⟨⟨hconnect.trans h.connectObservers, hdisconnect.trans h.disconnectObservers, hregistry,
    h.greeting⟩, ?_⟩
  rw [hstore]
  exact h.store

theorem Carries.bind (h : Carries t b) (id subject : String) :
    Carries (t.step (.change (.bind id subject))) (b.bind id subject) := by
  have hmove : t.step (.change (.bind id subject)) =
      { t with registry := (t.registry.bind? id subject).getD t.registry } := by
    simp [Traffic.step, Traffic.newcomers, Registry.apply]
  have hbind : b.registry.bind (·.bind? id subject) = t.registry.bind? id subject := by
    rw [h.registry]
    rfl
  rw [hmove]
  unfold Board.bind
  rw [hbind]
  cases t.registry.bind? id subject with
  | none => exact ⟨⟨h.connectObservers, h.disconnectObservers, h.registry, h.greeting⟩, h.store⟩
  | some r => exact ⟨⟨h.connectObservers, h.disconnectObservers, rfl, h.greeting⟩, h.store⟩

theorem Carries.subscribe (h : Carries t b) {id : String} {tab : Nat}
    (hsubscribe : b.subscribe id tab = .ok b') : Carries t b' := by
  unfold Board.subscribe Store.subscribe at hsubscribe
  cases hstatus : b.store.statuses[tab]? with
  | none =>
    rw [hstatus] at hsubscribe
    cases hsubscribe
  | some status =>
    rw [hstatus] at hsubscribe
    cases hsubscribe
    exact h.same rfl rfl rfl ⟨rfl, rfl, rfl⟩

theorem Carries.occupy (h : Carries t b) {tab : Nat} {key : DeploymentKey}
    (hoccupied : b.occupy tab key = .ok b') : Carries t b' := by
  unfold Board.occupy at hoccupied
  split_ifs at hoccupied
  cases hoccupied
  exact h.same rfl rfl rfl (.refl _)

theorem Carries.finishRestart (h : Carries t b) (tab : Nat) (key : DeploymentKey) (status : Status)
    (label : String) :
    Carries (t.step (.emit tab status)) (b.finishRestart tab key status label) :=
  (h.emit tab status).same rfl rfl rfl (.refl _)

/-! ## Simulations that a schedule leads to -/

/-- The dispatcher has no part in the move. -/
def Outside : Move → Prop
  | .emit _ _ | .change _ | .replay _ | .greet _ => True
  | .take | .aim _ | .call _ | .settle => False

theorem step_outside (t : Traffic) {m : Move} (hm : Outside m) :
    (t.step m).sends = t.sends ∧ (t.step m).dispatcher = t.dispatcher := by
  cases m with
  | emit tab status =>
    simp only [Traffic.step]
    split <;> exact ⟨rfl, rfl⟩
  | change c => exact ⟨rfl, rfl⟩
  | replay id => exact ⟨rfl, rfl⟩
  | greet id =>
    simp only [Traffic.step]
    split_ifs <;> exact ⟨rfl, rfl⟩
  | take | aim | call | settle => exact hm.elim

/-- Without the dispatcher nothing is sent. -/
theorem moves_outside (t : Traffic) {ms : List Move} (hms : ∀ m ∈ ms, Outside m) :
    (t.moves ms).sends = t.sends ∧ (t.moves ms).dispatcher = t.dispatcher := by
  induction ms generalizing t with
  | nil => exact ⟨rfl, rfl⟩
  | cons m ms ih =>
    rw [List.forall_mem_cons] at hms
    obtain ⟨hsends, hdispatcher⟩ := step_outside t hms.1
    obtain ⟨hsends', hdispatcher'⟩ := ih (t.step m) hms.2
    exact ⟨hsends'.trans hsends, hdispatcher'.trans hdispatcher⟩

/-- Some schedule leads to what the simulation shows. -/
def Scheduled (tabs : Nat) (s : Simulation) : Prop := ∃ ms, Shows (Traffic.run tabs ms) s

/-- More moves may follow. -/
theorem Scheduled.then (h : Scheduled tabs s)
    (hmoves : ∀ t, Shows t s → ∃ ms, Shows (t.moves ms) s') : Scheduled tabs s' := by
  obtain ⟨ms, hshows⟩ := h
  obtain ⟨ms', hshows'⟩ := hmoves _ hshows
  rw [Traffic.run, ← moves_append] at hshows'
  exact ⟨ms ++ ms', hshows'⟩

/-- **Another board takes its place**, if moves of others than the dispatcher lead to it. -/
theorem Scheduled.withBoard (h : Scheduled tabs s) (ms : List Move) (hothers : ∀ m ∈ ms, Outside m)
    (hcarries : ∀ t, Carries t s.board → Carries (t.moves ms) b) :
    Scheduled tabs (s.withBoard b) := by
  refine h.then fun t ht => ⟨ms, ?_⟩
  obtain ⟨hsends, hdispatcher⟩ := moves_outside t hothers
  exact ht.withBoard (hcarries t ht.board) hsends hdispatcher

/-- What is not shown may change. -/
theorem Scheduled.of_same (h : Scheduled tabs s) (hboard : s'.board = s.board)
    (hposting : s'.posting = s.posting) (hlog : sendsOf s'.log = sendsOf s.log)
    (hsending : s'.dispatcher.sending = s.dispatcher.sending) : Scheduled tabs s' := by
  refine h.then fun t ht => ⟨[], hposting.trans ht.posting, ?_, hlog.trans ht.sends, ?_⟩
  · rw [hboard]
    exact ht.board
  · rw [hsending]
    exact ht.dispatcher

theorem Scheduled.note (h : Scheduled tabs s) {e : Entry} (he : e.send? = none) :
    Scheduled tabs (s.note e) := by
  refine h.of_same rfl rfl ?_ rfl
  rw [sendsOf_note, he]
  exact List.append_nil _

/-- At the start nothing has moved. -/
theorem scheduled_start (catalog : Catalog) {settings : Settings}
    (hgateway : settings.transport = .gateway) (limit : Duration) :
    Scheduled catalog.size
      { board := .ofCatalog catalog settings, posting := .dispatched, limit } := by
  have hboard : Carries (Traffic.start catalog.size) (.ofCatalog catalog settings) := by
    simp only [Board.ofCatalog, hgateway]
    exact ⟨⟨rfl, rfl, rfl, rfl⟩, ⟨rfl, rfl, rfl⟩⟩
  exact ⟨[], rfl, hboard, rfl, trivial⟩

/-! ## Workers and the dispatcher -/

theorem Scheduled.dispatch (h : Scheduled tabs s) : Scheduled tabs s.dispatch :=
  h.then fun _ ht => ht.dispatch

theorem Scheduled.act (h : Scheduled tabs s) (tab : Nat) (key : DeploymentKey) (a : Restart.Act) :
    Scheduled tabs (s.act tab key a) := by
  cases a with
  | patch => exact h.note rfl
  | read => exact h.note rfl
  | watch remaining => exact h.note rfl
  | ask => exact h
  | stop => exact h.note rfl
  | publish o =>
    exact h.withBoard [.emit tab o.status] (by simp [Outside])
      fun _ ht => ht.finishRestart tab key o.status o.label

theorem Scheduled.perform (h : Scheduled tabs s) (tab : Nat) (key : DeploymentKey)
    (acts : List (Nat × Restart.Act)) : Scheduled tabs (s.perform tab key acts) := by
  induction acts generalizing s with
  | nil => exact h
  | cons act acts ih =>
    obtain ⟨time, a⟩ := act
    simp only [Simulation.perform]
    split_ifs
    · exact ih (h.act tab key a)
    · exact h.of_same rfl rfl rfl rfl

theorem Scheduled.takeScript (h : Scheduled tabs s) (key : DeploymentKey) :
    Scheduled tabs (s.takeScript key).2 := by
  unfold Simulation.takeScript
  split
  · exact h.of_same rfl rfl rfl rfl
  · exact h

theorem Scheduled.work (h : Scheduled tabs s) (w : Worker) : Scheduled tabs (s.work w) := by
  have hidle : Scheduled tabs { s with workers := s.workers.filter (· ≠ w) } :=
    h.of_same rfl rfl rfl rfl
  unfold Simulation.work
  cases w.acts with
  | some acts => exact hidle.perform w.tab w.key acts
  | none => exact (hidle.takeScript w.key).perform w.tab w.key _

/-! ## Time -/

theorem Scheduled.at (h : Scheduled tabs s) (clock : Nat) : Scheduled tabs { s with clock } :=
  h.of_same rfl rfl rfl rfl

/-- **An agent's turn is some moves.** -/
theorem Scheduled.advanceOne (h : Scheduled tabs s) {limit : Turn}
    (hturn : s.advanceOne limit = some s') : Scheduled tabs s' := by
  unfold Simulation.advanceOne at hturn
  split at hturn
  · split_ifs at hturn
    · cases hturn
      exact (h.at _).dispatch
    · cases hturn
      exact (h.at _).work _
  · split_ifs at hturn
    cases hturn
    exact (h.at _).work _
  · split_ifs at hturn
    cases hturn
    exact (h.at _).dispatch
  · cases hturn

/-- **However long agents act, it is some moves.** -/
theorem Scheduled.runWhile (h : Scheduled tabs s) (goOn : Simulation → Bool) (limit : Turn)
    (turns : Nat) : Scheduled tabs (runWhile goOn limit turns s) := by
  induction turns generalizing s with
  | zero => exact h
  | succ turns ih =>
    simp only [Simulation.runWhile]
    split_ifs
    · cases hturn : s.advanceOne limit with
      | none => exact h
      | some s' => exact ih (h.advanceOne hturn)
    · exact h

theorem Scheduled.runUntil (h : Scheduled tabs s) (limit : Turn) :
    Scheduled tabs (s.runUntil limit) := h.runWhile _ limit _

theorem Scheduled.settle (h : Scheduled tabs s) : Scheduled tabs s.settle := h.runUntil _

theorem Scheduled.advance (h : Scheduled tabs s) (millis : Nat) :
    Scheduled tabs (s.advance millis) := (h.runUntil _).at _

theorem Scheduled.waitIdle (h : Scheduled tabs s) (limit : Turn) (turns : Nat)
    (w : Restart.Bell.Waiter) : Scheduled tabs (waitIdle limit turns w s).2 := by
  induction turns generalizing w s with
  | zero => cases w <;> exact h
  | succ turns ih =>
    cases w with
    | done => exact h
    | parked l =>
      simp only [Simulation.waitIdle]
      cases hturn : s.advanceOne limit with
      | none => exact h
      | some s' => exact ih (h.advanceOne hturn) _

theorem Scheduled.drain (h : Scheduled tabs s) (millis : Nat) :
    Scheduled tabs (s.drain millis).2 := by
  have hwait := h.waitIdle (endOf (s.clock + millis)) s.turnsLeft s.board.await
  unfold Simulation.drain
  dsimp only
  split <;> rename_i heq <;> rw [heq] at hwait
  · exact hwait
  · exact hwait.at _

theorem Scheduled.wait (h : Scheduled tabs s) (millis : Nat) : Scheduled tabs (s.wait millis) := by
  have hturn : Scheduled tabs (s.takeTurn (s.clock + millis)).2 := h.of_same rfl rfl rfl rfl
  unfold Simulation.wait
  split_ifs
  · exact h
  · exact (hturn.runUntil _).at _

/-! ## Requests -/

theorem Scheduled.close (h : Scheduled tabs s) (token : String) : Scheduled tabs (s.close token) :=
  Scheduled.wait (h.note rfl) _

theorem Scheduled.connect (h : Scheduled tabs s) (id token url : String) :
    Scheduled tabs (s.connect id token url) := by
  have hconnected : Scheduled tabs (s.withBoard (s.board.connect id token url).2) :=
    h.withBoard [.change (.connect id token url), .greet id] (by simp [Outside])
      fun _ ht => ht.connect id token url
  unfold Simulation.connect
  generalize s.board.connect id token url = answer at hconnected
  obtain ⟨_ | replaced, b⟩ := answer
  · exact hconnected
  · exact hconnected.close replaced

theorem Scheduled.disconnect (h : Scheduled tabs s) (token : String) :
    Scheduled tabs (s.disconnect token) :=
  h.withBoard [.change (.disconnect token)] (by simp [Outside]) fun _ ht => ht.disconnect token

theorem Scheduled.bind (h : Scheduled tabs s) (id subject : String) :
    Scheduled tabs (s.bind id subject) :=
  h.withBoard [.change (.bind id subject)] (by simp [Outside]) fun _ ht => ht.bind id subject

theorem Scheduled.replay (h : Scheduled tabs s) (id : String) : Scheduled tabs (s.replay id) :=
  h.withBoard [.replay id] (by simp [Outside]) fun _ ht => ht.replay id

theorem Scheduled.emit (h : Scheduled tabs s) {tab : Nat} {status : Status}
    (hemit : s.emit tab status = .ok s') : Scheduled tabs s' := by
  unfold Simulation.emit at hemit
  cases hboard : s.board.emit tab status with
  | error e =>
    rw [hboard] at hemit
    cases hemit
  | ok b =>
    rw [hboard] at hemit
    cases hemit
    refine h.withBoard [.emit tab status] (by simp [Outside]) ?_
    intro t ht
    have hcarries := ht.emit tab status
    rw [hboard] at hcarries
    exact hcarries

/-- **A request to restart is an emission**, or nothing if it is refused. -/
theorem Scheduled.requestRestart (h : Scheduled tabs s) (tab : Nat) (key : Option DeploymentKey) :
    Scheduled tabs (s.requestRestart tab key).2 := by
  have hboard : Scheduled tabs (s.withBoard (s.board.requestRestart tab key).2) := by
    cases key with
    | none => exact h.withBoard [] (by simp) fun _ ht => ht.same rfl rfl rfl (.refl _)
    | some key =>
      cases hoccupied : s.board.occupy tab key with
      | error e =>
        refine h.withBoard [] (by simp) ?_
        intro t ht
        simp only [Board.requestRestart, hoccupied]
        exact ht.measure _
      | ok occupied =>
        refine h.withBoard [.emit tab .restarting] (by simp [Outside]) ?_
        intro t ht
        have hcarries := (ht.occupy hoccupied).emit tab .restarting
        simp only [Board.requestRestart, hoccupied]
        cases hemitted : occupied.emit tab .restarting with
        | error e =>
          rw [hemitted] at hcarries
          exact hcarries.same rfl rfl rfl (.refl _)
        | ok emitted =>
          rw [hemitted] at hcarries
          exact hcarries.measure _
  unfold Simulation.requestRestart
  generalize s.board.requestRestart tab key = answer at hboard
  obtain ⟨answer, b⟩ := answer
  dsimp only
  split
  · exact hboard.of_same rfl rfl rfl rfl
  · exact hboard

/-- **Whatever is requested is some moves.** -/
theorem Scheduled.handle (h : Scheduled tabs s) (now : Moment) (id : String) (r : Http.Request) :
    Scheduled tabs (s.handle now id r).2.2 := by
  unfold Simulation.handle
  dsimp only
  cases s.board.action now r with
  | answer a => exact h
  | restart body => exact h.requestRestart body.tab body.key
  | openStream tab =>
    dsimp only
    cases hsubscribe : s.board.subscribe id tab with
    | error e => exact h
    | ok b => exact h.withBoard [] (by simp) fun _ ht => ht.subscribe hsubscribe
  | connect request token url subject =>
    cases subject with
    | none => exact h.connect request token url
    | some subject => exact (h.connect request token url).bind request subject
  | disconnect token => exact h.disconnect token

/-! ## What holds of every simulation -/

/-- **When nothing is under way, every connection was told the current statuses last.** -/
theorem Scheduled.converged (h : Scheduled tabs s) (houtbox : s.board.store.outbox = [])
    (hsending : s.dispatcher.sending = none) :
    ∃ told : List Traffic.Send,
      sendsOf s.log = (told.map fun x => (x.token, x.event, x.outcome)) ∧
      ∀ token id tab, s.board.registry.bind (·.tokens.get? token) = some id → tab < tabs →
        ∃ x, (told.filter fun x => x.token = token ∧ x.job.update.tab = tab).getLast? = some x ∧
          s.board.store.current tab = .ok x.job.update.status := by
  obtain ⟨ms, hshows⟩ := h
  have hdispatcher := hshows.dispatcher
  rw [hsending] at hdispatcher
  have hquiet : (Traffic.run tabs ms).Quiet :=
    ⟨hshows.board.store.outbox.symm.trans houtbox, hdispatcher.idle, hshows.board.greeting⟩
  refine ⟨(Traffic.run tabs ms).sends, hshows.sends, ?_⟩
  intro token id tab hid htab
  rw [hshows.board.registry] at hid
  have hregistered : (Traffic.run tabs ms).Registered token :=
    Option.isSome_iff_exists.2 ⟨id, hid⟩
  obtain ⟨x, hlast, hcurrent⟩ := (Traffic.sound_run tabs ms).converged hquiet hregistered htab
  refine ⟨x, hlast, ?_⟩
  unfold Store.current Store.size at hcurrent ⊢
  rw [hshows.board.store.statuses]
  exact hcurrent

end TabBoard.Simulation
