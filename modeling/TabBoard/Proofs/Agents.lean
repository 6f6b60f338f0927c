import TabBoard.Proofs.Delivery.Broadcast
import TabBoard.Proofs.Moves

/-!
# What happens while someone waits

While a request or a drain waits in virtual time, the workers of restarts and the dispatcher act.

**Theorem (`Works.advanceOne`, `Works.wait`).** All that they do to the board is moves of a few
kinds (`ByAgents`): outcomes are published, deployments are set free, what the gateway answered is
worked in (`Answers`), and what was posted or noted is taken. In particular nobody connects,
disconnects or binds, also while a connection is being registered (`works_connect`).

**Theorem (`drain_eq_true_iff`).** A drain ends with success exactly if nothing is under way in the
end: no ring of the bell is lost (`Attends.poll`).
-/

namespace TabBoard.Simulation

open Board (Move)

variable {s s' s'' : Simulation} {b : Board} {outcome : SendOutcome} {m : Move}

/-- The gateway answers this for some token, or has answered it for an event on its way. -/
def Answers (s : Simulation) (outcome : SendOutcome) : Prop :=
  (∃ token, (s.answer token).outcome = outcome) ∨
    ∃ d, s.dispatcher.sending = some d ∧ d.outcome = outcome

/-- A move of a worker or of the dispatcher. -/
def ByAgents (s : Simulation) : Move → Prop
  | .sent _ _ _ outcome => s.Answers outcome
  | .publish _ _ _ | .release _ | .taken _ | .noted => True
  | _ => False

/-- The board got from one simulation to the other by moves of agents, and the gateway answers as
before. -/
structure Works (s s' : Simulation) : Prop where
  board : ∃ ms, (∀ m ∈ ms, s.ByAgents m) ∧ s'.board = s.board.moves ms
  answers : s'.answers = s.answers
  sending : ∀ d, s'.dispatcher.sending = some d → s.Answers d.outcome

/-- Nothing was done to the board, and nothing is sent that was not. -/
theorem Works.of_same (hboard : s'.board = s.board) (hanswers : s'.answers = s.answers)
    (hdispatcher : s'.dispatcher = s.dispatcher) : Works s s' :=
  ⟨⟨[], by simp, hboard⟩, hanswers, fun d hd => .inr ⟨d, hdispatcher ▸ hd, rfl⟩⟩

theorem Works.of_move (hm : s.ByAgents m) (hboard : s'.board = s.board.step m)
    (hanswers : s'.answers = s.answers) (hdispatcher : s'.dispatcher = s.dispatcher) :
    Works s s' :=
  ⟨⟨[m], List.forall_mem_singleton.2 hm, hboard⟩, hanswers,
    fun d hd => .inr ⟨d, hdispatcher ▸ hd, rfl⟩⟩

theorem Works.refl (s : Simulation) : Works s s := .of_same rfl rfl rfl

/-- What the gateway answers later, it answers now. -/
theorem Works.answers_of (h : Works s s') (houtcome : s'.Answers outcome) :
    s.Answers outcome := by
  rcases houtcome with ⟨token, htoken⟩ | ⟨d, hd, rfl⟩
  · refine .inl ⟨token, ?_⟩
    rwa [Simulation.answer, ← h.answers]
  · exact h.sending d hd

theorem Works.byAgents_of (h : Works s s') (hm : s'.ByAgents m) : s.ByAgents m := by
  cases m with
  | sent id token event outcome => exact h.answers_of hm
  | _ => exact hm

theorem Works.trans (h : Works s s') (h' : Works s' s'') : Works s s'' := by
  obtain ⟨ms, hms, hboard⟩ := h.board
  obtain ⟨ms', hms', hboard'⟩ := h'.board
  refine ⟨⟨ms ++ ms', ?_, ?_⟩, h'.answers.trans h.answers,
    fun d hd => h.answers_of (h'.sending d hd)⟩
  · exact List.forall_mem_append.2 ⟨hms, fun m hm => h.byAgents_of (hms' m hm)⟩
  · rw [hboard', hboard, Board.moves_append]

/-- **What a board left to do is moves of agents.** -/
theorem works_withBoard (s : Simulation) (b : Board) :
    Works { s with board := b } (s.withBoard b) := by
  have hnoted : Works { s with board := b } ({ s with board := b } : Simulation).noteSightings := by
    simp only [noteSightings, foldl_note]
    exact .of_move (m := .noted) trivial rfl rfl rfl
  refine hnoted.trans ?_
  unfold withBoard
  generalize ({ s with board := b } : Simulation).noteSightings = s'
  unfold forward
  split
  · exact .refl s'
  · simp only [takePosted, foldl_note_eq fun p : Recipient × Status.Update => .posted p.1 p.2]
    exact .of_move (m := .taken []) trivial rfl rfl rfl
  · split_ifs
    · exact .refl s'
    · exact ⟨⟨[], by simp, rfl⟩, rfl, fun d hd => .inr ⟨d, hd, rfl⟩⟩

/-- **A move of agents changes the board**, and what it left to do is done. -/
theorem Works.withBoard (h : Works s s') (hm : s'.ByAgents m) :
    Works s (s'.withBoard (s'.board.step m)) := by
  have hmoved : Works s' { s' with board := s'.board.step m } := .of_move hm rfl rfl rfl
  exact (h.trans hmoved).trans (works_withBoard s' _)

/-! ## The dispatcher -/

/-- Whatever is on its way afterwards was answered by the gateway. -/
theorem works_sendNow (event : OutboundEvent) (targets : List (String × String))
    (s : Simulation) : Works s (s.sendNow event targets).1 ∧
      ∀ sending due, (s.sendNow event targets).2 = some (sending, due) →
        s.Answers sending.outcome := by
  induction targets generalizing s with
  | nil => exact ⟨.refl s, by simp [sendNow]⟩
  | cons target rest ih =>
    obtain ⟨id, token⟩ := target
    have hanswer : s.Answers (s.answer token).outcome := .inl ⟨token, rfl⟩
    have hnoted : Works s (s.note (.send token event (s.answer token).outcome)) :=
      .of_same rfl rfl rfl
    simp only [sendNow]
    split_ifs
    · have hworked := hnoted.withBoard (m := .sent id token event.name _) (.inl ⟨token, rfl⟩)
      obtain ⟨hrest, hsending⟩ := ih _
      exact ⟨hworked.trans hrest, fun sending due h => hworked.answers_of (hsending sending due h)⟩
    · refine ⟨hnoted, fun sending due h => ?_⟩
      cases h
      exact hanswer

theorem works_dispatchPosted (posted : List (Recipient × Status.Update)) (s : Simulation) :
    Works s (s.dispatchPosted posted) := by
  induction posted generalizing s with
  | nil => exact ⟨⟨[], by simp, rfl⟩, rfl, fun d hd => nomatch hd⟩
  | cons item posted ih =>
    obtain ⟨whom, u⟩ := item
    obtain ⟨hsent, hsending⟩ := works_sendNow (.ofUpdate u) (s.board.targets whom none) s
    simp only [dispatchPosted]
    generalize s.sendNow (.ofUpdate u) (s.board.targets whom none) = answer at hsent hsending
    obtain ⟨s', _ | ⟨sending, due⟩⟩ := answer
    · exact hsent.trans (ih s')
    · have htaken : Works s' { s' with board := s'.board.step (.taken posted) } :=
        .of_move (m := .taken posted) trivial rfl rfl rfl
      have hleft := hsent.trans htaken
      refine ⟨hleft.board, hleft.answers, fun d hd => ?_⟩
      cases hd
      exact hsending sending due rfl

theorem Works.dispatchPosted (h : Works s s') :
    Works s (s'.takePosted.2.dispatchPosted s'.takePosted.1) := by
  have htaken : Works s' s'.takePosted.2 := .of_move (m := .taken []) trivial rfl rfl rfl
  exact (h.trans htaken).trans (works_dispatchPosted _ _)

theorem works_dispatch (s : Simulation) : Works s s.dispatch := by
  unfold dispatch
  cases hsending : s.dispatcher.sending with
  | none => exact (Works.refl s).dispatchPosted
  | some d =>
    have hworked := (Works.refl s).withBoard
      (m := .sent d.current.1 d.current.2 d.event.name d.outcome) (.inr ⟨d, hsending, rfl⟩)
    obtain ⟨hsent, hanswers⟩ := works_sendNow d.event d.rest (s.withBoard
      (s.board.sent d.current.1 d.current.2 d.event.name d.outcome))
    have hboth := hworked.trans hsent
    dsimp only
    generalize sendNow _ d.event d.rest = answer at hboth hanswers ⊢
    obtain ⟨s', _ | ⟨sending, due⟩⟩ := answer
    · exact hboth.dispatchPosted
    · refine ⟨hboth.board, hboth.answers, fun d' hd => ?_⟩
      cases hd
      exact hworked.answers_of (hanswers sending due rfl)

/-! ## Workers -/

theorem works_act (s : Simulation) (tab : Nat) (key : DeploymentKey) (a : Restart.Act) :
    Works s (s.act tab key a) := by
  cases a with
  | publish o =>
    have hpublished : Works s { s with board := s.board.publishOutcome tab o.status o.label } :=
      .of_move (m := .publish tab o.status o.label) trivial rfl rfl rfl
    exact hpublished.withBoard (m := .release key) trivial
  | patch | read | watch | ask | stop => exact .of_same rfl rfl rfl

theorem works_perform (tab : Nat) (key : DeploymentKey) (acts : List (Nat × Restart.Act))
    (s : Simulation) : Works s (s.perform tab key acts) := by
  induction acts generalizing s with
  | nil => exact .refl s
  | cons act acts ih =>
    obtain ⟨time, a⟩ := act
    simp only [perform]
    split_ifs
    · exact (works_act s tab key a).trans (ih _)
    · exact .of_same rfl rfl rfl

theorem works_takeScript (s : Simulation) (key : DeploymentKey) : Works s (s.takeScript key).2 := by
  unfold takeScript
  split <;> exact .of_same rfl rfl rfl

theorem works_work (s : Simulation) (w : Worker) : Works s (s.work w) := by
  have hidle : Works s { s with workers := s.workers.filter (· ≠ w) } := .of_same rfl rfl rfl
  unfold work
  cases w.acts with
  | some acts => exact hidle.trans (works_perform w.tab w.key acts _)
  | none => exact (hidle.trans (works_takeScript _ w.key)).trans (works_perform w.tab w.key _ _)

/-! ## Time -/

/-- **An agent's turn is moves of agents.** -/
theorem Works.advanceOne {limit : Turn} (hturn : s.advanceOne limit = some s') : Works s s' := by
  have hat : ∀ clock, Works s { s with clock } := fun _ => .of_same rfl rfl rfl
  unfold Simulation.advanceOne at hturn
  split at hturn
  · split_ifs at hturn
    · cases hturn
      exact (hat _).trans (works_dispatch _)
    · cases hturn
      exact (hat _).trans (works_work _ _)
  · split_ifs at hturn
    cases hturn
    exact (hat _).trans (works_work _ _)
  · split_ifs at hturn
    cases hturn
    exact (hat _).trans (works_dispatch _)
  · cases hturn

theorem works_runWhile (goOn : Simulation → Bool) (limit : Turn) (turns : Nat) (s : Simulation) :
    Works s (runWhile goOn limit turns s) := by
  induction turns generalizing s with
  | zero => exact .refl s
  | succ turns ih =>
    simp only [runWhile]
    split_ifs
    · cases hturn : s.advanceOne limit with
      | none => exact .refl s
      | some s' => exact (Works.advanceOne hturn).trans (ih s')
    · exact .refl s

/-- **Waiting is moves of agents.** -/
theorem Works.wait (s : Simulation) (millis : Nat) : Works s (s.wait millis) := by
  have hturn : Works s (s.takeTurn (s.clock + millis)).2 := .of_same rfl rfl rfl
  unfold Simulation.wait
  split_ifs
  · exact .refl s
  · exact (hturn.trans (works_runWhile _ _ _ _)).trans (.of_same rfl rfl rfl)

/-! ## Connecting -/

theorem works_close (s : Simulation) (token : String) : Works s (s.close token) := by
  have hnoted : Works s (s.note (.close token (s.answer token).outcome)) := .of_same rfl rfl rfl
  exact hnoted.trans (Works.wait _ _)

/-- **A connect is a move, and agents act behind it** while the connection that was replaced is
closed. -/
theorem works_connect (s : Simulation) (id token url : String) :
    Works { s with board := s.board.step (.connect id token url) } (s.connect id token url) := by
  have hleft := works_withBoard s (s.board.connect id token url).2
  unfold Simulation.connect
  dsimp only
  cases (s.board.connect id token url).1 with
  | none => exact hleft
  | some replaced => exact hleft.trans (works_close _ replaced)

/-! ## Draining -/

/-- **Agents that set the last deployment free ring the bell.** -/
theorem Works.announces (h : Works s s') : Board.Announces s.board s'.board := by
  obtain ⟨ms, hms, hboard⟩ := h.board
  rw [hboard]
  refine Board.announces_moves s.board ?_
  rintro m hm key rfl
  exact hms _ hm

/-- Whoever is parked has something to wait for, and whoever is done has not. -/
def Attends (b : Board) : Restart.Bell.Waiter → Prop
  | .parked l => l.seen = b.bell.rung ∧ b.inFlight.size ≠ 0
  | .done => b.inFlight.size = 0

theorem attends_await (b : Board) : Attends b b.await := by
  unfold Board.await Restart.Bell.Listener.look
  split_ifs with hempty
  · exact hempty
  · exact ⟨rfl, hempty⟩

/-- **Whoever is parked hears the bell when they have nothing more to wait for.** -/
theorem Attends.poll {b' : Board} {l : Restart.Bell.Listener} (h : Attends b (.parked l))
    (hannounces : Board.Announces b b') : Attends b' (b'.poll (.parked l)) := by
  obtain ⟨hseen, hbusy⟩ := h
  have hrung := hannounces.rung
  unfold Board.poll
  dsimp only
  split_ifs with hheard
  · exact attends_await b'
  · simp only [Restart.Bell.Listener.heard, decide_eq_true_eq, Nat.not_lt] at hheard
    have hsame : b'.bell.rung = b.bell.rung := by omega
    exact ⟨hseen.trans hsame.symm, fun hempty => hbusy (hannounces.empty hsame hempty)⟩

theorem attends_waitIdle (limit : Turn) (turns : Nat) {w : Restart.Bell.Waiter}
    (h : Attends s.board w) :
    Attends (waitIdle limit turns w s).2.board (waitIdle limit turns w s).1 := by
  induction turns generalizing w s with
  | zero => cases w <;> exact h
  | succ turns ih =>
    cases w with
    | done => exact h
    | parked l =>
      simp only [waitIdle]
      cases hturn : s.advanceOne limit with
      | none => exact h
      | some s' => exact ih (h.poll (Works.advanceOne hturn).announces)

/-- **A drain ends with success exactly if nothing is under way in the end.** -/
theorem drain_eq_true_iff (s : Simulation) (millis : Nat) :
    (s.drain millis).1 = true ↔ (s.drain millis).2.board.inFlight.size = 0 := by
  have hattends := attends_waitIdle (endOf (s.clock + millis)) s.turnsLeft (attends_await s.board)
  unfold drain
  dsimp only
  split <;> rename_i heq <;> rw [heq] at hattends
  · exact iff_of_true rfl hattends
  · exact iff_of_false Bool.false_ne_true hattends.2

end TabBoard.Simulation
