import TabBoard.Simulation.Calls
import TabBoard.Proofs.Delivery.Traffic
import TabBoard.Proofs.Store

/-!
# The dispatcher of a simulation

A simulation decides by the clock what happens next, and its dispatcher carries out several moves at
once: it calls the gateway for one connection after the other until an answer takes its time.
`Shows` relates a simulation to the moves made so far: alike stores, the same registry, the same
calls to the gateway, and a dispatcher that waits for the same answer.

**Theorem (`Shows.dispatch`).** Whatever the dispatcher does when its turn comes, there are moves
that lead to what it shows.
-/

namespace TabBoard.Simulation

open Traffic (Job Move)

/-! ## What a simulation shows -/

/-- The event that was sent, with its token and what became of it. -/
def Entry.send? : Entry → Option (String × OutboundEvent × SendOutcome)
  | .send token event outcome => some (token, event, outcome)
  | _ => none

def sendsOf (log : List (Nat × Entry)) : List (String × OutboundEvent × SendOutcome) :=
  log.filterMap (·.2.send?)

/-- The dispatcher waits for the same answer. -/
def Agrees : Traffic.Dispatcher → Option Sending → Prop
  | .idle, none => True
  | .answered job target outcome rest, some d => d = ⟨.ofUpdate job.update, target, outcome, rest⟩
  | _, _ => False

/-- The board has the registry, and every connection is greeted. -/
structure Wired (t : Traffic) (b : Board) : Prop where
  connectObservers : b.connectObservers = [.replay]
  disconnectObservers : b.disconnectObservers = []
  registry : b.registry = some t.registry
  greeting : t.greeting = []

/-- The board has the registry and a store that posts alike. -/
structure Carries (t : Traffic) (b : Board) : Prop extends Wired t b where
  store : b.store.Alike t.store

/-- The board is wired, and what was sent is the same. -/
structure Attached (t : Traffic) (s : Simulation) : Prop where
  posting : s.posting = .dispatched
  board : Wired t s.board
  sends : sendsOf s.log = t.sends.map fun x => (x.token, x.event, x.outcome)

/-- The simulation shows what the moves led to. -/
structure Shows (t : Traffic) (s : Simulation) : Prop where
  posting : s.posting = .dispatched
  board : Carries t s.board
  sends : sendsOf s.log = t.sends.map fun x => (x.token, x.event, x.outcome)
  dispatcher : Agrees t.dispatcher s.dispatcher.sending

variable {t t' : Traffic} {s : Simulation} {b : Board}

/-! ## Changing the board -/

theorem sendsOf_note (s : Simulation) (e : Entry) :
    sendsOf (s.note e).log = sendsOf s.log ++ e.send?.toList := by
  cases h : e.send? <;> simp [sendsOf, note, List.filterMap_append, h]

theorem foldl_note_eq {α : Type} (entry : α → Entry) (xs : List α) (s : Simulation) :
    xs.foldl (fun s x => s.note (entry x)) s =
      { s with log := s.log ++ xs.map fun x => (s.clock, entry x) } := by
  induction xs generalizing s with
  | nil => simp
  | cons x xs ih =>
    rw [List.foldl_cons, ih]
    simp [note]

theorem foldl_note (seen : List Sighting) (s : Simulation) :
    seen.foldl (fun s e => s.note (.sighting e)) s =
      { s with log := s.log ++ seen.map fun e => (s.clock, .sighting e) } :=
  foldl_note_eq .sighting seen s

theorem sendsOf_sightings (log : List (Nat × Entry)) (clock : Nat) (seen : List Sighting) :
    sendsOf (log ++ seen.map fun e => (clock, .sighting e)) = sendsOf log := by
  simp [sendsOf, List.filterMap_append, List.filterMap_map, Entry.send?]

/-- Another board only takes its place, once its sightings are logged. -/
theorem withBoard_of_dispatched (s : Simulation) (b : Board) (h : s.posting = .dispatched) :
    (s.withBoard b).board = { b with sightings := [] } ∧
      (s.withBoard b).posting = .dispatched ∧
      sendsOf (s.withBoard b).log = sendsOf s.log ∧
      (s.withBoard b).dispatcher.sending = s.dispatcher.sending := by
  have hlog := sendsOf_sightings s.log s.clock b.sightings
  simp only [withBoard, noteSightings, foldl_note, forward, h]
  split_ifs
  · exact ⟨rfl, rfl, hlog, rfl⟩
  · exact ⟨rfl, rfl, hlog, rfl⟩

theorem Attached.withBoard (h : Attached t s) (hboard : Wired t' b)
    (hsends : t'.sends = t.sends) : Attached t' (s.withBoard b) := by
  obtain ⟨heq, hposting, hlog, -⟩ := withBoard_of_dispatched s b h.posting
  refine ⟨hposting, ?_, ?_⟩
  · rw [heq]
    exact ⟨hboard.connectObservers, hboard.disconnectObservers, hboard.registry, hboard.greeting⟩
  · rw [hlog, hsends]
    exact h.sends

theorem Shows.attached (h : Shows t s) : Attached t s := ⟨h.posting, h.board.toWired, h.sends⟩

/-- **A simulation shows the moves that its new board carries.** -/
theorem Shows.withBoard (h : Shows t s) (hboard : Carries t' b) (hsends : t'.sends = t.sends)
    (hdispatcher : t'.dispatcher = t.dispatcher) : Shows t' (s.withBoard b) := by
  obtain ⟨heq, -, -, hsending⟩ := withBoard_of_dispatched s b h.posting
  have hattached := h.attached.withBoard hboard.toWired hsends
  refine ⟨hattached.posting, ⟨hattached.board, ?_⟩, hattached.sends, ?_⟩
  · rw [heq]
    exact hboard.store
  · rw [hdispatcher, hsending]
    exact h.dispatcher

/-! ## The gateway -/

/-- A call that was answered, and what the board makes of the answer. -/
theorem sent_eq (b : Board) {r : Registry} (hr : b.registry = some r) (target : String × String)
    (event : String) (outcome : SendOutcome) :
    (b.sent target.1 target.2 event outcome).registry = some (Traffic.answer r target outcome) ∧
      (b.sent target.1 target.2 event outcome).store = b.store ∧
      (b.sent target.1 target.2 event outcome).connectObservers = b.connectObservers ∧
      (b.sent target.1 target.2 event outcome).disconnectObservers = b.disconnectObservers := by
  cases outcome with
  | delivered | rejected | unreachable => exact ⟨hr, rfl, rfl, rfl⟩
  | notFound =>
    simp only [Board.sent, Board.measure, hr, Traffic.answer, Registry.apply]
    split_ifs with hcurrent
    · exact ⟨rfl, rfl, rfl, rfl⟩
    · rw [Registry.removeIfCurrent, if_neg hcurrent]
      exact ⟨rfl, rfl, rfl, rfl⟩

/-- The gateway is called for the next connection. -/
theorem Attached.call (h : Attached t s) {job : Job} {target : String × String}
    {rest : List (String × String)} (hcalling : t.dispatcher = .calling job target rest)
    (outcome : SendOutcome) :
    Attached (t.step (.call outcome)) (s.note (.send target.2 (.ofUpdate job.update) outcome)) ∧
      (t.step (.call outcome)).store = t.store ∧
      (t.step (.call outcome)).dispatcher = .answered job target outcome rest := by
  have hcalled : t.step (.call outcome) =
      { t with
        dispatcher := .answered job target outcome rest
        sends := t.sends ++ [⟨job, target.2, outcome⟩] } := by simp only [Traffic.step, hcalling]
  rw [hcalled]
  refine ⟨⟨h.posting, ⟨h.board.connectObservers, h.board.disconnectObservers, h.board.registry,
    h.board.greeting⟩, ?_⟩, rfl, rfl⟩
  rw [sendsOf_note, h.sends, List.map_append]
  rfl

/-- The answer of the gateway is worked in. -/
theorem Attached.settle (h : Attached t s) {job : Job} {target : String × String}
    {outcome : SendOutcome} {rest : List (String × String)}
    (hanswered : t.dispatcher = .answered job target outcome rest) (event : String) :
    Attached (t.step .settle) (s.withBoard (s.board.sent target.1 target.2 event outcome)) ∧
      (s.withBoard (s.board.sent target.1 target.2 event outcome)).board.store = s.board.store ∧
      (t.step .settle).store = t.store ∧
      (t.step .settle).dispatcher = .aimedAt job rest := by
  obtain ⟨hregistry, hstore, hconnect, hdisconnect⟩ :=
    sent_eq s.board h.board.registry target event outcome
  obtain ⟨hboard, -, -, -⟩ :=
    withBoard_of_dispatched s (s.board.sent target.1 target.2 event outcome) h.posting
  have hsettled : t.step .settle =
      { t with
        registry := Traffic.answer t.registry target outcome
        dispatcher := .aimedAt job rest } := by simp only [Traffic.step, hanswered]
  rw [hsettled]
  refine ⟨h.withBoard ⟨hconnect.trans h.board.connectObservers,
    hdisconnect.trans h.board.disconnectObservers, hregistry, h.board.greeting⟩ rfl, ?_, rfl, rfl⟩
  rw [hboard]
  exact hstore

/-- **Calling the gateway for some connections in turn is some moves**, and the stores stay as they
are. -/
theorem sendNow_moves {job : Job} {targets : List (String × String)} (h : Attached t s)
    (hdispatcher : t.dispatcher = .aimedAt job targets) :
    ∃ ms, Attached (t.moves ms) (s.sendNow (.ofUpdate job.update) targets).1 ∧
      (s.sendNow (.ofUpdate job.update) targets).1.board.store = s.board.store ∧
      (t.moves ms).store = t.store ∧
      Agrees (t.moves ms).dispatcher
        ((s.sendNow (.ofUpdate job.update) targets).2.map (·.1)) := by
  induction targets generalizing t s with
  | nil =>
    refine ⟨[], h, rfl, rfl, ?_⟩
    show Agrees t.dispatcher _
    rw [hdispatcher]
    trivial
  | cons target rest ih =>
    obtain ⟨hcalled, hstore₁, hanswered⟩ := h.call hdispatcher (s.answer target.2).outcome
    simp only [sendNow]
    split_ifs with hdelay
    · -- the answer is worked in at once
      obtain ⟨hsettled, hboard, hstore₂, haimed⟩ :=
        hcalled.settle hanswered (OutboundEvent.ofUpdate job.update).name
      obtain ⟨ms, hattached, hboard', hstore', hagrees⟩ := ih hsettled haimed
      exact ⟨.call _ :: .settle :: ms, hattached, hboard'.trans hboard,
        hstore'.trans (hstore₂.trans hstore₁), hagrees⟩
    · refine ⟨[.call _], hcalled, rfl, hstore₁, ?_⟩
      show Agrees (t.step (.call (s.answer target.2).outcome)).dispatcher _
      rw [hanswered]
      rfl

/-! ## The dispatcher -/

theorem moves_append (t : Traffic) (ms ms' : List Move) :
    t.moves (ms ++ ms') = (t.moves ms).moves ms' := List.foldl_append

theorem Agrees.idle {d : Traffic.Dispatcher} (h : Agrees d none) : d = .idle := by
  cases d with
  | idle => rfl
  | holding | calling | answered => exact h.elim

theorem Agrees.answered {d : Traffic.Dispatcher} {sending : Sending} (h : Agrees d (some sending)) :
    ∃ job, d = .answered job sending.current sending.outcome sending.rest ∧
      sending.event = .ofUpdate job.update := by
  cases d with
  | idle | holding | calling => exact h.elim
  | answered job target outcome rest =>
    cases h
    exact ⟨job, rfl, rfl⟩

/-- The dispatcher takes an item and looks whom it goes to. -/
theorem Attached.takeAndAim (h : Attached t s) {whom : Recipient} {u : Status.Update}
    {posted : List (Recipient × Status.Update)}
    (hstore : (s.board.store.withOutbox ((whom, u) :: posted)).Alike t.store)
    (hidle : t.dispatcher = .idle) :
    ∃ ms, Attached (t.moves ms) s ∧ (s.board.store.withOutbox posted).Alike (t.moves ms).store ∧
      (t.moves ms).dispatcher = .aimedAt ⟨t.taken, whom, u⟩ (s.board.targets whom none) := by
  have htargets : s.board.targets whom none = t.registry.targets whom none := by
    simp [Board.targets, h.board.registry]
  have houtbox : t.store.outbox = (whom, u) :: posted := hstore.outbox.symm
  have hmoves : t.moves [.take, .aim (t.registry.targets whom none)] =
      { t with
        store := t.store.withOutbox posted
        dispatcher := .aimedAt ⟨t.taken, whom, u⟩ (t.registry.targets whom none)
        taken := t.taken + 1
        aims := t.aims ++ [t.registry.targets whom none] } := by
    have hperm : (t.registry.targets whom none).isPerm (t.registry.targets whom none) = true :=
      List.isPerm_iff.2 (List.Perm.refl _)
    simp only [Traffic.moves, List.foldl_cons, List.foldl_nil, Traffic.step, hidle, houtbox,
      if_pos hperm, Store.withOutbox]
  refine ⟨[.take, .aim (t.registry.targets whom none)], ?_, ?_, ?_⟩
  · rw [hmoves]
    exact ⟨h.posting, ⟨h.board.connectObservers, h.board.disconnectObservers, h.board.registry,
      h.board.greeting⟩, h.sends⟩
  · rw [hmoves]
    exact ⟨hstore.statuses, hstore.external, rfl⟩
  · rw [hmoves, htargets]

theorem Attached.of_board (h : Attached t s) {s' : Simulation} (hposting : s'.posting = s.posting)
    (hconnect : s'.board.connectObservers = s.board.connectObservers)
    (hdisconnect : s'.board.disconnectObservers = s.board.disconnectObservers)
    (hregistry : s'.board.registry = s.board.registry) (hlog : s'.log = s.log) : Attached t s' :=
  ⟨hposting.trans h.posting, ⟨hconnect.trans h.board.connectObservers,
    hdisconnect.trans h.board.disconnectObservers, hregistry.trans h.board.registry,
    h.board.greeting⟩, (congrArg sendsOf hlog).trans h.sends⟩

theorem Attached.shows (h : Attached t s) (hstore : s.board.store.Alike t.store)
    (hdispatcher : Agrees t.dispatcher s.dispatcher.sending) : Shows t s :=
  ⟨h.posting, ⟨h.board, hstore⟩, h.sends, hdispatcher⟩

/-- **Sending what was posted is some moves.** -/
theorem dispatchPosted_moves {posted : List (Recipient × Status.Update)} (h : Attached t s)
    (hstore : (s.board.store.withOutbox posted).Alike t.store)
    (hempty : s.board.store.outbox = []) (hidle : t.dispatcher = .idle) :
    ∃ ms, Shows (t.moves ms) (s.dispatchPosted posted) := by
  induction posted generalizing t s with
  | nil =>
    have hattached : Attached t (s.dispatchPosted []) := h.of_board rfl rfl rfl rfl rfl
    refine ⟨[], hattached.shows
      ⟨hstore.statuses, hstore.external, hempty.trans hstore.outbox⟩ ?_⟩
    show Agrees t.dispatcher none
    rw [hidle]
    trivial
  | cons item posted ih =>
    obtain ⟨whom, u⟩ := item
    obtain ⟨ms₁, haimed, hstore₁, hdispatcher⟩ := h.takeAndAim hstore hidle
    obtain ⟨ms₂, hsent, hboard, hstore₂, hagrees⟩ := sendNow_moves haimed hdispatcher
    rw [← hstore₂, ← hboard] at hstore₁
    rw [← moves_append] at hsent hstore₁ hagrees
    simp only [dispatchPosted]
    generalize s.sendNow (.ofUpdate u) (s.board.targets whom none) = sent
      at hsent hboard hstore₁ hagrees
    obtain ⟨s', _ | ⟨sending, due⟩⟩ := sent
    · -- the gateway answered for everyone
      obtain ⟨ms₃, hshows⟩ := ih hsent hstore₁ ((congrArg Store.outbox hboard).trans hempty)
        (Agrees.idle hagrees)
      rw [← moves_append] at hshows
      exact ⟨_, hshows⟩
    · -- the rest is put back, until the gateway answers
      refine ⟨_, Attached.shows (hsent.of_board rfl rfl rfl rfl rfl) hstore₁ hagrees⟩

/-- **Whatever the dispatcher does is some moves.** -/
theorem Shows.dispatch (h : Shows t s) : ∃ ms, Shows (t.moves ms) s.dispatch := by
  have hagrees := h.dispatcher
  simp only [Simulation.dispatch]
  cases hsending : s.dispatcher.sending with
  | none =>
    rw [hsending] at hagrees
    have hattached : Attached t s.takePosted.2 := h.attached.of_board rfl rfl rfl rfl rfl
    exact dispatchPosted_moves hattached h.board.store rfl (Agrees.idle hagrees)
  | some d =>
    rw [hsending] at hagrees
    obtain ⟨job, hanswered, hevent⟩ := Agrees.answered hagrees
    -- the answer is worked in, and the gateway called for the others
    obtain ⟨hsettled, hboard, hstore₁, haimed⟩ := h.attached.settle hanswered d.event.name
    obtain ⟨ms, hsent, hboard₂, hstore₂, hagrees₂⟩ := sendNow_moves hsettled haimed
    have hstore := h.board.store
    rw [← hstore₁, ← hstore₂, ← hboard, ← hboard₂] at hstore
    dsimp only
    rw [← hevent] at hsent hstore hagrees₂
    generalize Simulation.sendNow _ d.event d.rest = sent at hsent hstore hagrees₂
    obtain ⟨s', _ | ⟨sending, due⟩⟩ := sent
    · -- and then for what was posted meanwhile
      have hattached : Attached ((t.step .settle).moves ms) s'.takePosted.2 :=
        hsent.of_board rfl rfl rfl rfl rfl
      obtain ⟨ms', hshows⟩ := dispatchPosted_moves hattached hstore rfl (Agrees.idle hagrees₂)
      rw [← moves_append] at hshows
      exact ⟨.settle :: (ms ++ ms'), hshows⟩
    · refine ⟨.settle :: ms, Attached.shows (hsent.of_board rfl rfl rfl rfl rfl) hstore hagrees₂⟩

end TabBoard.Simulation
