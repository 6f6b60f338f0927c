import TabBoard.Proofs.Delivery.Dispatch
import Mathlib.Data.List.Induction

/-!
# Deliveries while the registry changes

A delivery picks the connections that it is for and then calls the gateway for one after the other.
What the gateway answers is worked in before the next call. Between any two of these steps others
may do to the registry whatever they like: connections come, go and are replaced, subjects are
bound, other deliveries forget connections.

**Theorem (`run_once`).** The gateway is called exactly once for each connection that was picked,
whatever it answers, and the delivery succeeds exactly if one of these calls does (`Once`). The only
thing that it does to the registry is to forget a connection that the gateway does not know, if the
request id still has the token that was called. A connection that came under the request id in the
meantime has another token and stays as it is.

**Theorem (`send_moves`).** Sending an event in a simulation is such a delivery, where the others
are the workers and the dispatcher who act while the gateway takes its time.
-/

namespace TabBoard

namespace Registry

variable {r : Registry} {id token : String} {whom : Recipient} {subject : Option String}

/-! ## Who is picked -/

/-- A delivery is for a connection: for that of one request id, or for all of the given subject and
of everyone. -/
def IsFor (whom : Recipient) (subject : Option String) (id : String) (c : Connection) : Prop :=
  match whom with
  | .one id' => id' = id
  | .all => ∀ s, subject = some s → c.subject = some s ∨ c.subject = some localUser

theorem matchesSubject_iff {c : Connection} :
    matchesSubject subject c = true ↔
      ∀ s, subject = some s → c.subject = some s ∨ c.subject = some localUser := by
  unfold matchesSubject
  cases subject with
  | none => simp
  | some s =>
    cases c.subject <;> simp

/-- **Who is picked is whom the delivery is for.** -/
theorem mem_targets_iff (h : r.connections.Distinct) :
    (id, token) ∈ r.targets whom subject ↔
      ∃ c, r.connections.get? id = some c ∧ c.token = token ∧ IsFor whom subject id c := by
  cases whom with
  | one id' =>
    simp only [targets, IsFor, Option.mem_toList, Option.map_eq_some_iff, Prod.mk.injEq]
    constructor
    · rintro ⟨c, hc, rfl, rfl⟩
      exact ⟨c, hc, rfl, rfl⟩
    · rintro ⟨c, hc, rfl, rfl⟩
      exact ⟨c, hc, rfl, rfl⟩
  | all =>
    simp only [targets, IsFor, List.mem_map, List.mem_filter, matchesSubject_iff, Prod.mk.injEq,
      Prod.exists, h.mem_entries]
    constructor
    · rintro ⟨id', c, ⟨hc, hsubject⟩, rfl, rfl⟩
      exact ⟨c, hc, rfl, hsubject⟩
    · rintro ⟨c, hc, rfl, hsubject⟩
      exact ⟨id, c, ⟨hc, hsubject⟩, rfl, rfl⟩

theorem nodup_ids_targets (h : r.connections.Distinct) (whom : Recipient)
    (subject : Option String) : ((r.targets whom subject).map (·.1)).Nodup := by
  cases whom with
  | one id => cases hc : r.connections.get? id <;> simp [targets, hc]
  | all =>
    have hids : (r.targets .all subject).map (·.1) =
        (r.connections.entries.filter fun e => matchesSubject subject e.2).map (·.1) := by
      simp [targets, Function.comp_def]
    rw [hids]
    exact h.sublist (List.filter_sublist.map _)

end Registry

namespace Broadcast

/-- A call to the gateway for a connection, with its answer. -/
structure Call where
  target : String × String
  outcome : SendOutcome
  deriving Repr, DecidableEq

inductive Move where
  /-- Others leave the registry like this. -/
  | others (r : Registry)
  /-- The gateway is called for the next connection. -/
  | call (outcome : SendOutcome)
  /-- The answer of the gateway is worked in. -/
  | settle
  deriving Repr, DecidableEq

def Move.Own : Move → Prop
  | .others _ => False
  | .call _ | .settle => True

end Broadcast

/-- A delivery under way. Connections are given as request id and token. -/
structure Broadcast where
  registry : Registry
  /-- The connections for which the gateway is still to be called. -/
  left : List (String × String)
  /-- The call whose answer is not worked in yet. -/
  open? : Option Broadcast.Call := none
  /-- The calls whose answers are worked in. -/
  done : List Broadcast.Call := []
  /-- How many of them were successful. -/
  delivered : Nat := 0
  deriving Repr, DecidableEq

namespace Broadcast

/-- The connections were picked, and found in this order. -/
def start (r : Registry) (order : List (String × String)) : Broadcast where
  registry := r
  left := order

/-- What a move leads to. One that cannot be made changes nothing. -/
def step (s : Broadcast) : Move → Broadcast
  | .others r => { s with registry := r }
  | .call outcome =>
    match s.open?, s.left with
    | none, target :: left => { s with left, open? := some ⟨target, outcome⟩ }
    | _, _ => s
  | .settle =>
    match s.open? with
    | some call =>
      { s with
        registry := Traffic.answer s.registry call.target call.outcome
        open? := none
        done := s.done ++ [call]
        delivered := if call.outcome.isDelivered then s.delivered + 1 else s.delivered }
    | none => s

def moves (s : Broadcast) (ms : List Move) : Broadcast := ms.foldl step s

def calls (s : Broadcast) : List Call := s.done ++ s.open?.toList

/-- The gateway was called for everyone, and its answers are worked in. -/
def Over (s : Broadcast) : Prop := s.left = [] ∧ s.open? = none

def succeeded (s : Broadcast) : Bool := 0 < s.delivered

variable {s : Broadcast} {order : List (String × String)} {r : Registry} {ms : List Move} {m : Move}

theorem moves_append (s : Broadcast) (ms ms' : List Move) :
    s.moves (ms ++ ms') = (s.moves ms).moves ms' := List.foldl_append

/-! ## What was called -/

/-- What a delivery has done of what it has to do. -/
structure Sound (order : List (String × String)) (s : Broadcast) : Prop where
  calls : s.calls.map (·.target) ++ s.left = order
  delivered : s.delivered = s.done.countP (·.outcome.isDelivered)

theorem sound_start (r : Registry) (order : List (String × String)) : Sound order (start r order) :=
  ⟨rfl, rfl⟩

theorem Sound.step (h : Sound order s) (m : Move) : Sound order (s.step m) := by
  obtain ⟨registry, left, open?, done, delivered⟩ := s
  cases m with
  | others r => exact ⟨h.calls, h.delivered⟩
  | call outcome =>
    cases open? with
    | some call => exact h
    | none =>
      cases left with
      | nil => exact h
      | cons target left =>
        refine ⟨?_, h.delivered⟩
        rw [← h.calls]
        simp [Broadcast.step, Broadcast.calls]
  | settle =>
    cases open? with
    | none => exact h
    | some call =>
      refine ⟨?_, ?_⟩
      · rw [← h.calls]
        simp [Broadcast.step, Broadcast.calls]
      · have hdelivered := h.delivered
        simp only [Broadcast.step, List.countP_append, List.countP_singleton] at hdelivered ⊢
        split_ifs <;> omega

theorem sound_moves (r : Registry) (order : List (String × String)) (ms : List Move) :
    Sound order ((start r order).moves ms) := by
  induction ms using List.reverseRecOn with
  | nil => exact sound_start r order
  | append_singleton ms m ih =>
    rw [moves_append]
    exact ih.step m

theorem Sound.succeeded_iff (h : Sound order s) :
    s.succeeded = true ↔ ∃ call ∈ s.done, call.outcome = .delivered := by
  have hdelivered : ∀ o : SendOutcome, o.isDelivered = true ↔ o = .delivered := by
    intro o
    cases o <;> simp [SendOutcome.isDelivered]
  simp [succeeded, h.delivered, List.countP_pos_iff, hdelivered]

/-! ## A delivery comes to its end -/

theorem over_settle (h : s.left = []) : (s.step .settle).Over := by
  obtain ⟨registry, left, _ | call, done, delivered⟩ := s
  · exact ⟨h, rfl⟩
  · exact ⟨h, rfl⟩

theorem calls_settle (s : Broadcast) :
    (s.step .settle).calls = s.calls ∧ (s.step .settle).left = s.left ∧
      (s.step .settle).open? = none := by
  obtain ⟨registry, left, _ | call, done, delivered⟩ := s <;> simp [step, calls]

theorem calls_call {target : String × String} {left : List (String × String)}
    (hopen : s.open? = none) (hleft : s.left = target :: left) (outcome : SendOutcome) :
    (s.step (.call outcome)).calls = s.calls ++ [⟨target, outcome⟩] ∧
      (s.step (.call outcome)).left = left := by
  obtain ⟨registry, left', open?, done, delivered⟩ := s
  obtain rfl : open? = none := hopen
  obtain rfl : left' = target :: left := hleft
  simp [step, calls]

/-- **A delivery can always go on**, and calls the gateway for everyone who is left, whatever the
gateway answers. -/
theorem exists_rest (s : Broadcast) (outcome : String × String → SendOutcome) :
    ∃ ms, (∀ m ∈ ms, m.Own) ∧ (s.moves ms).Over ∧
      (s.moves ms).calls = s.calls ++ s.left.map fun target => ⟨target, outcome target⟩ := by
  generalize hleft : s.left = left
  induction left generalizing s with
  | nil =>
    refine ⟨[.settle], by simp [Move.Own], over_settle hleft, ?_⟩
    rw [List.map_nil, List.append_nil]
    exact (calls_settle s).1
  | cons target left ih =>
    -- the answer that is there is worked in, and the gateway called for the next one
    obtain ⟨hcalls, hleft', hopen⟩ := calls_settle s
    obtain ⟨hcalls', hleft''⟩ := calls_call hopen (hleft'.trans hleft) (outcome target)
    obtain ⟨ms, hown, hover, hrest⟩ := ih ((s.step .settle).step (.call (outcome target))) hleft''
    refine ⟨.settle :: .call (outcome target) :: ms, ?_, hover, ?_⟩
    · simpa [Move.Own] using hown
    · refine hrest.trans ?_
      rw [hcalls', hcalls, List.append_assoc]
      rfl

/-! ## What a delivery does to the registry -/

/-- **An answer only makes forget** a connection that the gateway does not know and that is
current. -/
theorem registry_answer (r : Registry) (target : String × String) (outcome : SendOutcome) :
    Traffic.answer r target outcome =
      if outcome = .notFound ∧ r.isCurrent target.1 target.2 = true then
        ⟨r.connections.erase target.1, r.tokens.erase target.2⟩
      else r := by
  cases outcome with
  | delivered | rejected | unreachable => simp [Traffic.answer]
  | notFound => simp [Traffic.answer, Registry.apply, Registry.removeIfCurrent]

/-- A move of the delivery leaves the registry, unless it works in such an answer. -/
theorem registry_step (hm : m.Own) :
    (s.step m).registry = s.registry ∨
      ∃ id token, m = .settle ∧ s.open? = some ⟨(id, token), .notFound⟩ ∧
        s.registry.isCurrent id token = true ∧
        (s.step m).registry =
          ⟨s.registry.connections.erase id, s.registry.tokens.erase token⟩ := by
  obtain ⟨registry, left, open?, done, delivered⟩ := s
  cases m with
  | others r => exact hm.elim
  | call outcome =>
    left
    cases open? <;> cases left <;> rfl
  | settle =>
    rcases open? with _ | ⟨⟨id, token⟩, outcome⟩
    · exact .inl rfl
    · have hanswer := registry_answer registry (id, token) outcome
      by_cases hlost : outcome = .notFound ∧ registry.isCurrent id token = true
      · rw [if_pos hlost] at hanswer
        obtain ⟨rfl, hcurrent⟩ := hlost
        exact .inr ⟨id, token, rfl, rfl, hcurrent, hanswer⟩
      · rw [if_neg hlost] at hanswer
        exact .inl hanswer

/-- **A connection stays as it is**, unless its own token was called and the gateway does not know
it. -/
theorem connections_step (hm : m.Own) {id : String} {c : Connection}
    (hc : s.registry.connections.get? id = some c) :
    (s.step m).registry.connections.get? id = some c ∨
      ((s.step m).registry.connections.get? id = none ∧ m = .settle ∧
        s.open? = some ⟨(id, c.token), .notFound⟩) := by
  rcases registry_step (s := s) hm with hsame | ⟨id', token, rfl, hopen, hcurrent, herased⟩
  · exact .inl (hsame ▸ hc)
  · rw [herased, Table.get?_erase]
    split_ifs with hid
    · subst hid
      obtain ⟨c', hc', rfl⟩ := Registry.isCurrent_iff.1 hcurrent
      obtain rfl := Option.some.inj (hc'.symm.trans hc)
      exact .inr ⟨rfl, rfl, hopen⟩
    · exact .inl hc

/-! ## Deliveries -/

/-- What holds of a delivery whenever one looks at it. -/
structure Once (r : Registry) (whom : Recipient) (subject : Option String)
    (order : List (String × String)) (s : Broadcast) : Prop where
  /-- Whoever the delivery is for was picked, with the token of that moment and once. -/
  picked : (∀ id token, (id, token) ∈ order ↔ ∃ c, r.connections.get? id = some c ∧
    c.token = token ∧ Registry.IsFor whom subject id c) ∧ (order.map (·.1)).Nodup
  /-- The gateway was called for some of them, for each once, and is still to be called for the
  others. -/
  calls : s.calls.map (·.target) ++ s.left = order
  /-- Whatever it answers, it will be called for all of them. -/
  goesOn : ∀ outcome : String × String → SendOutcome, ∃ ms, (∀ m ∈ ms, m.Own) ∧
    (s.moves ms).Over ∧
    (s.moves ms).calls = s.calls ++ s.left.map fun target => ⟨target, outcome target⟩
  /-- At the end the delivery succeeded exactly if a call did. -/
  succeeded : s.Over →
    (s.succeeded = true ↔ ∃ call ∈ s.calls, call.outcome = .delivered)
  /-- The delivery removes a connection only if it called the token that the connection has now and
  the gateway does not know it. -/
  removes : ∀ m, m.Own → ∀ id c, s.registry.connections.get? id = some c →
    (s.step m).registry.connections.get? id = some c ∨
      ((s.step m).registry.connections.get? id = none ∧ m = .settle ∧
        s.open? = some ⟨(id, c.token), .notFound⟩)
  /-- It changes nothing if the gateway answers anything else, or if the token is not current. -/
  leaves : ∀ m, m.Own →
    (∀ id token, s.open? = some ⟨(id, token), .notFound⟩ →
      s.registry.isCurrent id token = false) →
    (s.step m).registry = s.registry
  /-- It never brings a connection in, nor a token. -/
  brings : ∀ m, m.Own →
    (∀ id c, (s.step m).registry.connections.get? id = some c →
      s.registry.connections.get? id = some c) ∧
    ∀ token id, (s.step m).registry.tokens.get? token = some id →
      s.registry.tokens.get? token = some id
  /-- A connection that has another token than the one that was picked stays as it is. -/
  spares : ∀ m, m.Own → ∀ target ∈ order, ∀ c,
    s.registry.connections.get? target.1 = some c → c.token ≠ target.2 →
    (s.step m).registry.connections.get? target.1 = some c
  /-- The tokens stay the inverse of the connections. -/
  sound : ∀ m, m.Own → s.registry.Sound → (s.step m).registry.Sound

/-- **Every connection that was picked is called once**, whatever happens to the registry
meanwhile, and only lost ones are forgotten. -/
theorem run_once {r : Registry} (hr : r.connections.Distinct) (whom : Recipient)
    (subject : Option String) {order : List (String × String)}
    (horder : order.Perm (r.targets whom subject)) (ms : List Move) :
    Once r whom subject order ((start r order).moves ms) := by
  have hsound := sound_moves r order ms
  generalize (start r order).moves ms = s at hsound
  have hids : (order.map (·.1)).Nodup :=
    (horder.map _).nodup_iff.2 (Registry.nodup_ids_targets hr whom subject)
  refine ⟨⟨?picked, hids⟩, hsound.calls, exists_rest s, ?succeeded,
    fun m hm id c => connections_step hm, ?leaves, ?brings, ?spares, ?sound⟩
  case picked =>
    intro id token
    rw [horder.mem_iff]
    exact Registry.mem_targets_iff hr
  case succeeded =>
    intro hover
    rw [hsound.succeeded_iff, calls, hover.2]
    simp
  case leaves =>
    intro m hm hkept
    rcases registry_step (s := s) hm with hsame | ⟨id, token, rfl, hopen, hcurrent, -⟩
    · exact hsame
    · rw [hkept id token hopen] at hcurrent
      cases hcurrent
  case brings =>
    intro m hm
    rcases registry_step (s := s) hm with hsame | ⟨id, token, -, -, -, herased⟩
    · rw [hsame]
      exact ⟨fun _ _ => id, fun _ _ => id⟩
    · rw [herased]
      exact ⟨fun _ _ => Table.get?_of_erase, fun _ _ => Table.get?_of_erase⟩
  case spares =>
    intro m hm target htarget c hc hother
    rcases connections_step hm hc with hsame | ⟨-, -, hopen⟩
    · exact hsame
    · -- the call that is open is for a connection that was picked
      have hcalled : (target.1, c.token) ∈ order := by
        rw [← hsound.calls, calls, hopen]
        simp
      have hsame := List.inj_on_of_nodup_map hids htarget hcalled rfl
      exact absurd (congrArg Prod.snd hsame).symm hother
  case sound =>
    intro m hm hregistry
    rcases registry_step (s := s) hm with hsame | ⟨id, token, -, -, hcurrent, herased⟩
    · rwa [hsame]
    · have hremoved := hregistry.removeIfCurrent id token
      rwa [Registry.removeIfCurrent_of hcurrent, ← herased] at hremoved

/-- Three connections are picked. While the gateway is called for the first, which it does not know,
that client connects anew; the second accepts the event. The gateway does not know the third either,
which is still the current one of its client and is removed. -/
theorem run_once_replaced :
    let r := Registry.run [.connect "a" "ta" "/", .connect "b" "tb" "/", .connect "c" "td" "/"]
    let order := [("a", "ta"), ("b", "tb"), ("c", "td")]
    let s := (start r order).moves [.call .notFound, .others (r.connect "a" "tc" "/").1, .settle,
      .call .delivered, .settle, .call .notFound, .settle]
    Once r .all none order s ∧ s.Over ∧ s.succeeded = true ∧
      s.registry.connections.get? "a" = some { token := "tc", url := "/" } ∧
      r.connections.get? "c" = some { token := "td", url := "/" } ∧
      s.registry.connections.get? "c" = none := by
  intro r order s
  have horder : order.Perm (r.targets .all none) := by decide
  exact ⟨run_once (Registry.sound_run _).connections .all none horder _, ⟨rfl, rfl⟩, by decide,
    by decide, by decide, by decide⟩

/-! ## Deliveries of a simulation -/

/-- The connections of a board; without a gateway there are none. -/
def registryOf (b : Board) : Registry := b.registry.getD {}

theorem targets_eq (b : Board) (whom : Recipient) (subject : Option String) :
    b.targets whom subject = (registryOf b).targets whom subject := by
  unfold Board.targets registryOf
  cases b.registry with
  | none => cases whom <;> rfl
  | some r => rfl

/-- A board works in an answer as a delivery does. -/
theorem registryOf_sent (b : Board) (target : String × String) (event : String)
    (outcome : SendOutcome) :
    registryOf (b.sent target.1 target.2 event outcome) =
      Traffic.answer (registryOf b) target outcome := by
  unfold registryOf
  cases hr : b.registry with
  | none =>
    have hnone : (b.sent target.1 target.2 event outcome).registry = none := by
      cases outcome <;> simp [Board.sent, Board.measure, hr]
    rw [hnone]
    cases outcome <;> rfl
  | some r =>
    rw [(Simulation.sent_eq b hr target event outcome).1]
    rfl

theorem board_foldl_note {α : Type} (entry : α → Simulation.Entry) (xs : List α)
    (s : Simulation) : (xs.foldl (fun s x => s.note (entry x)) s).board = s.board := by
  rw [Simulation.foldl_note_eq]

/-- What a board left to do changes nothing of its connections. -/
theorem registryOf_withBoard (s : Simulation) (b : Board) :
    registryOf (s.withBoard b).board = registryOf b := by
  have hnoted : ({ s with board := b } : Simulation).noteSightings.board.registry =
      b.registry := by
    simp only [Simulation.noteSightings, board_foldl_note]
  unfold Simulation.withBoard
  generalize ({ s with board := b } : Simulation).noteSightings = s' at hnoted
  have hforward : s'.forward.board.registry = s'.board.registry := by
    unfold Simulation.forward
    split
    · rfl
    · simp only [board_foldl_note fun p : Recipient × Status.Update => .posted p.1 p.2]
      rfl
    · split_ifs <;> rfl
  unfold registryOf
  rw [hforward, hnoted]

/-- A simulation after the gateway was called for one connection and its answer worked in. -/
def sentOne (event : OutboundEvent) (target : String × String) (sim : Simulation) : Simulation :=
  let a := sim.answer target.2
  let waited := (sim.note (.send target.2 event a.outcome)).wait a.delay
  waited.withBoard (waited.board.sent target.1 target.2 event.name a.outcome)

/-- Others act while the gateway takes its time over a call. -/
theorem sentOne_moves (event : OutboundEvent) {target : String × String}
    {rest : List (String × String)} (sim : Simulation) (hleft : s.left = target :: rest)
    (hopen : s.open? = none) :
    ∃ ms, (s.moves ms).left = rest ∧ (s.moves ms).open? = none ∧
      (s.moves ms).registry = registryOf (sentOne event target sim).board ∧
      (s.moves ms).delivered =
        if (sim.answer target.2).outcome.isDelivered then s.delivered + 1 else s.delivered := by
  obtain ⟨registry, left, open?, done, delivered⟩ := s
  obtain rfl : left = target :: rest := hleft
  obtain rfl : open? = none := hopen
  let a := sim.answer target.2
  let waited := (sim.note (.send target.2 event a.outcome)).wait a.delay
  refine ⟨[.call a.outcome, .others (registryOf waited.board), .settle], rfl, rfl, ?_, rfl⟩
  rw [sentOne, registryOf_withBoard, registryOf_sent]
  rfl

/-- Calling the gateway for some connections in turn is some moves of a delivery. -/
theorem sendTo_moves (event : OutboundEvent) (targets : List (String × String)) (sim : Simulation)
    (hleft : s.left = targets) (hopen : s.open? = none)
    (hregistry : s.registry = registryOf sim.board) :
    ∃ ms, (s.moves ms).Over ∧
      (s.moves ms).registry = registryOf (Simulation.sendTo event targets sim).2.board ∧
      (s.moves ms).delivered = s.delivered + (Simulation.sendTo event targets sim).1 := by
  induction targets generalizing s sim with
  | nil => exact ⟨[], ⟨hleft, hopen⟩, hregistry, rfl⟩
  | cons target rest ih =>
    obtain ⟨one, hleft', hopen', hregistry', hdelivered'⟩ := sentOne_moves event sim hleft hopen
    obtain ⟨ms, hover, hregistry'', hdelivered⟩ := ih (sentOne event target sim) hleft' hopen'
      hregistry'
    rw [← moves_append] at hover hregistry'' hdelivered
    refine ⟨one ++ ms, hover, hregistry'', ?_⟩
    rw [hdelivered, hdelivered']
    show _ = s.delivered + if (sim.answer target.2).outcome.isDelivered then
      (Simulation.sendTo event rest (sentOne event target sim)).1 + 1
      else (Simulation.sendTo event rest (sentOne event target sim)).1
    split_ifs <;> omega

/-- **Sending an event is a delivery** to those who are connected at that moment. -/
theorem send_moves (sim : Simulation) (whom : Recipient) (subject : Option String)
    (event : OutboundEvent) :
    let r := registryOf sim.board
    ∃ ms, let s := (start r (r.targets whom subject)).moves ms
      s.Over ∧ s.registry = registryOf (sim.send whom subject event).2.board ∧
        s.succeeded = (sim.send whom subject event).1 := by
  intro r
  obtain ⟨ms, hover, hregistry, hdelivered⟩ := sendTo_moves event (r.targets whom subject) sim
    (s := start r (r.targets whom subject)) rfl rfl rfl
  rw [← targets_eq] at hover hregistry hdelivered ⊢
  refine ⟨ms, hover, hregistry, ?_⟩
  rw [succeeded, hdelivered, start, Nat.zero_add]
  rfl

end Broadcast

end TabBoard
