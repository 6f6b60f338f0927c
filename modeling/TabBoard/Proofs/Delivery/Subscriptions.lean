import TabBoard.Proofs.Fanout
import Mathlib.Data.List.Induction

/-!
# Subscribers of a fan-out

Anyone may register with a fan-out, take out what waits for him, be removed, or throw his inbox away
without a word. Updates are delivered to all or to one id in between. No id is given out twice.

A fan-out is no more than its subscribers, each of them alone: what a move makes of one subscriber
depends on nothing but this subscriber (`Sight.step`, `sight_step`). What became of a subscriber is
therefore decided by the moves since it was registered (`sight_run`).
-/

namespace TabBoard

open Fanout (Subscriber concerns)

namespace Subscriptions

inductive Move where
  /-- A subscriber comes, and his inbox holds the given updates. -/
  | register (id : String) (tab : Nat) (queue : List Status.Update)
  | deliver (whom : Recipient) (u : Status.Update)
  | remove (id : String)
  /-- A subscriber throws his inbox away. -/
  | discard (id : String)
  /-- A subscriber takes out the first update that waits for him. -/
  | receive (id : String)
  deriving Repr, DecidableEq

end Subscriptions

/-- A fan-out and what happened to its subscribers. -/
structure Subscriptions where
  fanout : Fanout := {}
  /-- The registrations that were made. -/
  made : List Subscriber := []
  received : List (String × Status.Update) := []
  /-- What the removals answered. -/
  answers : List (String × Bool) := []
  deriving Repr, DecidableEq

namespace Subscriptions

/-- What a move leads to. An id that was given out is not given out again. -/
def step (s : Subscriptions) : Move → Subscriptions
  | .register id tab queue =>
    if id ∈ s.made.map (·.id) then s
    else { s with fanout := s.fanout.register id tab queue, made := s.made ++ [⟨id, tab⟩] }
  | .deliver whom u => { s with fanout := s.fanout.deliver whom u }
  | .remove id =>
    let (found, fanout) := s.fanout.remove id
    { s with fanout, answers := s.answers ++ [(id, found)] }
  | .discard id => { s with fanout := (s.fanout.dropInbox id).2 }
  | .receive id =>
    match s.fanout.take? id with
    | (some u, fanout) => { s with fanout, received := s.received ++ [(id, u)] }
    | (none, _) => s

def moves (s : Subscriptions) (ms : List Move) : Subscriptions := ms.foldl step s

def run (ms : List Move) : Subscriptions := moves {} ms

def receivedBy (s : Subscriptions) (id : String) : List Status.Update :=
  (s.received.filter (·.1 = id)).map (·.2)

/-- How often a removal found the id. -/
def removals (s : Subscriptions) (id : String) : Nat := s.answers.count (id, true)

/-- The id was not given out. -/
def New (id : String) (ms : List Move) : Prop := ∀ tab queue, .register id tab queue ∉ ms

variable {s : Subscriptions} {ms : List Move} {m : Move} {id id' : String} {x : Subscriber}

theorem run_concat (ms : List Move) (m : Move) : run (ms ++ [m]) = (run ms).step m :=
  List.foldl_append

theorem run_append (ms ms' : List Move) : run (ms ++ ms') = (run ms).moves ms' :=
  List.foldl_append

/-! ## What a move makes -/

theorem step_register (s : Subscriptions) (id : String) (tab : Nat) (queue : List Status.Update) :
    (id ∈ s.made.map (·.id) ∧ s.step (.register id tab queue) = s) ∨
      (id ∉ s.made.map (·.id) ∧ s.step (.register id tab queue) =
        { s with fanout := s.fanout.register id tab queue, made := s.made ++ [⟨id, tab⟩] }) := by
  by_cases hmade : id ∈ s.made.map (·.id)
  · exact .inl ⟨hmade, if_pos hmade⟩
  · exact .inr ⟨hmade, if_neg hmade⟩

/-- Something is taken out if there is an inbox with something in it. -/
theorem step_receive (s : Subscriptions) (id : String) :
    ((∀ u us, (s.fanout.inbox? id).map (·.queue) ≠ some (u :: us)) ∧ s.step (.receive id) = s) ∨
      ∃ u us, (s.fanout.inbox? id).map (·.queue) = some (u :: us) ∧ s.step (.receive id) =
        { s with fanout := s.fanout.withQueue id us, received := s.received ++ [(id, u)] } := by
  rcases s.fanout.take?_cases id with ⟨hempty, htake⟩ | ⟨u, us, hwaiting, htake⟩
  · refine .inl ⟨?_, by simp only [step, htake]⟩
    intro u us hinbox
    rw [Fanout.queued, hinbox] at hempty
    cases hempty
  · refine .inr ⟨u, us, ?_, by simp only [step, htake]⟩
    unfold Fanout.queued at hwaiting
    cases hinbox : (s.fanout.inbox? id).map (·.queue) with
    | none => simp [hinbox] at hwaiting
    | some queue => simpa [hinbox] using hwaiting

/-! ## One subscriber alone -/

/-- What there is of one subscriber. -/
@[ext]
structure Sight where
  registered : Bool
  /-- What waits in the inbox, as long as there is one. -/
  inbox : Option (List Status.Update)
  received : List Status.Update := []
  removals : Nat := 0
  deriving Repr, DecidableEq

/-- What a move makes of a subscriber. -/
def Sight.step (x : Subscriber) (v : Sight) : Move → Sight
  | .register _ _ _ => v
  | .deliver whom u =>
    if v.registered ∧ concerns whom u x then
      match v.inbox with
      | some queue => { v with inbox := some (queue ++ [u]) }
      | none => { v with registered := false }
    else v
  | .remove id =>
    if id = x.id then
      { v with registered := false, removals := v.removals + v.registered.toNat }
    else v
  | .discard id => if id = x.id then { v with inbox := none } else v
  | .receive id =>
    if id = x.id then
      match v.inbox with
      | some (u :: us) => { v with inbox := some us, received := v.received ++ [u] }
      | _ => v
    else v

/-- A subscriber that was registered before some moves. -/
def Sight.after (x : Subscriber) (queue : List Status.Update) (ms : List Move) : Sight :=
  ms.foldl (Sight.step x) { registered := true, inbox := some queue }

theorem Sight.after_concat (x : Subscriber) (queue : List Status.Update) (ms : List Move)
    (m : Move) : after x queue (ms ++ [m]) = (after x queue ms).step x m :=
  List.foldl_append

/-- What there is of a subscriber, in a fan-out of many. -/
def sight (s : Subscriptions) (id : String) : Sight where
  registered := s.fanout.isRegistered id
  inbox := (s.fanout.inbox? id).map (·.queue)
  received := s.receivedBy id
  removals := s.removals id

/-- What is known of an id is known of one that was given out, and once. -/
structure Sound (s : Subscriptions) : Prop where
  ids : (s.made.map (·.id)).Nodup
  subscribers : s.fanout.subscribers.Sublist s.made
  inboxes : ∀ id, s.fanout.hasInbox id = true → id ∈ s.made.map (·.id)
  received : ∀ p ∈ s.received, p.1 ∈ s.made.map (·.id)
  answers : ∀ id, (id, true) ∈ s.answers → id ∈ s.made.map (·.id)

theorem sound_empty : Sound {} where
  ids := List.nodup_nil
  subscribers := List.Sublist.refl []
  inboxes := by simp [Fanout.hasInbox]
  received := by simp
  answers := by simp

theorem Sound.isRegistered_iff (h : s.Sound) (hx : x ∈ s.made) :
    s.fanout.isRegistered x.id = true ↔ x ∈ s.fanout.subscribers := by
  rw [Fanout.isRegistered_iff, List.mem_map]
  constructor
  · rintro ⟨y, hy, hid⟩
    rwa [← List.inj_on_of_nodup_map h.ids (h.subscribers.subset hy) hx hid]
  · exact fun hmem => ⟨x, hmem, rfl⟩

theorem Sound.mem_made_of_isRegistered (h : s.Sound) (hid : s.fanout.isRegistered id = true) :
    id ∈ s.made.map (·.id) :=
  (h.subscribers.map _).subset ((Fanout.isRegistered_iff _ _).1 hid)

theorem Sound.step (h : s.Sound) (m : Move) : (s.step m).Sound := by
  cases m with
  | register id tab queue =>
    obtain ⟨-, hstep⟩ | ⟨hmade, hstep⟩ := s.step_register id tab queue
    · rw [hstep]
      exact h
    · have hmore : ∀ id', id' ∈ s.made.map (·.id) →
          id' ∈ (s.made ++ [(⟨id, tab⟩ : Subscriber)]).map (·.id) := by
        intro id' hid'
        rw [List.map_append]
        exact List.mem_append_left _ hid'
      rw [hstep]
      refine ⟨?_, h.subscribers.append_right _, ?_, fun p hp => hmore _ (h.received p hp),
        fun id' hid' => hmore _ (h.answers id' hid')⟩
      · rw [List.map_append, List.nodup_append]
        refine ⟨h.ids, List.nodup_singleton id, ?_⟩
        rintro a ha b hb rfl
        obtain rfl := List.mem_singleton.1 hb
        exact hmade ha
      · intro id' hinbox
        rw [Fanout.hasInbox_register, Bool.or_eq_true, decide_eq_true_iff] at hinbox
        obtain hold | rfl := hinbox
        · exact hmore _ (h.inboxes id' hold)
        · simp
  | deliver whom u =>
    refine ⟨h.ids, List.filter_sublist.trans h.subscribers, ?_, h.received, h.answers⟩
    intro id hinbox
    exact h.inboxes id ((Fanout.hasInbox_deliver _ whom u id).symm.trans hinbox)
  | remove id =>
    refine ⟨h.ids, List.filter_sublist.trans h.subscribers, h.inboxes, h.received, ?_⟩
    intro id' hid'
    obtain hold | hnew := List.mem_append.1 hid'
    · exact h.answers id' hold
    · obtain ⟨rfl, hfound⟩ := Prod.mk.inj (List.mem_singleton.1 hnew)
      exact h.mem_made_of_isRegistered hfound.symm
  | discard id =>
    refine ⟨h.ids, h.subscribers, ?_, h.received, h.answers⟩
    intro id' hinbox
    refine h.inboxes id' ?_
    by_contra hnot
    rw [Bool.not_eq_true] at hnot
    exact Bool.false_ne_true ((Fanout.hasInbox_dropInbox_of_not hnot id).symm.trans hinbox)
  | receive id =>
    obtain ⟨-, hstep⟩ | ⟨u, us, hinbox, hstep⟩ := s.step_receive id
    · rw [hstep]
      exact h
    · rw [hstep]
      refine ⟨h.ids, h.subscribers, ?_, ?_, h.answers⟩
      · intro id' hid'
        exact h.inboxes id' ((Fanout.hasInbox_withQueue _ _ _ _).symm.trans hid')
      · intro p hp
        obtain hold | hnew := List.mem_append.1 hp
        · exact h.received p hold
        · rw [List.mem_singleton.1 hnew]
          refine h.inboxes id ?_
          rw [Fanout.hasInbox_eq, ← Option.isSome_map (f := (·.queue)), hinbox]
          rfl

theorem Sound.moves (h : s.Sound) (ms : List Move) : (s.moves ms).Sound := by
  induction ms generalizing s with
  | nil => exact h
  | cons m ms ih => exact ih (h.step m)

theorem sound_run (ms : List Move) : (run ms).Sound := sound_empty.moves ms

theorem mem_made_step (hx : x ∈ s.made) (m : Move) : x ∈ (s.step m).made := by
  cases m with
  | register id tab queue =>
    obtain ⟨-, hstep⟩ | ⟨-, hstep⟩ := s.step_register id tab queue
    · rwa [hstep]
    · rw [hstep]
      exact List.mem_append_left _ hx
  | receive id =>
    obtain ⟨-, hstep⟩ | ⟨u, us, -, hstep⟩ := s.step_receive id <;> rwa [hstep]
  | deliver | remove | discard => exact hx

/-- The id that a move is about, if it is about one. -/
def Move.id? : Move → Option String
  | .deliver _ _ => none
  | .register id _ _ | .remove id | .discard id | .receive id => some id

/-- What is done to one subscriber changes no other. -/
theorem sight_apart (s : Subscriptions) (hm : m.id? = some id') (hne : id' ≠ id) :
    (s.step m).sight id = s.sight id := by
  cases m with
  | deliver => cases hm
  | register id'' tab queue =>
    obtain rfl := Option.some.inj hm
    obtain ⟨-, hstep⟩ | ⟨-, hstep⟩ := s.step_register id'' tab queue
    · rw [hstep]
    · rw [hstep]
      ext1
      · simp [sight, Fanout.isRegistered_register, hne]
      · simp [sight, Fanout.inbox?_register, hne]
      · rfl
      · rfl
  | remove id'' =>
    obtain rfl := Option.some.inj hm
    ext1
    · exact (Fanout.isRegistered_remove _ _ _).trans (by simp [sight, hne.symm])
    · rfl
    · rfl
    · simp [sight, removals, step, List.count_append, hne]
  | discard id'' =>
    obtain rfl := Option.some.inj hm
    ext1
    · rfl
    · exact congrArg (Option.map _) (Fanout.inbox?_dropInbox_of_ne hne)
    · rfl
    · rfl
  | receive id'' =>
    obtain rfl := Option.some.inj hm
    obtain ⟨-, hstep⟩ | ⟨u, us, -, hstep⟩ := s.step_receive id''
    · rw [hstep]
    · rw [hstep]
      ext1
      · rfl
      · simp [sight, Fanout.inbox?_withQueue, hne.symm]
      · simp [sight, receivedBy, hne]
      · rfl

theorem Sound.isRegistered_deliver (h : s.Sound) (hx : x ∈ s.made) (whom : Recipient)
    (u : Status.Update) : (s.fanout.deliver whom u).isRegistered x.id = true ↔
      s.fanout.isRegistered x.id = true ∧
        (concerns whom u x = true → s.fanout.hasInbox x.id = true) := by
  rw [h.isRegistered_iff hx, ← Fanout.mem_deliver]
  exact (h.step (.deliver whom u)).isRegistered_iff hx

theorem Sound.inbox?_deliver (h : s.Sound) (hx : x ∈ s.made) (whom : Recipient)
    (u : Status.Update) : (s.fanout.deliver whom u).inbox? x.id =
      if s.fanout.isRegistered x.id = true ∧ concerns whom u x = true then
        (s.fanout.inbox? x.id).map fun i => { i with queue := i.queue ++ [u] }
      else s.fanout.inbox? x.id := by
  rw [Fanout.inbox?_deliver]
  refine if_congr ?_ rfl rfl
  rw [h.isRegistered_iff hx, List.any_eq_true]
  constructor
  · rintro ⟨y, hy, hboth⟩
    obtain ⟨hid, hconcerned⟩ := of_decide_eq_true hboth
    obtain rfl := List.inj_on_of_nodup_map h.ids (h.subscribers.subset hy) hx hid
    exact ⟨hy, hconcerned⟩
  · rintro ⟨hmem, hconcerned⟩
    exact ⟨x, hmem, decide_eq_true ⟨rfl, hconcerned⟩⟩

theorem removals_remove (s : Subscriptions) (id : String) :
    (s.step (.remove id)).removals id = s.removals id + (s.fanout.isRegistered id).toNat := by
  rw [removals, step, List.count_append, removals]
  cases h : s.fanout.isRegistered id <;> simp [Fanout.remove, h]

/-- Whom a delivery concerns is told, or is dropped without an inbox; nobody else notices. -/
theorem sight_deliver (h : s.Sound) (hx : x ∈ s.made) (whom : Recipient) (u : Status.Update) :
    (s.step (.deliver whom u)).sight x.id = (s.sight x.id).step x (.deliver whom u) := by
  have hregistered := h.isRegistered_deliver hx whom u
  have hinbox := h.inbox?_deliver hx whom u
  have hsight : (s.sight x.id).inbox = (s.fanout.inbox? x.id).map (·.queue) := rfl
  rw [Fanout.hasInbox_eq] at hregistered
  by_cases hconcerned : (s.sight x.id).registered = true ∧ concerns whom u x = true
  · have hknown : s.fanout.isRegistered x.id = true := hconcerned.1
    replace hinbox := hinbox.trans (if_pos hconcerned)
    rw [Sight.step, if_pos hconcerned, hsight]
    cases hi : s.fanout.inbox? x.id with
    | none =>
      ext1
      · show (s.fanout.deliver whom u).isRegistered x.id = false
        rw [hi] at hregistered
        simpa [hknown, hconcerned.2] using hregistered
      · simp [sight, step, hinbox, hi]
      · rfl
      · rfl
    | some i =>
      ext1
      · show (s.fanout.deliver whom u).isRegistered x.id = s.fanout.isRegistered x.id
        rw [hi] at hregistered
        simpa [hknown] using hregistered
      · simp [sight, step, hinbox, hi]
      · rfl
      · rfl
  · replace hinbox := hinbox.trans (if_neg hconcerned)
    rw [Sight.step, if_neg hconcerned]
    ext1
    · show (s.fanout.deliver whom u).isRegistered x.id = s.fanout.isRegistered x.id
      rw [Bool.eq_iff_iff, hregistered]
      refine and_iff_left_of_imp fun hknown hc => ?_
      exact absurd ⟨hknown, hc⟩ hconcerned
    · simp [sight, step, hinbox]
    · rfl
    · rfl

/-- **What a move makes of a subscriber depends on this subscriber alone.** -/
theorem sight_step (h : s.Sound) (hx : x ∈ s.made) (m : Move) :
    (s.step m).sight x.id = (s.sight x.id).step x m := by
  cases m with
  | register id tab queue =>
    obtain ⟨-, hstep⟩ | ⟨hmade, -⟩ := s.step_register id tab queue
    · rw [hstep]
      rfl
    · refine sight_apart s rfl ?_
      rintro rfl
      exact hmade (List.mem_map_of_mem hx)
  | deliver whom u => exact sight_deliver h hx whom u
  | remove id =>
    by_cases hid : id = x.id
    · subst hid
      rw [Sight.step, if_pos rfl]
      ext1
      · simp [step, sight, Fanout.isRegistered_remove]
      · rfl
      · rfl
      · exact s.removals_remove x.id
    · rw [sight_apart s rfl hid, Sight.step, if_neg hid]
  | discard id =>
    by_cases hid : id = x.id
    · subst hid
      rw [Sight.step, if_pos rfl]
      ext1
      · rfl
      · exact congrArg (Option.map _) (Fanout.inbox?_dropInbox _ _)
      · rfl
      · rfl
    · rw [sight_apart s rfl hid, Sight.step, if_neg hid]
  | receive id =>
    by_cases hid : id = x.id
    · subst hid
      rw [Sight.step, if_pos rfl]
      obtain ⟨hnothing, hstep⟩ | ⟨u, us, hinbox, hstep⟩ := s.step_receive x.id
      · rw [hstep]
        split
        · next u us hwaiting => exact absurd hwaiting (hnothing u us)
        · rfl
      · have hsight : (s.sight x.id).inbox = some (u :: us) := hinbox
        rw [hstep, hsight]
        ext1
        · rfl
        · simp only [sight, Fanout.inbox?_withQueue, if_true]
          cases hi : s.fanout.inbox? x.id with
          | none => simp [hi] at hinbox
          | some i => rfl
        · simp [sight, receivedBy]
        · rfl
    · rw [sight_apart s rfl hid, Sight.step, if_neg hid]

/-! ## Runs -/

theorem sight_moves (h : s.Sound) (hx : x ∈ s.made) (ms : List Move) :
    (s.moves ms).sight x.id = ms.foldl (Sight.step x) (s.sight x.id) := by
  induction ms generalizing s with
  | nil => rfl
  | cons m ms ih =>
    rw [List.foldl_cons, ← sight_step h hx m]
    exact ih (h.step m) (mem_made_step hx m)

theorem new_concat : New id (ms ++ [m]) ↔ New id ms ∧ ∀ tab queue, m ≠ .register id tab queue := by
  simp only [New, List.mem_append, List.mem_singleton, not_or, forall_and, ne_comm]

/-- The ids that were given out are those of the registrations. -/
theorem not_mem_made_run_iff (ms : List Move) (id : String) :
    id ∉ (run ms).made.map (·.id) ↔ New id ms := by
  induction ms using List.reverseRecOn with
  | nil => simp [New, run, moves]
  | append_singleton ms m ih =>
    rw [run_concat, new_concat, ← ih]
    cases m with
    | register id' tab queue =>
      obtain ⟨hmade, hstep⟩ | ⟨-, hstep⟩ := (run ms).step_register id' tab queue
      · rw [hstep]
        refine (and_iff_left_of_imp ?_).symm
        rintro hnot tab' queue' heq
        obtain ⟨rfl, -⟩ := Move.register.inj heq
        exact hnot hmade
      · rw [hstep]
        simp only [List.map_append, List.mem_append, not_or]
        refine and_congr_right fun _ => ?_
        constructor
        · rintro hne tab' queue' heq
          obtain ⟨rfl, -⟩ := Move.register.inj heq
          exact hne (by simp)
        · rintro hall hmem
          obtain rfl : id = id' := by simpa using hmem
          exact hall tab queue rfl
    | receive id' =>
      obtain ⟨-, hstep⟩ | ⟨u, us, -, hstep⟩ := (run ms).step_receive id' <;> simp [hstep]
    | deliver | remove | discard => simp [step]

theorem Sound.sight_register (h : s.Sound) (hnew : id ∉ s.made.map (·.id)) (tab : Nat)
    (queue : List Status.Update) :
    (s.step (.register id tab queue)).sight id = Sight.after ⟨id, tab⟩ queue [] := by
  have hinbox : s.fanout.inbox? id = none := by
    rw [← Option.not_isSome_iff_eq_none, ← Fanout.hasInbox_eq]
    exact mt (h.inboxes id) hnew
  have hreceived : s.receivedBy id = [] := by
    simp only [receivedBy, List.map_eq_nil_iff, List.filter_eq_nil_iff, decide_eq_true_eq]
    rintro p hp rfl
    exact hnew (h.received p hp)
  have hremovals : s.removals id = 0 := List.count_eq_zero.2 fun hmem => hnew (h.answers id hmem)
  rw [Subscriptions.step, if_neg hnew]
  ext1
  · simp [sight, Sight.after, Fanout.isRegistered_register]
  · simp [sight, Sight.after, Fanout.inbox?_register, hinbox]
  · exact hreceived
  · exact hremovals

/-- **What became of a subscriber is what it saw.** -/
theorem sight_run {before : List Move} (hnew : New id before) (tab : Nat)
    (queue : List Status.Update) (after : List Move) :
    (run (before ++ .register id tab queue :: after)).sight id =
      Sight.after ⟨id, tab⟩ queue after := by
  have hsound := sound_run before
  have hunmade : id ∉ (run before).made.map (·.id) := (not_mem_made_run_iff before id).2 hnew
  have hmade : (⟨id, tab⟩ : Subscriber) ∈ ((run before).step (.register id tab queue)).made := by
    rw [step, if_neg hunmade]
    exact List.mem_append_right _ List.mem_cons_self
  rw [run_append]
  show (((run before).step (.register id tab queue)).moves after).sight id = _
  rw [sight_moves (hsound.step _) hmade after, hsound.sight_register hunmade]
  rfl

end Subscriptions

end TabBoard
