import TabBoard.Proofs.Delivery.Subscriptions
import Mathlib.Data.List.TakeWhile
import Mathlib.Data.Set.Card

/-!
# Subscribers that leave, and subscribers that are gone

**Theorem (`run_served`).** What a subscriber with an inbox has received, followed by what waits for
it, is what was delivered to it from its registration up to its removal, and only a removal ends its
registration. A subscriber whose inbox is gone stays until a delivery concerns it, and is dropped
then.

It is enough to look at one subscriber that sees a list of moves (`Seen`), by induction on the list.
A move can make few things of a subscriber (`Becomes`): it is told something, it is dropped or
removed, its inbox goes, or something is taken out.
-/

namespace TabBoard

open Fanout (Subscriber concerns)

namespace Subscriptions

/-! ## What moves say about a subscriber -/

/-- The update that a move delivers to the subscriber, if it is still registered. -/
def Move.update? (x : Subscriber) : Move → Option Status.Update
  | .deliver whom u => if concerns whom u x then some u else none
  | _ => none

/-- What some moves deliver to the subscriber, in order. -/
def deliveries (x : Subscriber) (ms : List Move) : List Status.Update :=
  ms.filterMap (Move.update? x)

/-- The moves in front of the first removal of the id. -/
def untilRemoved (id : String) (ms : List Move) : List Move := ms.takeWhile (· ≠ .remove id)

/-- The subscriber was removed, or a delivery concerned it when its inbox was gone. -/
def Ended (x : Subscriber) (ms : List Move) : Prop :=
  .remove x.id ∈ ms ∨
    ∃ kept rest, ms = kept ++ .discard x.id :: rest ∧ deliveries x rest ≠ []

/-- A removal came before the registration had ended. -/
def Found (x : Subscriber) (ms : List Move) : Prop :=
  ∃ kept rest, ms = kept ++ .remove x.id :: rest ∧ ¬ Ended x kept

/-- The id was registered and neither removed nor dropped. -/
def Stands (id : String) (ms : List Move) : Prop :=
  ∃ before tab queue after, ms = before ++ .register id tab queue :: after ∧ New id before ∧
    ¬ Ended ⟨id, tab⟩ after

variable {s : Subscriptions} {ms : List Move} {m c : Move} {id : String} {x : Subscriber}

theorem deliveries_append (x : Subscriber) (ms ms' : List Move) :
    deliveries x (ms ++ ms') = deliveries x ms ++ deliveries x ms' :=
  List.filterMap_append

theorem deliveries_concat (x : Subscriber) (ms : List Move) (m : Move) :
    deliveries x (ms ++ [m]) = deliveries x ms ++ (m.update? x).toList := by
  rw [deliveries_append]
  cases h : m.update? x <;> simp [deliveries, h]

/-- Where a move stands in a list that grew by one. -/
theorem exists_split_concat {P : List Move → List Move → Prop} :
    (∃ kept rest, ms ++ [m] = kept ++ c :: rest ∧ P kept rest) ↔
      (∃ kept rest, ms = kept ++ c :: rest ∧ P kept (rest ++ [m])) ∨ (m = c ∧ P ms []) := by
  constructor
  · rintro ⟨kept, rest, heq, hp⟩
    induction rest using List.reverseRecOn with
    | nil =>
      obtain ⟨rfl, hm⟩ := List.append_inj' heq rfl
      exact .inr ⟨List.singleton_inj.1 hm, hp⟩
    | append_singleton rest last _ =>
      rw [← List.cons_append, ← List.append_assoc] at heq
      obtain ⟨rfl, hm⟩ := List.append_inj' heq rfl
      obtain rfl := List.singleton_inj.1 hm
      exact .inl ⟨kept, rest, rfl, hp⟩
  · rintro (⟨kept, rest, rfl, hp⟩ | ⟨rfl, hp⟩)
    · exact ⟨kept, rest ++ [m], by simp, hp⟩
    · exact ⟨ms, [], rfl, hp⟩

theorem not_ended_nil (x : Subscriber) : ¬ Ended x [] := by
  simp [Ended]

theorem ended_concat : Ended x (ms ++ [m]) ↔
    Ended x ms ∨ m = .remove x.id ∨ (.discard x.id ∈ ms ∧ (m.update? x).isSome = true) := by
  have hgrown : (∃ kept rest, ms = kept ++ .discard x.id :: rest ∧
      deliveries x (rest ++ [m]) ≠ []) ↔
      (∃ kept rest, ms = kept ++ .discard x.id :: rest ∧ deliveries x rest ≠ []) ∨
        (.discard x.id ∈ ms ∧ (m.update? x).isSome = true) := by
    have hsome : ∀ rest, deliveries x (rest ++ [m]) ≠ [] ↔
        deliveries x rest ≠ [] ∨ (m.update? x).isSome = true := by
      intro rest
      rw [deliveries_concat, Ne, List.append_eq_nil_iff, not_and_or]
      cases m.update? x <;> simp
    simp only [hsome, and_or_left, exists_or, exists_and_right, List.mem_iff_append]
  unfold Ended
  rw [exists_split_concat, hgrown, List.mem_append, List.mem_singleton]
  simp only [deliveries, List.filterMap_nil, ne_eq, not_true_eq_false, and_false, or_false,
    eq_comm (b := m)]
  exact or_or_or_comm

/-- As long as there is an inbox only a removal ends the registration. -/
theorem ended_iff_of_not_discard (h : .discard x.id ∉ ms) : Ended x ms ↔ .remove x.id ∈ ms := by
  refine or_iff_left ?_
  rintro ⟨kept, rest, rfl, -⟩
  exact h (by simp)

/-- A subscriber whose inbox is gone stays until it is removed, or a delivery concerns it. -/
theorem ended_iff_of_discard {kept rest : List Move} (h : .discard x.id ∉ kept) :
    Ended x (kept ++ .discard x.id :: rest) ↔
      .remove x.id ∈ kept ++ .discard x.id :: rest ∨ deliveries x rest ≠ [] := by
  refine or_congr_right ⟨?_, fun hrest => ⟨kept, rest, rfl, hrest⟩⟩
  rintro ⟨kept', rest', heq, hrest'⟩ hrest
  -- Another time the inbox was thrown away comes later, so less came behind it.
  have hsuffix : ∃ between, rest = between ++ rest' := by
    obtain ⟨front, -, hfront⟩ | ⟨front, hkept, hfront⟩ := List.append_eq_append_iff.1 heq
    · cases front with
      | nil => exact ⟨[], (List.cons.inj hfront).2⟩
      | cons m front =>
        exact ⟨front ++ [.discard x.id], by rw [(List.cons.inj hfront).2]; simp⟩
    · cases front with
      | nil => exact ⟨[], (List.cons.inj hfront).2.symm⟩
      | cons m front =>
        obtain ⟨rfl, -⟩ := List.cons.inj hfront
        exact absurd (by simp [hkept]) h
  obtain ⟨between, rfl⟩ := hsuffix
  rw [deliveries_append, List.append_eq_nil_iff] at hrest
  exact hrest' hrest.2

theorem found_concat : Found x (ms ++ [m]) ↔ Found x ms ∨ (m = .remove x.id ∧ ¬ Ended x ms) :=
  exists_split_concat

theorem Found.ended (h : Found x ms) : Ended x ms := by
  obtain ⟨kept, rest, rfl, -⟩ := h
  exact .inl (by simp)

theorem untilRemoved_eq_self (h : .remove id ∉ ms) : untilRemoved id ms = ms := by
  rw [untilRemoved, List.takeWhile_eq_self_iff]
  intro m hm
  rw [decide_eq_true_iff]
  rintro rfl
  exact h hm

/-- What comes behind a removal does not count. -/
theorem untilRemoved_append (h : .remove id ∈ ms) (more : List Move) :
    untilRemoved id (ms ++ more) = untilRemoved id ms := by
  unfold untilRemoved
  induction ms with
  | nil => exact absurd h List.not_mem_nil
  | cons m ms ih =>
    by_cases hm : m = .remove id
    · simp [hm]
    · have hrest : .remove id ∈ ms := (List.mem_cons.1 h).resolve_left (Ne.symm hm)
      have hgoes : decide (m ≠ .remove id) = true := decide_eq_true hm
      simp only [List.cons_append, List.takeWhile_cons, hgoes, if_true, ih hrest]

theorem untilRemoved_removed (h : .remove id ∉ ms) :
    untilRemoved id (ms ++ [.remove id]) = ms := by
  have hself := untilRemoved_eq_self h
  rw [untilRemoved, List.takeWhile_eq_self_iff] at hself
  rw [untilRemoved, List.takeWhile_append_of_pos hself, List.takeWhile_cons_of_neg (by simp),
    List.append_nil]

theorem deliveries_untilRemoved_concat (x : Subscriber) (ms : List Move) (m : Move) :
    deliveries x (untilRemoved x.id (ms ++ [m])) = deliveries x (untilRemoved x.id ms) ++
      if .remove x.id ∈ ms then [] else (m.update? x).toList := by
  split_ifs with hremoved
  · rw [untilRemoved_append hremoved, List.append_nil]
  · rw [untilRemoved_eq_self hremoved, ← deliveries_concat]
    by_cases hm : m = .remove x.id
    · subst hm
      rw [untilRemoved_removed hremoved, deliveries_concat]
      exact (List.append_nil _).symm
    · rw [untilRemoved_eq_self]
      simp [hremoved, Ne.symm hm]

/-! ## What becomes of a subscriber -/

namespace Sight

/-- What a move can make of a subscriber. -/
inductive Becomes (x : Subscriber) (v : Sight) : Move → Sight → Prop
  | same {m : Move} (hremove : m ≠ .remove x.id) (hdiscard : m ≠ .discard x.id)
      (hnothing : v.registered = true → m.update? x = none) : Becomes x v m v
  | told {whom : Recipient} {u : Status.Update} {queue : List Status.Update}
      (hregistered : v.registered = true) (hconcerned : concerns whom u x = true)
      (hinbox : v.inbox = some queue) :
      Becomes x v (.deliver whom u) { v with inbox := some (queue ++ [u]) }
  | dropped {whom : Recipient} {u : Status.Update} (hregistered : v.registered = true)
      (hconcerned : concerns whom u x = true) (hinbox : v.inbox = none) :
      Becomes x v (.deliver whom u) { v with registered := false, inbox := none }
  | removed : Becomes x v (.remove x.id)
      { v with registered := false, removals := v.removals + v.registered.toNat }
  | discarded : Becomes x v (.discard x.id) { v with inbox := none }
  | taken {u : Status.Update} {us : List Status.Update} (hinbox : v.inbox = some (u :: us)) :
      Becomes x v (.receive x.id) { v with inbox := some us, received := v.received ++ [u] }

theorem becomes_step (x : Subscriber) (v : Sight) (m : Move) : Becomes x v m (v.step x m) := by
  cases m with
  | register id tab queue => exact .same (by simp) (by simp) fun _ => rfl
  | deliver whom u =>
    unfold step
    dsimp only
    split_ifs with hconcerned
    · cases hinbox : v.inbox with
      | some queue => exact .told hconcerned.1 hconcerned.2 hinbox
      | none => exact .dropped hconcerned.1 hconcerned.2 hinbox
    · exact .same (by simp) (by simp)
        fun hregistered => if_neg fun hc => hconcerned ⟨hregistered, hc⟩
  | remove id =>
    unfold step
    dsimp only
    split_ifs with hid
    · exact hid ▸ .removed
    · exact .same (by simpa using hid) (by simp) fun _ => rfl
  | discard id =>
    unfold step
    dsimp only
    split_ifs with hid
    · exact hid ▸ .discarded
    · exact .same (by simp) (by simpa using hid) fun _ => rfl
  | receive id =>
    unfold step
    dsimp only
    split_ifs with hid
    · split
      · next u us hinbox => exact hid ▸ .taken hinbox
      · exact .same (by simp) (by simp) fun _ => rfl
    · exact .same (by simp) (by simp) fun _ => rfl

variable {v v' : Sight} {queue : List Status.Update}

theorem Becomes.isSome_inbox (h : Becomes x v m v') :
    v'.inbox.isSome = true ↔ v.inbox.isSome = true ∧ m ≠ .discard x.id := by
  cases h with
  | same hremove hdiscard => simp [hdiscard]
  | told _ _ hinbox | dropped _ _ hinbox | taken hinbox => simp [hinbox]
  | removed | discarded => simp

/-- A registration stays until it is removed, or a delivery finds no inbox. -/
theorem Becomes.registered (h : Becomes x v m v') : v'.registered = true ↔
    v.registered = true ∧ m ≠ .remove x.id ∧ (v.inbox = none → m.update? x = none) := by
  cases h with
  | same hremove hdiscard hnothing => simp_all
  | told _ _ hinbox => simp [hinbox]
  | dropped _ hconcerned hinbox => simp [hinbox, Move.update?, hconcerned]
  | removed => simp
  | discarded | taken => simp [Move.update?]

/-- As long as there is an inbox, a subscriber who is registered is told what is delivered to him,
and nothing else is told. -/
theorem Becomes.told_of_inbox (h : Becomes x v m v') (hinbox : v.inbox.isSome = true)
    (hm : m ≠ .discard x.id) : v'.received ++ v'.inbox.getD [] =
      v.received ++ v.inbox.getD [] ++ if v.registered then (m.update? x).toList else [] := by
  cases h with
  | same hremove hdiscard hnothing => split_ifs with hregistered <;> simp_all
  | told hregistered hconcerned hqueue => simp [hregistered, Move.update?, hconcerned, hqueue]
  | dropped _ _ hnone => simp [hnone] at hinbox
  | removed => simp [Move.update?]
  | discarded => exact absurd rfl hm
  | taken hqueue => simp [hqueue, Move.update?]

/-- A removal finds who is registered. -/
theorem Becomes.removals (h : Becomes x v m v') : v'.removals =
    v.removals + if m = .remove x.id ∧ v.registered = true then 1 else 0 := by
  cases h with
  | same hremove => simp [hremove]
  | removed => cases v.registered <;> simp
  | told | dropped | discarded | taken => simp

/-- Nothing is received without an inbox. -/
theorem Becomes.received_of_none (h : Becomes x v m v') (hinbox : v.inbox = none) :
    v'.inbox = none ∧ v'.received = v.received := by
  cases h with
  | told _ _ hqueue | taken hqueue => simp [hinbox] at hqueue
  | same | removed => exact ⟨hinbox, rfl⟩
  | dropped | discarded => exact ⟨rfl, rfl⟩

/-! ## What a subscriber sees of some moves -/

/-- What some moves made of a subscriber who came with some updates. -/
structure Seen (x : Subscriber) (queue : List Status.Update) (ms : List Move) (v : Sight) :
    Prop where
  inbox : v.inbox.isSome = true ↔ .discard x.id ∉ ms
  registered : v.registered = true ↔ ¬ Ended x ms
  told : .discard x.id ∉ ms →
    v.received ++ v.inbox.getD [] = queue ++ deliveries x (untilRemoved x.id ms)
  removals : v.removals = 0 ∧ ¬ Found x ms ∨ v.removals = 1 ∧ Found x ms

theorem seen_nil (x : Subscriber) (queue : List Status.Update) :
    Seen x queue [] (after x queue []) where
  inbox := by simp [after]
  registered := by simp [after, not_ended_nil]
  told := by simp [after, untilRemoved, deliveries]
  removals := .inl ⟨rfl, by simp [Found]⟩

theorem Seen.becomes (h : Seen x queue ms v) (hm : Becomes x v m v') :
    Seen x queue (ms ++ [m]) v' := by
  refine ⟨?inbox, ?registered, ?told, ?removals⟩
  case inbox =>
    rw [hm.isSome_inbox, h.inbox, List.mem_append, List.mem_singleton, not_or, ne_comm]
  case registered =>
    have hnone : v.inbox = none ↔ .discard x.id ∈ ms := by
      rw [← Option.not_isSome_iff_eq_none, h.inbox, not_not]
    rw [hm.registered, h.registered, hnone, ended_concat, not_or, not_or, not_and,
      Option.not_isSome_iff_eq_none]
  case told =>
    intro hkept
    rw [List.mem_append, List.mem_singleton, not_or] at hkept
    have hregistered : v.registered = true ↔ ¬ .remove x.id ∈ ms := by
      rw [h.registered, ended_iff_of_not_discard hkept.1]
    rw [hm.told_of_inbox (h.inbox.2 hkept.1) (Ne.symm hkept.2), h.told hkept.1, List.append_assoc,
      deliveries_untilRemoved_concat]
    congr 2
    by_cases hremoved : .remove x.id ∈ ms
    · rw [if_pos hremoved, if_neg (mt hregistered.1 (not_not.2 hremoved))]
    · rw [if_neg hremoved, if_pos (hregistered.2 hremoved)]
  case removals =>
    rw [hm.removals, found_concat, ← h.registered]
    by_cases hfound : m = .remove x.id ∧ v.registered = true
    · have hnot : ¬ Found x ms := fun hf => h.registered.1 hfound.2 hf.ended
      rw [if_pos hfound]
      obtain ⟨hzero, -⟩ := h.removals.resolve_right fun hone => hnot hone.2
      exact .inr ⟨by rw [hzero], .inr hfound⟩
    · rw [if_neg hfound, Nat.add_zero, or_iff_left hfound]
      exact h.removals

/-- **What a subscriber sees is decided by what came after its registration.** -/
theorem seen_after (x : Subscriber) (queue : List Status.Update) (ms : List Move) :
    Seen x queue ms (after x queue ms) := by
  induction ms using List.reverseRecOn with
  | nil => exact seen_nil x queue
  | append_singleton ms m ih =>
    rw [after_concat]
    exact ih.becomes (becomes_step x _ m)

/-- Whoever threw his inbox away receives nothing more. -/
theorem received_after_discard (x : Subscriber) (queue : List Status.Update)
    (kept rest : List Move) :
    (after x queue (kept ++ .discard x.id :: rest)).received = (after x queue kept).received := by
  have hgone : ∀ v : Sight, v.inbox = none → (rest.foldl (step x) v).received = v.received := by
    intro v hv
    induction rest generalizing v with
    | nil => rfl
    | cons m rest ih =>
      obtain ⟨hnone, hreceived⟩ := (becomes_step x v m).received_of_none hv
      rw [List.foldl_cons, ih _ hnone, hreceived]
  rw [after, List.foldl_append, List.foldl_cons, hgone _ (by simp [step])]
  simp [step, after]

end Sight

/-! ## Who is served -/

/-- Every id that was given out was given out by the first registration that asked for it. -/
theorem exists_first (h : ¬ New id ms) : ∃ before tab queue after,
    ms = before ++ .register id tab queue :: after ∧ New id before := by
  induction ms using List.reverseRecOn with
  | nil => simp [New] at h
  | append_singleton ms m ih =>
    by_cases hold : New id ms
    · rw [new_concat, not_and] at h
      push Not at h
      obtain ⟨tab, queue, rfl⟩ := h hold
      exact ⟨ms, tab, queue, [], rfl, hold⟩
    · obtain ⟨before, tab, queue, after, rfl, hnew⟩ := ih hold
      exact ⟨before, tab, queue, after ++ [m], by simp, hnew⟩

/-- **What became of a subscriber is what it saw since its registration.** -/
theorem seen_run {before : List Move} (hnew : New id before) (tab : Nat)
    (queue : List Status.Update) (after : List Move) :
    Sight.Seen ⟨id, tab⟩ queue after
      ((run (before ++ .register id tab queue :: after)).sight id) := by
  rw [sight_run hnew tab queue after]
  exact Sight.seen_after ⟨id, tab⟩ queue after

theorem isRegistered_run_iff (ms : List Move) (id : String) :
    (run ms).fanout.isRegistered id = true ↔ Stands id ms := by
  constructor
  · intro hregistered
    have hgiven : ¬ New id ms := by
      rw [← not_mem_made_run_iff, not_not]
      exact (sound_run ms).mem_made_of_isRegistered hregistered
    obtain ⟨before, tab, queue, after, rfl, hnew⟩ := exists_first hgiven
    exact ⟨before, tab, queue, after, rfl, hnew,
      (seen_run hnew tab queue after).registered.1 hregistered⟩
  · rintro ⟨before, tab, queue, after, rfl, hnew, hgoes⟩
    exact (seen_run hnew tab queue after).registered.2 hgoes

/-- What holds of the state `s` that some moves lead to. -/
structure Served (ms : List Move) (s : Subscriptions) : Prop where
  /-- What a subscriber with an inbox received, and what waits for it, is what it brought along and
  what was delivered to it up to its removal. -/
  told : ∀ before id tab queue after, ms = before ++ .register id tab queue :: after →
    New id before → .discard id ∉ after →
    s.receivedBy id ++ s.fanout.queued id =
      queue ++ deliveries ⟨id, tab⟩ (untilRemoved id after)
  /-- A subscriber with an inbox stays until it is removed. -/
  stays : ∀ before id tab queue after, ms = before ++ .register id tab queue :: after →
    New id before → .discard id ∉ after →
    (s.fanout.isRegistered id = true ↔ .remove id ∉ after)
  /-- One whose inbox is gone stays until it is removed or a delivery concerns it. -/
  pruned : ∀ before id tab queue kept rest,
    ms = before ++ .register id tab queue :: (kept ++ .discard id :: rest) →
    New id before → .discard id ∉ kept →
    (s.fanout.isRegistered id = true ↔
      .remove id ∉ kept ++ .discard id :: rest ∧ deliveries ⟨id, tab⟩ rest = [])
  /-- It receives nothing more, and nothing waits for it. -/
  gone : ∀ before id tab queue kept rest,
    ms = before ++ .register id tab queue :: (kept ++ .discard id :: rest) →
    New id before →
    s.fanout.hasInbox id = false ∧
      s.receivedBy id = (run (before ++ .register id tab queue :: kept)).receivedBy id
  /-- What is delivered to an id without an inbox reaches no inbox. -/
  nobody : ∀ id, s.fanout.hasInbox id = false → ∀ u,
    (s.step (.deliver (.one id) u)).fanout.inboxes = s.fanout.inboxes
  /-- Those are counted who were registered and neither removed nor dropped. -/
  size : {id | Stands id ms}.Finite ∧ s.fanout.size = {id | Stands id ms}.ncard
  /-- A removal says whether the id is one of them. -/
  removes : ∀ id, (s.fanout.remove id).1 = true ↔ Stands id ms
  /-- So it said yes once if it found the id before its registration had ended, and never else. -/
  once : ∀ before id tab queue after, ms = before ++ .register id tab queue :: after →
    New id before →
    s.removals id = 1 ∧ Found ⟨id, tab⟩ after ∨ s.removals id = 0 ∧ ¬ Found ⟨id, tab⟩ after
  never : ∀ id, New id ms → s.removals id = 0

theorem inboxes_deliver_one (h : s.fanout.hasInbox id = false) (u : Status.Update) :
    (s.step (.deliver (.one id) u)).fanout.inboxes = s.fanout.inboxes := by
  show s.fanout.inboxes.map _ = s.fanout.inboxes
  refine (List.map_congr_left fun i hi => if_neg ?_).trans (List.map_id' _)
  rw [Fanout.hasInbox, List.any_eq_false] at h
  intro hany
  obtain ⟨y, -, hboth⟩ := List.any_eq_true.1 hany
  obtain ⟨hid, hconcerned⟩ := of_decide_eq_true hboth
  have hone : y.id = id := of_decide_eq_true hconcerned
  exact h i hi (decide_eq_true (hid.symm.trans hone))

/-- **Every subscriber is served**, however registrations, deliveries and removals come, and whoever
throws his inbox away. -/
theorem run_served (ms : List Move) : Served ms (run ms) := by
  have hsound := sound_run ms
  refine ⟨?told, ?stays, ?pruned, ?gone, fun id h u => inboxes_deliver_one h u, ?size,
    isRegistered_run_iff ms, ?once, ?never⟩
  case told =>
    rintro before id tab queue after rfl hnew hkept
    exact (seen_run hnew tab queue after).told hkept
  case stays =>
    rintro before id tab queue after rfl hnew hkept
    refine (seen_run hnew tab queue after).registered.trans ?_
    rw [ended_iff_of_not_discard hkept]
  case pruned =>
    rintro before id tab queue kept rest rfl hnew hkept
    refine (seen_run hnew tab queue (kept ++ .discard id :: rest)).registered.trans ?_
    rw [ended_iff_of_discard hkept, not_or, not_not]
  case gone =>
    rintro before id tab queue kept rest rfl hnew
    have hinbox := (seen_run hnew tab queue (kept ++ .discard id :: rest)).inbox
    have hreceived := Sight.received_after_discard ⟨id, tab⟩ queue kept rest
    rw [← sight_run hnew tab queue _, ← sight_run hnew tab queue _] at hreceived
    refine ⟨?_, hreceived⟩
    rw [Fanout.hasInbox_eq, ← Option.isSome_map (f := (·.queue)), ← Bool.not_eq_true]
    exact mt hinbox.1 (by simp)
  case size =>
    have hset : {id | Stands id ms} =
        ((run ms).fanout.subscribers.map (·.id)).toFinset := by
      ext id
      rw [Set.mem_ofPred_eq, ← isRegistered_run_iff, Fanout.isRegistered_iff]
      simp
    rw [hset]
    refine ⟨Finset.finite_toSet _, ?_⟩
    rw [Set.ncard_coe_finset, List.toFinset_card_of_nodup (hsound.ids.sublist
      (hsound.subscribers.map _)), List.length_map, Fanout.size]
  case once =>
    rintro before id tab queue after rfl hnew
    exact (seen_run hnew tab queue after).removals.symm
  case never =>
    intro id hnew
    rw [← not_mem_made_run_iff] at hnew
    exact List.count_eq_zero.2 fun hmem => hnew (hsound.answers id hmem)

/-- For example, updates of other tabs do not drop whoever threw his inbox away. -/
example :
    let ms := [.register "a" 0 [], .register "b" 1 [], .discard "a", .deliver .all ⟨1, .running⟩]
    (run ms).fanout.size = 2 ∧ (run (ms ++ [.deliver .all ⟨0, .running⟩])).fanout.size = 1 ∧
      (run ms).fanout.queued "b" = [⟨1, .running⟩] := by decide

end Subscriptions

end TabBoard
