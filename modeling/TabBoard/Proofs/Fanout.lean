import TabBoard.Delivery.Fanout
import Mathlib.Data.List.Nodup

/-!
# Laws of the fan-out

What each change of a fan-out does to the inbox of a subscriber (`queued`) and to the registrations.
Registering, removing, throwing an inbox away and taking an update out concern one id and leave the
inboxes of all others alone.

As long as every subscriber has an inbox (`Sound`) a delivery drops nobody.
-/

namespace TabBoard.Fanout

variable {f : Fanout} {id id' : String} {tab : Nat} {u : Status.Update} {whom : Recipient}

/-- What waits in the inbox of an id. -/
def queued (f : Fanout) (id : String) : List Status.Update := ((f.inbox? id).map (·.queue)).getD []

/-- The subscribers have different ids and an inbox each. -/
structure Sound (f : Fanout) : Prop where
  ids : (f.subscribers.map (·.id)).Nodup
  inbox : ∀ x ∈ f.subscribers, f.hasInbox x.id = true

theorem sound_empty : Sound {} := ⟨List.nodup_nil, by simp⟩

theorem hasInbox_eq (f : Fanout) (id : String) : f.hasInbox id = (f.inbox? id).isSome := by
  rw [Bool.eq_iff_iff, inbox?, List.find?_isSome]
  simp [hasInbox]

theorem isRegistered_iff (f : Fanout) (id : String) :
    f.isRegistered id = true ↔ id ∈ f.subscribers.map (·.id) := by
  simp [isRegistered]

theorem Sound.tab_unique (h : f.Sound) {x y : Subscriber} (hx : x ∈ f.subscribers)
    (hy : y ∈ f.subscribers) (hid : x.id = y.id) : x = y :=
  List.inj_on_of_nodup_map h.ids hx hy hid

/-- Finding an inbox where the inboxes of some ids were changed. -/
theorem find?_map_if (g : Inbox → Inbox) (hg : ∀ i, (g i).id = i.id) (p : String → Prop)
    [DecidablePred p] (is : List Inbox) (id : String) :
    (is.map fun i => if p i.id then g i else i).find? (·.id = id) =
      if p id then (is.find? (·.id = id)).map g else is.find? (·.id = id) := by
  have hsame : ∀ i : Inbox, (if p i.id then g i else i).id = i.id := by
    intro i
    split_ifs
    · exact hg i
    · rfl
  rw [List.find?_map]
  simp only [Function.comp_def, hsame]
  cases hi : is.find? (·.id = id) with
  | none => simp
  | some i =>
    have hid : i.id = id := by simpa using List.find?_some hi
    simp only [Option.map_some, hid]
    split_ifs <;> rfl

/-! ## Registering -/

theorem inbox?_register (f : Fanout) (id : String) (tab : Nat) (queue : List Status.Update) :
    (f.register id tab queue).inbox? id' =
      (f.inbox? id').or (if id = id' then some ⟨id, queue⟩ else none) := by
  simp only [register, inbox?, List.find?_append]
  congr 1
  by_cases h : id = id' <;> simp [h]

theorem queued_register (h : f.hasInbox id = false) (tab : Nat) (queue : List Status.Update) :
    (f.register id tab queue).queued id = queue := by
  rw [hasInbox_eq, Option.isSome_eq_false_iff, Option.isNone_iff_eq_none] at h
  simp [queued, inbox?_register, h]

theorem queued_register_of_ne (h : id ≠ id') (tab : Nat) (queue : List Status.Update) :
    (f.register id tab queue).queued id' = f.queued id' := by
  simp [queued, inbox?_register, h]

theorem hasInbox_register (f : Fanout) (id : String) (tab : Nat) (queue : List Status.Update)
    (id' : String) :
    (f.register id tab queue).hasInbox id' = (f.hasInbox id' || decide (id = id')) := by
  simp [hasInbox, register]

theorem isRegistered_register (f : Fanout) (id : String) (tab : Nat) (queue : List Status.Update)
    (id' : String) :
    (f.register id tab queue).isRegistered id' = (f.isRegistered id' || decide (id = id')) := by
  simp [isRegistered, register]

theorem Sound.register (h : f.Sound) (hnew : f.isRegistered id = false) (tab : Nat)
    (queue : List Status.Update) : (f.register id tab queue).Sound := by
  rw [Bool.eq_false_iff, Ne, isRegistered_iff] at hnew
  refine ⟨?_, ?_⟩
  · simp only [Fanout.register, List.map_append, List.nodup_append, h.ids, true_and]
    simpa using fun x hx hid => hnew (List.mem_map.2 ⟨x, hx, hid⟩)
  · intro x hx
    rw [hasInbox_register, Bool.or_eq_true, decide_eq_true_iff]
    rcases List.mem_append.1 hx with hold | hself
    · exact .inl (h.inbox x hold)
    · exact .inr (congrArg Subscriber.id (List.mem_singleton.1 hself)).symm

/-! ## Delivering -/

theorem inbox?_deliver (f : Fanout) (whom : Recipient) (u : Status.Update) (id : String) :
    (f.deliver whom u).inbox? id =
      if f.subscribers.any fun x => x.id = id ∧ concerns whom u x then
        (f.inbox? id).map fun i => { i with queue := i.queue ++ [u] }
      else f.inbox? id :=
  find?_map_if (fun i => { i with queue := i.queue ++ [u] }) (fun _ => rfl)
    (fun id => f.subscribers.any fun x => x.id = id ∧ concerns whom u x) f.inboxes id

@[simp] theorem hasInbox_deliver (f : Fanout) (whom : Recipient) (u : Status.Update) (id : String) :
    (f.deliver whom u).hasInbox id = f.hasInbox id := by
  rw [hasInbox_eq, hasInbox_eq, inbox?_deliver]
  split_ifs
  · exact Option.isSome_map
  · rfl

theorem mem_deliver {x : Subscriber} : x ∈ (f.deliver whom u).subscribers ↔
    x ∈ f.subscribers ∧ (concerns whom u x = true → f.hasInbox x.id = true) := by
  simp [deliver, imp_iff_not_or]

/-- A delivery drops nobody who has an inbox. -/
theorem Sound.subscribers_deliver (h : f.Sound) (whom : Recipient) (u : Status.Update) :
    (f.deliver whom u).subscribers = f.subscribers := by
  refine List.filter_eq_self.2 ?_
  intro x hx
  rw [h.inbox x hx, Bool.or_true]

theorem Sound.deliver (h : f.Sound) (whom : Recipient) (u : Status.Update) :
    (f.deliver whom u).Sound := by
  refine ⟨?_, ?_⟩
  · rw [h.subscribers_deliver]
    exact h.ids
  · rw [h.subscribers_deliver]
    simpa using h.inbox

/-- **Whoever is registered for the tab gets the update**, behind what waits already. -/
theorem Sound.queued_deliver (h : f.Sound) (hmem : ⟨id, tab⟩ ∈ f.subscribers) (u : Status.Update) :
    (f.deliver .all u).queued id =
      if u.tab = tab then f.queued id ++ [u] else f.queued id := by
  have hconcerned : (f.subscribers.any fun x => x.id = id ∧ concerns .all u x) = true ↔
      u.tab = tab := by
    simp only [List.any_eq_true, decide_eq_true_eq, concerns]
    constructor
    · rintro ⟨x, hx, hid, htab⟩
      rw [h.tab_unique hx hmem hid] at htab
      exact htab.symm
    · exact fun htab => ⟨_, hmem, rfl, htab.symm⟩
  have hinbox := h.inbox _ hmem
  rw [hasInbox_eq] at hinbox
  obtain ⟨i, hi⟩ := Option.isSome_iff_exists.1 hinbox
  simp only [queued, inbox?_deliver, hconcerned]
  split_ifs
  · simp [hi]
  · rfl

/-- Whoever is not registered gets nothing. -/
theorem queued_deliver_of_not_registered (h : f.isRegistered id = false) (whom : Recipient)
    (u : Status.Update) : (f.deliver whom u).queued id = f.queued id := by
  have hnobody : (f.subscribers.any fun x => x.id = id ∧ concerns whom u x) = false := by
    simp only [isRegistered, List.any_eq_false, decide_eq_true_eq] at h ⊢
    exact fun x hx hboth => h x hx hboth.1
  simp only [queued, inbox?_deliver, hnobody, Bool.false_eq_true, if_false]

/-! ## Leaving -/

@[simp] theorem queued_remove (f : Fanout) (id id' : String) :
    (f.remove id).2.queued id' = f.queued id' := rfl

theorem isRegistered_remove (f : Fanout) (id id' : String) :
    (f.remove id).2.isRegistered id' = (f.isRegistered id' && decide (id' ≠ id)) := by
  rw [Bool.eq_iff_iff, isRegistered_iff, Bool.and_eq_true, isRegistered_iff, decide_eq_true_iff]
  simp only [remove, List.mem_map, List.mem_filter, decide_eq_true_eq]
  constructor
  · rintro ⟨x, ⟨hx, hne⟩, rfl⟩
    exact ⟨⟨x, hx, rfl⟩, hne⟩
  · rintro ⟨⟨x, hx, rfl⟩, hne⟩
    exact ⟨x, ⟨hx, hne⟩, rfl⟩

theorem mem_remove {x : Subscriber} :
    x ∈ (f.remove id).2.subscribers ↔ x ∈ f.subscribers ∧ x.id ≠ id := by
  simp [remove]

theorem Sound.remove (h : f.Sound) (id : String) : (f.remove id).2.Sound where
  ids := h.ids.sublist (List.filter_sublist.map _)
  inbox x hx := h.inbox x (mem_remove.1 hx).1

theorem inbox?_dropInbox_of_ne (h : id ≠ id') :
    (f.dropInbox id).2.inbox? id' = f.inbox? id' := by
  simp only [inbox?, dropInbox]
  rw [List.find?_filter]
  congr 1
  funext i
  by_cases hi : i.id = id'
  · simp [hi, Ne.symm h]
  · simp [hi]

theorem queued_dropInbox_of_ne (h : id ≠ id') :
    (f.dropInbox id).2.queued id' = f.queued id' := by
  rw [queued, inbox?_dropInbox_of_ne h, queued]

theorem inbox?_dropInbox (f : Fanout) (id : String) : (f.dropInbox id).2.inbox? id = none := by
  simp [inbox?, dropInbox]

theorem queued_dropInbox (f : Fanout) (id : String) : (f.dropInbox id).2.queued id = [] := by
  rw [queued, inbox?_dropInbox]
  rfl

theorem hasInbox_dropInbox_of_not (h : f.hasInbox id' = false) (id : String) :
    (f.dropInbox id).2.hasInbox id' = false := by
  simp only [hasInbox, List.any_eq_false] at h ⊢
  exact fun i hi => h i (List.mem_of_mem_filter hi)

theorem Sound.dropInbox (h : f.Sound) (hnot : f.isRegistered id = false) :
    (f.dropInbox id).2.Sound := by
  refine ⟨h.ids, ?_⟩
  intro x hx
  have hne : id ≠ x.id := by
    rintro rfl
    rw [Bool.eq_false_iff, Ne, isRegistered_iff] at hnot
    exact hnot (List.mem_map_of_mem hx)
  rw [hasInbox_eq, inbox?_dropInbox_of_ne hne, ← hasInbox_eq]
  exact h.inbox x hx

/-! ## Taking updates out -/

def withQueue (f : Fanout) (id : String) (queue : List Status.Update) : Fanout :=
  { f with inboxes := f.inboxes.map fun i => if i.id = id then { i with queue } else i }

theorem inbox?_withQueue (f : Fanout) (id : String) (queue : List Status.Update) (id' : String) :
    (f.withQueue id queue).inbox? id' =
      if id' = id then (f.inbox? id').map ({ · with queue }) else f.inbox? id' :=
  find?_map_if ({ · with queue }) (fun _ => rfl) (· = id) f.inboxes id'

@[simp] theorem hasInbox_withQueue (f : Fanout) (id : String) (queue : List Status.Update)
    (id' : String) : (f.withQueue id queue).hasInbox id' = f.hasInbox id' := by
  rw [hasInbox_eq, hasInbox_eq, inbox?_withQueue]
  split_ifs
  · exact Option.isSome_map
  · rfl

theorem queued_withQueue_of_ne (h : id' ≠ id) (queue : List Status.Update) :
    (f.withQueue id queue).queued id' = f.queued id' := by
  rw [queued, inbox?_withQueue, if_neg h, queued]

theorem Sound.withQueue (h : f.Sound) (id : String) (queue : List Status.Update) :
    (f.withQueue id queue).Sound :=
  ⟨h.ids, fun x hx => (hasInbox_withQueue f id queue x.id).trans (h.inbox x hx)⟩

/-- Whoever has something in his inbox has another queue afterwards. -/
theorem queued_withQueue {u : Status.Update} {us : List Status.Update} (h : f.queued id = u :: us)
    (queue : List Status.Update) : (f.withQueue id queue).queued id = queue := by
  rw [queued, inbox?_withQueue, if_pos rfl]
  cases hi : f.inbox? id with
  | none => simp [queued, hi] at h
  | some i => rfl

/-- **Taking out gives the first update and leaves the others**; there may be none. -/
theorem take?_cases (f : Fanout) (id : String) :
    (f.queued id = [] ∧ f.take? id = (none, f)) ∨
      ∃ u us, f.queued id = u :: us ∧ f.take? id = (some u, f.withQueue id us) := by
  cases hi : f.inbox? id with
  | none => exact .inl ⟨by simp [queued, hi], by simp [take?, hi]⟩
  | some i =>
    obtain ⟨name, queue⟩ := i
    cases queue with
    | nil => exact .inl ⟨by simp [queued, hi], by simp [take?, hi]⟩
    | cons u us => exact .inr ⟨u, us, by simp [queued, hi], by simp [take?, hi, withQueue]⟩

end TabBoard.Fanout
