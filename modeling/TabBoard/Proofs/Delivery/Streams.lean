import TabBoard.Proofs.Fanout
import TabBoard.Proofs.Store
import Mathlib.Data.List.Induction

/-!
# Direct streams

Anyone may subscribe to a tab, take out what waits for him, and leave. Emissions come in between.
Each of these is one indivisible step; a subscription that is dropped first leaves the fan-out
(`Streams.Move.detach`) and then loses its inbox (`Streams.Move.discard`), and anything may happen
between the two. No id is given out twice.

**Theorem (`run_exact`).** What a subscription has received, followed by what waits for it, is the
status that the tab had when it subscribed, followed by what was emitted to the tab since, up to the
drop (`Exact`). Whatever others do does not change it.

There are two states that a subscription can be in, once it was made: it follows its tab (`Follows`)
or it was dropped (`Dropped`). Each move keeps it there, or drops it.
-/

namespace TabBoard

namespace Streams

inductive Move where
  | emit (tab : Nat) (status : Status)
  | subscribe (id : String) (tab : Nat)
  /-- A subscriber takes out the first update that waits for him. -/
  | receive (id : String)
  /-- A subscription that is dropped leaves the fan-out. -/
  | detach (id : String)
  /-- The inbox of a subscription that was dropped goes. -/
  | discard (id : String)
  deriving Repr, DecidableEq

end Streams

/-- A store with its subscriptions, and what they received. -/
structure Streams where
  store : Store
  /-- The ids that were given out. -/
  used : List String := []
  /-- The subscriptions that were not dropped. -/
  live : List String := []
  received : List (String × Status.Update) := []
  deriving Repr, DecidableEq

namespace Streams

/-- All tabs running, and no subscriptions. -/
def start (tabs : Nat) (external : Bool) : Streams where
  store := .ofSize tabs external

def withFanout (s : Streams) (fanout : Fanout) : Streams :=
  { s with store := { s.store with fanout } }

/-- What a move leads to. A move that cannot be made changes nothing. -/
def step (s : Streams) : Move → Streams
  | .emit tab status =>
    match s.store.emit tab status with
    | .ok store => { s with store }
    | .error _ => s
  | .subscribe id tab =>
    if id ∈ s.used then s
    else
      match s.store.subscribe id tab with
      | .ok store => { s with store, used := s.used ++ [id], live := s.live ++ [id] }
      | .error _ => s
  | .receive id =>
    if id ∈ s.live then
      match s.store.fanout.take? id with
      | (some u, fanout) => { s.withFanout fanout with received := s.received ++ [(id, u)] }
      | (none, _) => s
    else s
  | .detach id =>
    if id ∈ s.live then
      { s.withFanout (s.store.fanout.remove id).2 with live := s.live.filter (· ≠ id) }
    else s
  | .discard id =>
    if id ∈ s.live then s else s.withFanout (s.store.fanout.dropInbox id).2

def moves (s : Streams) (ms : List Move) : Streams := ms.foldl step s

def run (tabs : Nat) (external : Bool) (ms : List Move) : Streams := (start tabs external).moves ms

/-- What a subscription has received, in order. -/
def receivedBy (s : Streams) (id : String) : List Status.Update :=
  (s.received.filter (·.1 = id)).map (·.2)

def waiting (s : Streams) (id : String) : List Status.Update := s.store.fanout.queued id

def Move.emits? : Move → Option Status.Update
  | .emit tab status => some ⟨tab, status⟩
  | _ => none

/-- What some moves emit to a tab, in order. -/
def emissions (ms : List Move) (tab : Nat) : List Status.Update :=
  (ms.filterMap (·.emits?)).filter (·.tab = tab)

variable {s s' : Streams} {ms : List Move} {m : Move} {id id' : String} {tab tabs : Nat}
  {external : Bool} {told : List Status.Update}

theorem run_concat (tabs : Nat) (external : Bool) (ms : List Move) (m : Move) :
    run tabs external (ms ++ [m]) = (run tabs external ms).step m := List.foldl_append

theorem run_append (tabs : Nat) (external : Bool) (ms ms' : List Move) :
    run tabs external (ms ++ ms') = (run tabs external ms).moves ms' := List.foldl_append

theorem emissions_append (ms ms' : List Move) (tab : Nat) :
    emissions (ms ++ ms') tab = emissions ms tab ++ emissions ms' tab := by
  simp [emissions, List.filterMap_append]

theorem emissions_cons (m : Move) (ms : List Move) (tab : Nat) :
    emissions (m :: ms) tab = emissions [m] tab ++ emissions ms tab :=
  emissions_append [m] ms tab

theorem emissions_emit (tab' : Nat) (status : Status) (tab : Nat) :
    emissions [.emit tab' status] tab = if tab' = tab then [⟨tab', status⟩] else [] := by
  simp only [emissions, List.filterMap_cons, Move.emits?, List.filterMap_nil, List.filter_singleton]
  split_ifs <;> simp_all

/-- **A drop is its two moves.** With nothing between them they do what unsubscribing does. -/
theorem store_drop (h : id ∈ s.live) :
    ((s.step (.detach id)).step (.discard id)).store = s.store.unsubscribe id := by
  simp [step, h, withFanout, Store.unsubscribe]

/-! ## What a move makes -/

/-- There is nothing for the move to do. -/
def Idle (s : Streams) : Move → Prop
  | .emit tab _ => s.store.size ≤ tab
  | .subscribe id tab => id ∈ s.used ∨ s.store.size ≤ tab
  | .receive id => id ∉ s.live ∨ s.waiting id = []
  | .detach id => id ∉ s.live
  | .discard id => id ∈ s.live

/-- What a move makes of a state. -/
inductive Makes (s : Streams) : Move → Streams → Prop
  | nothing {m : Move} (hidle : s.Idle m) : Makes s m s
  | emit {tab : Nat} (htab : tab < s.store.size) (status : Status) :
      Makes s (.emit tab status) { s with store := s.store.emitted tab status }
  | subscribe {id : String} {tab : Nat} {status : Status} (hnew : id ∉ s.used)
      (hstatus : s.store.statuses[tab]? = some status) :
      Makes s (.subscribe id tab) { s with
        store := s.store.subscribed id tab status
        used := s.used ++ [id]
        live := s.live ++ [id] }
  | receive {id : String} {u : Status.Update} {us : List Status.Update} (hlive : id ∈ s.live)
      (hwaiting : s.waiting id = u :: us) :
      Makes s (.receive id) { s.withFanout (s.store.fanout.withQueue id us) with
        received := s.received ++ [(id, u)] }
  | detach {id : String} (hlive : id ∈ s.live) :
      Makes s (.detach id)
        { s.withFanout (s.store.fanout.remove id).2 with live := s.live.filter (· ≠ id) }
  | discard {id : String} (hgone : id ∉ s.live) :
      Makes s (.discard id) (s.withFanout (s.store.fanout.dropInbox id).2)

theorem makes_step (s : Streams) (m : Move) : s.Makes m (s.step m) := by
  cases m with
  | emit tab status =>
    simp only [step, Store.emit_eq]
    by_cases htab : tab < s.store.size
    · rw [if_pos htab]
      exact .emit htab status
    · rw [if_neg htab]
      exact .nothing (Nat.le_of_not_lt htab)
  | subscribe id tab =>
    simp only [step]
    split_ifs with hused
    · exact .nothing (.inl hused)
    cases hstatus : s.store.statuses[tab]? with
    | none =>
      have hlarge : s.store.size ≤ tab := List.getElem?_eq_none_iff.1 hstatus
      rw [Store.subscribe_error hlarge]
      exact .nothing (.inr hlarge)
    | some status =>
      rw [Store.subscribe_ok_iff.2 ⟨status, hstatus, rfl⟩]
      exact .subscribe hused hstatus
  | receive id =>
    simp only [step]
    split_ifs with hlive
    · rcases s.store.fanout.take?_cases id with ⟨hnone, htake⟩ | ⟨u, us, hsome, htake⟩
      · rw [htake]
        exact .nothing (.inr hnone)
      · rw [htake]
        exact .receive hlive hsome
    · exact .nothing (.inl hlive)
  | detach id =>
    simp only [step]
    split_ifs with hlive
    · exact .detach hlive
    · exact .nothing hlive
  | discard id =>
    simp only [step]
    split_ifs with hlive
    · exact .nothing hlive
    · exact .discard hlive

/-! ## What the fan-out knows -/

/-- The fan-out knows the subscriptions that were not dropped, and an id that was not given out has
no inbox. -/
structure Sound (tabs : Nat) (s : Streams) : Prop where
  size : s.store.size = tabs
  fanout : s.store.fanout.Sound
  live : s.store.fanout.subscribers.map (·.id) = s.live
  unused : ∀ id, id ∉ s.used → id ∉ s.live ∧ s.store.fanout.hasInbox id = false
  received : ∀ p ∈ s.received, p.1 ∈ s.used

theorem sound_start (tabs : Nat) (external : Bool) : Sound tabs (start tabs external) where
  size := by simp [start, Store.ofSize, Store.size]
  fanout := Fanout.sound_empty
  live := rfl
  unused := fun _ _ => ⟨by simp [start], rfl⟩
  received := by simp [start]

theorem Sound.isRegistered_eq_false (h : Sound tabs s) (hid : id ∉ s.live) :
    s.store.fanout.isRegistered id = false := by
  rw [Bool.eq_false_iff, Ne, Fanout.isRegistered_iff, h.live]
  exact hid

theorem Sound.mem_used (h : Sound tabs s) (hid : id ∈ s.live) : id ∈ s.used := by
  by_contra hunused
  exact (h.unused id hunused).1 hid

theorem Sound.makes (h : Sound tabs s) (hmakes : s.Makes m s') : Sound tabs s' := by
  cases hmakes with
  | nothing => exact h
  | emit =>
    refine ⟨Store.size_emitted.trans h.size, ?_, ?_, ?_, h.received⟩
    · rw [Store.fanout_emitted]
      exact h.fanout.deliver _ _
    · rw [Store.fanout_emitted, h.fanout.subscribers_deliver]
      exact h.live
    · simpa [Store.fanout_emitted] using h.unused
  | subscribe hnew hstatus =>
    have hunknown := h.isRegistered_eq_false (h.unused _ hnew).1
    refine ⟨h.size, h.fanout.register hunknown _ _, ?_, ?_,
      fun p hp => List.mem_append_left _ (h.received p hp)⟩
    · simp [Store.subscribed, Fanout.register, h.live]
    · intro id' hid'
      simp only [List.mem_append, List.mem_singleton, not_or] at hid' ⊢
      obtain ⟨hlive, hinbox⟩ := h.unused id' hid'.1
      refine ⟨⟨hlive, hid'.2⟩, ?_⟩
      simp [Store.subscribed, Fanout.hasInbox_register, hinbox, Ne.symm hid'.2]
  | @receive id u us hlive hwaiting =>
    refine ⟨h.size, h.fanout.withQueue id us, h.live, ?_, ?_⟩
    · simpa [withFanout] using h.unused
    · intro p hp
      rcases List.mem_append.1 hp with hold | hnew
      · exact h.received p hold
      · rw [List.mem_singleton.1 hnew]
        exact h.mem_used hlive
  | @detach id hlive =>
    refine ⟨h.size, h.fanout.remove id, ?_, ?_, h.received⟩
    · show (s.store.fanout.subscribers.filter (·.id ≠ id)).map (·.id) = s.live.filter (· ≠ id)
      rw [← h.live, List.filter_map]
      rfl
    · intro id' hid'
      exact ⟨fun hmem => (h.unused id' hid').1 (List.mem_of_mem_filter hmem),
        (h.unused id' hid').2⟩
  | @discard id hgone =>
    refine ⟨h.size, h.fanout.dropInbox (h.isRegistered_eq_false hgone), h.live, ?_, h.received⟩
    exact fun id' hid' =>
      ⟨(h.unused id' hid').1, Fanout.hasInbox_dropInbox_of_not (h.unused id' hid').2 id⟩

theorem Sound.step (h : Sound tabs s) (m : Move) : Sound tabs (s.step m) := h.makes (s.makes_step m)

theorem sound_run (tabs : Nat) (external : Bool) (ms : List Move) :
    Sound tabs (run tabs external ms) := by
  induction ms using List.reverseRecOn with
  | nil => exact sound_start tabs external
  | append_singleton ms m ih =>
    rw [run_concat]
    exact ih.step m

/-- An id that was not given out has received nothing. -/
theorem Sound.receivedBy_unused (h : Sound tabs s) (hnew : id ∉ s.used) : s.receivedBy id = [] := by
  simp only [receivedBy, List.map_eq_nil_iff, List.filter_eq_nil_iff, decide_eq_true_eq]
  rintro p hp rfl
  exact hnew (h.received p hp)

theorem Makes.mem_used (h : s.Makes m s') (hid : id ∈ s.used) : id ∈ s'.used := by
  cases h with
  | subscribe => exact List.mem_append_left _ hid
  | nothing | emit | receive | detach | discard => exact hid

/-- A subscription that was not dropped was there before and is not dropped now, or is new. -/
theorem Sound.mem_live_iff (h : Sound tabs s) (hmakes : s.Makes m s') : id ∈ s'.live ↔
    (id ∈ s.live ∧ m ≠ .detach id) ∨ (id ∉ s.used ∧ ∃ tab < tabs, m = .subscribe id tab) := by
  cases hmakes with
  | nothing hidle =>
    constructor
    · intro hid
      refine .inl ⟨hid, ?_⟩
      rintro rfl
      exact hidle hid
    · rintro (⟨hid, -⟩ | ⟨hnew, tab, htab, rfl⟩)
      · exact hid
      · rcases hidle with hused | hlarge
        · exact absurd hused hnew
        · exact absurd htab (Nat.not_lt.2 (h.size ▸ hlarge))
  | @subscribe id' tab status hnew hstatus =>
    constructor
    · intro hid
      rcases List.mem_append.1 hid with hold | hself
      · exact .inl ⟨hold, by simp⟩
      · obtain rfl := List.mem_singleton.1 hself
        exact .inr ⟨hnew, tab, h.size ▸ (List.getElem?_eq_some_iff.1 hstatus).1, rfl⟩
    · rintro (⟨hold, -⟩ | ⟨-, tab', -, heq⟩)
      · exact List.mem_append_left _ hold
      · cases heq
        exact List.mem_append_right _ (List.mem_singleton.2 rfl)
  | detach hlive => simp [ne_comm]
  | emit | receive | discard => simp [withFanout]

/-! ## What others do -/

/-- The subscription that a move is about. -/
def Move.subscription? : Move → Option String
  | .emit _ _ => none
  | .subscribe id _ | .receive id | .detach id | .discard id => some id

/-- The subscription is left as it is. -/
structure Same (id : String) (s s' : Streams) : Prop where
  received : s'.receivedBy id = s.receivedBy id
  waiting : s'.waiting id = s.waiting id

/-- **What is done to a subscription changes no other.** -/
theorem Makes.same (h : s.Makes m s') (hm : m.subscription? = some id') (hne : id' ≠ id) :
    Same id s s' := by
  cases h with
  | nothing => exact ⟨rfl, rfl⟩
  | emit => cases hm
  | subscribe =>
    obtain rfl := Option.some.inj hm
    exact ⟨rfl, Fanout.queued_register_of_ne hne _ _⟩
  | receive =>
    obtain rfl := Option.some.inj hm
    refine ⟨?_, Fanout.queued_withQueue_of_ne hne.symm _⟩
    simp [receivedBy, hne]
  | detach => exact ⟨rfl, Fanout.queued_remove _ _ _⟩
  | discard =>
    obtain rfl := Option.some.inj hm
    exact ⟨rfl, Fanout.queued_dropInbox_of_ne hne⟩

/-! ## A subscription that follows its tab -/

/-- The subscription is known to the fan-out, and it was told so much, received or not. -/
structure Follows (id : String) (tab : Nat) (told : List Status.Update) (s : Streams) : Prop where
  known : ⟨id, tab⟩ ∈ s.store.fanout.subscribers
  told : s.receivedBy id ++ s.waiting id = told

theorem Follows.live (h : Follows id tab told s) (hs : Sound tabs s) : id ∈ s.live := by
  rw [← hs.live]
  exact List.mem_map_of_mem h.known

theorem Follows.used (h : Follows id tab told s) (hs : Sound tabs s) : id ∈ s.used :=
  hs.mem_used (h.live hs)

/-- Only a drop makes the fan-out forget a subscription. -/
theorem Sound.known (hs : Sound tabs s) (hmakes : s.Makes m s')
    (hknown : ⟨id, tab⟩ ∈ s.store.fanout.subscribers) (hm : m ≠ .detach id) :
    ⟨id, tab⟩ ∈ s'.store.fanout.subscribers := by
  cases hmakes with
  | emit => rwa [Store.fanout_emitted, hs.fanout.subscribers_deliver]
  | subscribe => exact List.mem_append_left _ hknown
  | detach =>
    exact Fanout.mem_remove.2 ⟨hknown, fun hid => hm (congrArg Move.detach hid.symm)⟩
  | nothing | receive | discard => exact hknown

/-- Nothing is emitted to a tab that there is by a move that has nothing to do. -/
theorem emissions_idle (h : s.Idle m) (htab : tab < s.store.size) : emissions [m] tab = [] := by
  cases m with
  | emit tab' status =>
    have hne : tab' ≠ tab := Nat.ne_of_gt (Nat.lt_of_lt_of_le htab h)
    rw [emissions_emit, if_neg hne]
  | subscribe | receive | detach | discard => rfl

/-- **A subscription that is not dropped goes on to follow its tab.** -/
theorem Follows.makes (h : Follows id tab told s) (hs : Sound tabs s) (htab : tab < tabs)
    (hmakes : s.Makes m s') (hm : m ≠ .detach id) :
    Follows id tab (told ++ emissions [m] tab) s' := by
  refine ⟨hs.known hmakes h.known hm, ?_⟩
  -- whatever is done to others adds nothing to what the subscription is told
  have hother : ∀ id', m.subscription? = some id' → id' ≠ id → emissions [m] tab = [] →
      s'.receivedBy id ++ s'.waiting id = told ++ emissions [m] tab := by
    intro id' hid' hne hnone
    have hsame := hmakes.same hid' hne
    rw [hsame.received, hsame.waiting, hnone, List.append_nil, h.told]
  cases hmakes with
  | nothing hidle =>
    rw [emissions_idle hidle (hs.size.symm ▸ htab), List.append_nil]
    exact h.told
  | emit _ status =>
    show s.receivedBy id ++ (s.store.emitted _ status).fanout.queued id = _
    rw [Store.fanout_emitted, hs.fanout.queued_deliver h.known, emissions_emit, ← h.told]
    split_ifs
    · exact (List.append_assoc _ _ _).symm
    · exact (List.append_nil _).symm
  | @subscribe id' tab' status hnew hstatus =>
    refine hother id' rfl ?_ rfl
    rintro rfl
    exact hnew (h.used hs)
  | @receive id' u us hlive hwaiting =>
    by_cases hid : id' = id
    · -- the first update that waits comes behind those received
      subst hid
      have hrest : (s.store.fanout.withQueue id' us).queued id' = us :=
        Fanout.queued_withQueue hwaiting us
      rw [show emissions [.receive id'] tab = [] from rfl, List.append_nil, ← h.told, hwaiting]
      simp [receivedBy, waiting, withFanout, hrest]
    · exact hother id' rfl hid rfl
  | @detach id' => exact hother id' rfl (fun hid => hm (hid ▸ rfl)) rfl
  | @discard id' hgone =>
    refine hother id' rfl ?_ rfl
    rintro rfl
    exact hgone (h.live hs)

theorem Follows.moves (h : Follows id tab told s) (hs : Sound tabs s) (htab : tab < tabs)
    (hms : .detach id ∉ ms) : Follows id tab (told ++ emissions ms tab) (s.moves ms) := by
  induction ms generalizing s told with
  | nil =>
    rw [show emissions [] tab = [] from rfl, List.append_nil]
    exact h
  | cons m ms ih =>
    obtain ⟨hm, hrest⟩ := not_or.1 (List.mem_cons.not.1 hms)
    rw [emissions_cons, ← List.append_assoc]
    exact ih (h.makes hs htab (s.makes_step m) (Ne.symm hm)) (hs.step m) hrest

/-- **A subscription starts with the status that the tab has.** -/
theorem follows_subscribe (hs : Sound tabs s) (hnew : id ∉ s.used) {status : Status}
    (hstatus : s.store.statuses[tab]? = some status) :
    Follows id tab [⟨tab, status⟩] (s.step (.subscribe id tab)) := by
  have hsubscribe : s.store.subscribe id tab = .ok (s.store.subscribed id tab status) :=
    Store.subscribe_ok_iff.2 ⟨status, hstatus, rfl⟩
  simp only [step, if_neg hnew, hsubscribe]
  refine ⟨List.mem_append_right _ (List.mem_singleton.2 rfl), ?_⟩
  show s.receivedBy id ++ (s.store.fanout.register id tab [⟨tab, status⟩]).queued id = _
  rw [hs.receivedBy_unused hnew, Fanout.queued_register (hs.unused id hnew).2]
  rfl

/-! ## A subscription that was dropped -/

/-- The subscription was dropped. Of what it had been told by then it missed what it had not
received, and this waits until its inbox goes. -/
structure Dropped (id : String) (told : List Status.Update) (s : Streams) : Prop where
  used : id ∈ s.used
  gone : id ∉ s.live
  told : ∃ missed, s.receivedBy id ++ missed = told ∧ (s.waiting id = missed ∨ s.waiting id = [])

theorem Follows.drop (h : Follows id tab told s) (hs : Sound tabs s) :
    Dropped id told (s.step (.detach id)) := by
  simp only [Streams.step, if_pos (h.live hs)]
  exact ⟨h.used hs, by simp, s.waiting id, h.told, .inl rfl⟩

/-- **A subscription that was dropped receives nothing any more.** -/
theorem Dropped.makes (h : Dropped id told s) (hs : Sound tabs s) (hmakes : s.Makes m s') :
    Dropped id told s' := by
  refine ⟨hmakes.mem_used h.used, ?gone, ?told⟩
  case gone =>
    rw [hs.mem_live_iff hmakes]
    rintro (⟨hlive, -⟩ | ⟨hnew, -⟩)
    · exact h.gone hlive
    · exact hnew h.used
  case told =>
    obtain ⟨missed, htold, hwaiting⟩ := h.told
    have hsame : Same id s s' → ∃ missed, s'.receivedBy id ++ missed = told ∧
        (s'.waiting id = missed ∨ s'.waiting id = []) := by
      intro hsame
      rw [hsame.received, hsame.waiting]
      exact h.told
    have hother : ∀ id', m.subscription? = some id' → id' ≠ id → _ :=
      fun id' hid' hne => hsame (hmakes.same hid' hne)
    cases hmakes with
    | nothing => exact h.told
    | emit =>
      refine hsame ⟨rfl, ?_⟩
      show (s.store.emitted _ _).fanout.queued id = _
      rw [Store.fanout_emitted]
      exact Fanout.queued_deliver_of_not_registered (hs.isRegistered_eq_false h.gone) _ _
    | subscribe hnew hstatus => exact hother _ rfl fun hid => hnew (hid ▸ h.used)
    | receive hlive => exact hother _ rfl fun hid => h.gone (hid ▸ hlive)
    | detach hlive => exact hother _ rfl fun hid => h.gone (hid ▸ hlive)
    | @discard id' hgone =>
      by_cases hid : id' = id
      · subst hid
        exact ⟨missed, htold, .inr (Fanout.queued_dropInbox _ _)⟩
      · exact hother id' rfl hid

theorem Dropped.moves (h : Dropped id told s) (hs : Sound tabs s) (ms : List Move) :
    Dropped id told (s.moves ms) := by
  induction ms generalizing s with
  | nil => exact h
  | cons m ms ih => exact ih (h.makes hs (s.makes_step m)) (hs.step m)

/-! ## What a tab is told -/

/-- Only an emission changes a status; there is nothing to change for a tab that there is not. -/
theorem Makes.statuses (h : s.Makes m s') : s'.store.statuses =
    m.emits?.elim s.store.statuses fun u => s.store.statuses.set u.tab u.status := by
  cases h with
  | nothing hidle =>
    cases m with
    | emit => exact (List.set_eq_of_length_le hidle).symm
    | subscribe | receive | detach | discard => rfl
  | emit => exact Store.statuses_emitted
  | subscribe | receive | detach | discard => rfl

/-- The status that a tab has after some moves: the one emitted last. -/
def lastStatus (ms : List Move) (tab : Nat) : Status :=
  ((Store.told (ms.filterMap (·.emits?)) tab).getLast?).getD .running

theorem lastStatus_concat (ms : List Move) (m : Move) (tab : Nat) :
    lastStatus (ms ++ [m]) tab =
      m.emits?.elim (lastStatus ms tab) fun u =>
        if u.tab = tab then u.status else lastStatus ms tab := by
  rw [lastStatus, List.filterMap_append]
  cases hemits : m.emits? with
  | none => simp [hemits, lastStatus]
  | some u =>
    rw [List.filterMap_cons_some hemits, List.filterMap_nil, Store.told_concat, Option.elim_some]
    split_ifs
    · rw [List.getLast?_concat, Option.getD_some]
    · rfl

/-- **A tab has the status that was emitted last.** -/
theorem statuses_run (tabs : Nat) (external : Bool) (ms : List Move) (htab : tab < tabs) :
    (run tabs external ms).store.statuses[tab]? = some (lastStatus ms tab) := by
  induction ms using List.reverseRecOn with
  | nil => simp [run, Streams.moves, start, Store.ofSize, htab, lastStatus, Store.told]
  | append_singleton ms m ih =>
    rw [run_concat, (makes_step _ m).statuses, lastStatus_concat]
    cases m.emits? with
    | none => exact ih
    | some u =>
      simp only [Option.elim_some, List.getElem?_set, ih]
      by_cases hu : u.tab = tab
      · have hlt := (List.getElem?_eq_some_iff.1 ih).1
        simp [hu, hlt]
      · simp [hu]

/-! ## Every stream is exact -/

theorem follows_run {before after : List Move} (hnew : id ∉ (run tabs external before).used)
    (htab : tab < tabs) (hafter : .detach id ∉ after) :
    Follows id tab (⟨tab, lastStatus before tab⟩ :: emissions after tab)
      (run tabs external (before ++ .subscribe id tab :: after)) := by
  have hsound := sound_run tabs external before
  rw [run_append]
  exact (follows_subscribe hsound hnew (statuses_run tabs external before htab)).moves
    (hsound.step _) htab hafter

/-- The subscriptions that were not dropped are those that were made and not dropped since. -/
theorem mem_live_run (tabs : Nat) (external : Bool) (ms : List Move) (id : String) :
    id ∈ (run tabs external ms).live ↔
      ∃ before tab after, ms = before ++ .subscribe id tab :: after ∧
        id ∉ (run tabs external before).used ∧ tab < tabs ∧ .detach id ∉ after := by
  constructor
  · intro hlive
    induction ms using List.reverseRecOn with
    | nil => simp [run, Streams.moves, start] at hlive
    | append_singleton ms m ih =>
      rw [run_concat, (sound_run tabs external ms).mem_live_iff (makes_step _ m)] at hlive
      rcases hlive with ⟨hold, hm⟩ | ⟨hnew, tab, htab, rfl⟩
      · obtain ⟨before, tab, after, rfl, hnew, htab, hafter⟩ := ih hold
        refine ⟨before, tab, after ++ [m], by simp, hnew, htab, ?_⟩
        simp only [List.mem_append, List.mem_singleton, not_or]
        exact ⟨hafter, Ne.symm hm⟩
      · exact ⟨ms, tab, [], rfl, hnew, htab, List.not_mem_nil⟩
  · rintro ⟨before, tab, after, rfl, hnew, htab, hafter⟩
    exact (follows_run hnew htab hafter).live (sound_run _ _ _)

theorem dropped_run {before kept : List Move} (hnew : id ∉ (run tabs external before).used)
    (htab : tab < tabs) (hkept : .detach id ∉ kept) (rest : List Move) :
    Dropped id (⟨tab, lastStatus before tab⟩ :: emissions kept tab)
      (run tabs external (before ++ .subscribe id tab :: (kept ++ .detach id :: rest))) := by
  have hsound := sound_run tabs external (before ++ .subscribe id tab :: kept)
  rw [← List.cons_append, ← List.append_assoc, run_append]
  exact ((follows_run hnew htab hkept).drop hsound).moves (hsound.step _) rest

/-- What holds of the state `s` that some moves lead to. -/
structure Exact (tabs : Nat) (external : Bool) (ms : List Move) (s : Streams) : Prop where
  /-- What a subscription received and what waits for it is the status that the tab had, and what
  was emitted to the tab since. -/
  followed : ∀ before id tab after, ms = before ++ .subscribe id tab :: after →
    id ∉ (run tabs external before).used → tab < tabs → .detach id ∉ after →
    ∃ first, (run tabs external before).store.current tab = .ok first ∧
      s.receivedBy id ++ s.waiting id = ⟨tab, first⟩ :: emissions after tab
  /-- A subscription that was dropped received this up to some point; the rest waits, until the
  inbox goes. -/
  dropped : ∀ before id tab kept rest,
    ms = before ++ .subscribe id tab :: (kept ++ .detach id :: rest) →
    id ∉ (run tabs external before).used → tab < tabs → .detach id ∉ kept →
    ∃ first missed, (run tabs external before).store.current tab = .ok first ∧
      s.receivedBy id ++ missed = ⟨tab, first⟩ :: emissions kept tab ∧
      (s.waiting id = missed ∨ s.waiting id = [])
  current : ∀ tab < tabs, s.store.current tab = .ok (lastStatus ms tab)
  /-- Making, receiving on and dropping a subscription changes no other one. -/
  apart : ∀ m id id', m.subscription? = some id' → id' ≠ id → Same id s (s.step m)
  /-- The subscriptions that are counted were made and not dropped since. -/
  count : s.store.fanout.size = s.live.length ∧ s.live.Nodup ∧
    ∀ id, id ∈ s.live ↔ ∃ before tab after, ms = before ++ .subscribe id tab :: after ∧
      id ∉ (run tabs external before).used ∧ tab < tabs ∧ .detach id ∉ after
  /-- There is nothing to do for a tab that there is not. -/
  outOfRange : ∀ tab, tabs ≤ tab → ∀ status id,
    s.store.emit tab status = .error ⟨tab, tabs⟩ ∧ s.step (.emit tab status) = s ∧
      s.store.subscribe id tab = .error ⟨tab, tabs⟩ ∧ s.step (.subscribe id tab) = s

/-- **Direct streams are exact**, however emissions, subscriptions, receiving and drops come. -/
theorem run_exact (tabs : Nat) (external : Bool) (ms : List Move) :
    Exact tabs external ms (run tabs external ms) := by
  have hsound := sound_run tabs external ms
  have hcurrent : ∀ before tab, tab < tabs →
      (run tabs external before).store.current tab = .ok (lastStatus before tab) :=
    fun before tab htab => Store.current_eq_ok_iff.2 (statuses_run tabs external before htab)
  refine ⟨?followed, ?dropped, hcurrent ms,
    fun m id id' hm hne => (makes_step _ m).same hm hne, ?count, ?outOfRange⟩
  case followed =>
    rintro before id tab after rfl hnew htab hafter
    exact ⟨_, hcurrent before tab htab, (follows_run hnew htab hafter).told⟩
  case dropped =>
    rintro before id tab kept rest rfl hnew htab hkept
    obtain ⟨missed, htold, hwaiting⟩ := (dropped_run hnew htab hkept rest).told
    exact ⟨_, missed, hcurrent before tab htab, htold, hwaiting⟩
  case count =>
    refine ⟨?_, ?_, fun id => mem_live_run tabs external ms id⟩
    · rw [← hsound.live, List.length_map, Fanout.size]
    · rw [← hsound.live]
      exact hsound.fanout.ids
  case outOfRange =>
    intro tab hlarge status id
    have hsize : (run tabs external ms).store.size ≤ tab := hsound.size.symm ▸ hlarge
    have hemit := Store.emit_error hsize status
    have hsubscribe := Store.subscribe_error hsize id
    rw [hsound.size] at hemit hsubscribe
    refine ⟨hemit, ?_, hsubscribe, ?_⟩
    · simp only [step, hemit]
    · simp only [step, hsubscribe, ite_self]

/-- Whoever subscribes after some emissions starts with the last one. -/
example :
    let s := run 1 false [.emit 0 .restarting, .emit 0 (.error "halted"), .subscribe "a" 0,
      .emit 0 .running, .receive "a"]
    s.receivedBy "a" = [⟨0, .error "halted"⟩] ∧ s.waiting "a" = [⟨0, .running⟩] := by decide

end Streams

end TabBoard
