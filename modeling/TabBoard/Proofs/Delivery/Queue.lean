import TabBoard.Proofs.Delivery.Traffic
import TabBoard.Proofs.Store
import Mathlib.Data.List.Nodup

/-!
# The queue and its dispatcher

Every item that was queued tells a status that its tab had, and it knows which (`Truthful`): the
edition of an item is a place in the history of the tab. Later items of a tab have later editions,
since an emission appends to the history and to the queue in one step, and a replay tells the last
status.

The dispatcher takes the items in the order in which they were queued (`Dispatched`). What was
sent of an item, together with what is left to send of it, is what the item was aimed at, once for
each token. So the calls to the gateway come in the order of the items.
-/

namespace TabBoard.Traffic

variable {tabs : Nat} {s : Traffic} {n : Nat}

/-! ## Histories -/

theorem length_history (s : Traffic) (tab : Nat) : (s.history tab).length = s.edition tab + 1 := by
  simp [history, edition]

/-- The state after an emission was noted. -/
def noted (s : Traffic) (u : Status.Update) : Traffic := { s with emitted := s.emitted ++ [u] }

theorem history_noted (s : Traffic) (u : Status.Update) (tab : Nat) :
    (s.noted u).history tab =
      if u.tab = tab then s.history tab ++ [u.status] else s.history tab := by
  simp only [history, noted, List.filter_append, List.filter_singleton]
  split_ifs <;> simp_all

theorem edition_noted (s : Traffic) (u : Status.Update) (tab : Nat) :
    (s.noted u).edition tab = if u.tab = tab then s.edition tab + 1 else s.edition tab := by
  simp only [edition, noted, List.filter_append, List.filter_singleton]
  split_ifs <;> simp_all

theorem getElem?_history_noted {u : Status.Update} {tab : Nat} {status : Status}
    (h : (s.history tab)[n]? = some status) : ((s.noted u).history tab)[n]? = some status := by
  rw [history_noted]
  split_ifs
  · exact (List.getElem?_append_left (List.getElem?_eq_some_iff.1 h).1).trans h
  · exact h

theorem edition_le_noted (s : Traffic) (u : Status.Update) (tab : Nat) :
    s.edition tab ≤ (s.noted u).edition tab := by
  rw [edition_noted]
  split_ifs <;> omega

/-- After an emission the last edition is the status that was emitted. -/
theorem getElem?_history_noted_self (s : Traffic) (u : Status.Update) :
    ((s.noted u).history u.tab)[(s.noted u).edition u.tab]? = some u.status := by
  rw [history_noted, edition_noted, if_pos rfl, if_pos rfl, ← length_history]
  simp

/-! ## What a move makes -/

/-- What a move makes of a state. A move that cannot be made changes nothing. -/
inductive Makes (s : Traffic) : Move → Traffic → Prop
  | nothing (m : Move) : Makes s m s
  | emit {tab : Nat} (htab : tab < s.store.size) (status : Status) :
      Makes s (.emit tab status) ((s.noted ⟨tab, status⟩).queue (s.store.emitted tab status))
  | change (c : Registry.Change) :
      Makes s (.change c)
        { s with registry := s.registry.apply c, greeting := s.greeting ++ newcomers c }
  | replay (id : String) : Makes s (.replay id) (s.queue (s.store.replay id))
  | greet {id : String} (hid : id ∈ s.greeting) :
      Makes s (.greet id)
        (({ s with greeting := s.greeting.erase id } : Traffic).queue (s.store.replay id))
  | take {whom : Recipient} {u : Status.Update} {rest : List (Recipient × Status.Update)}
      (hidle : s.dispatcher = .idle) (houtbox : s.store.outbox = (whom, u) :: rest) :
      Makes s .take { s with
        store := { s.store with outbox := rest }
        dispatcher := .holding ⟨s.taken, whom, u⟩
        taken := s.taken + 1 }
  | aim {j : Job} {order : List (String × String)} (hholding : s.dispatcher = .holding j)
      (horder : order.Perm (s.registry.targets j.whom none)) :
      Makes s (.aim order) { s with dispatcher := .aimedAt j order, aims := s.aims ++ [order] }
  | call {j : Job} {target : String × String} {rest : List (String × String)}
      (hcalling : s.dispatcher = .calling j target rest) (outcome : SendOutcome) :
      Makes s (.call outcome) { s with
        dispatcher := .answered j target outcome rest
        sends := s.sends ++ [⟨j, target.2, outcome⟩] }
  | settle {j : Job} {target : String × String} {outcome : SendOutcome}
      {rest : List (String × String)} (hanswered : s.dispatcher = .answered j target outcome rest) :
      Makes s .settle
        { s with registry := answer s.registry target outcome, dispatcher := .aimedAt j rest }

theorem makes_step (s : Traffic) (m : Move) : s.Makes m (s.step m) := by
  cases m with
  | emit tab status =>
    simp only [step]
    cases hemit : s.store.emit tab status with
    | error e => exact .nothing _
    | ok store =>
      obtain ⟨htab, rfl⟩ := Store.emit_ok_iff.1 hemit
      exact .emit htab status
  | change c => exact .change c
  | replay id => exact .replay id
  | greet id =>
    simp only [step]
    split_ifs with hid
    · exact .greet hid
    · exact .nothing _
  | take =>
    simp only [step]
    split
    · rename_i hidle houtbox
      exact .take hidle houtbox
    · exact .nothing _
  | aim order =>
    simp only [step]
    split
    · rename_i hholding
      split_ifs with horder
      · exact .aim hholding (List.isPerm_iff.1 horder)
      · exact .nothing _
    · exact .nothing _
  | call outcome =>
    simp only [step]
    split
    · rename_i hcalling
      exact .call hcalling outcome
    · exact .nothing _
  | settle =>
    simp only [step]
    split
    · rename_i hanswered
      exact .settle hanswered
    · exact .nothing _

/-! ## Items tell the history -/

/-- What was queued tells statuses that the tabs had, and of each tab in order. -/
structure Truthful (tabs : Nat) (s : Traffic) : Prop where
  tab_lt : ∀ p ∈ s.posted, p.update.tab < tabs
  edition_le : ∀ p ∈ s.posted, p.edition ≤ s.edition p.update.tab
  status : ∀ p ∈ s.posted, (s.history p.update.tab)[p.edition]? = some p.update.status
  ordered : s.posted.Pairwise fun p q => p.update.tab = q.update.tab → p.edition ≤ q.edition

theorem Truthful.noted (h : Truthful tabs s) (u : Status.Update) : Truthful tabs (s.noted u) where
  tab_lt := h.tab_lt
  edition_le p hp := Nat.le_trans (h.edition_le p hp) (s.edition_le_noted u _)
  status p hp := getElem?_history_noted (h.status p hp)
  ordered := h.ordered

/-- Items that tell the statuses that the tabs have now can be queued. -/
theorem Truthful.queue (h : Truthful tabs s) {store : Store}
    {items : List (Recipient × Status.Update)} (houtbox : store.outbox = s.store.outbox ++ items)
    (hitems : ∀ i ∈ items, i.2.tab < tabs ∧
      (s.history i.2.tab)[s.edition i.2.tab]? = some i.2.status) :
    Truthful tabs (s.queue store) := by
  have hposted : (s.queue store).posted = s.posted ++ items.map s.stamp := by
    simp only [Traffic.queue, houtbox, List.drop_left]
  refine ⟨?tab_lt, ?edition_le, ?status, ?ordered⟩
  case tab_lt =>
    rw [hposted, List.forall_mem_append, List.forall_mem_map]
    exact ⟨h.tab_lt, fun i hi => (hitems i hi).1⟩
  case edition_le =>
    rw [hposted, List.forall_mem_append, List.forall_mem_map]
    exact ⟨h.edition_le, fun i hi => Nat.le_refl _⟩
  case status =>
    rw [hposted, List.forall_mem_append, List.forall_mem_map]
    exact ⟨h.status, fun i hi => (hitems i hi).2⟩
  case ordered =>
    rw [hposted, List.pairwise_append, List.pairwise_map]
    refine ⟨h.ordered, List.pairwise_of_forall ?_, ?_⟩
    · intro i i' htab
      exact Nat.le_of_eq (congrArg s.edition htab)
    · intro p hp q hq htab
      -- an item that is queued now has the last edition there is
      obtain ⟨i, -, rfl⟩ := List.mem_map.1 hq
      have hle := h.edition_le p hp
      rw [htab] at hle
      exact hle

/-- The store has the last status of every tab, and what was queued is truthful. -/
structure Stamped (tabs : Nat) (s : Traffic) : Prop extends Truthful tabs s where
  external : s.store.external = true
  size : s.store.size = tabs
  current : ∀ tab < tabs, s.store.statuses[tab]? = (s.history tab)[s.edition tab]?

/-- Only the emissions, the items and the statuses matter. -/
theorem Stamped.frame {s' : Traffic} (h : Stamped tabs s) (hposted : s'.posted = s.posted)
    (hemitted : s'.emitted = s.emitted) (hstatuses : s'.store.statuses = s.store.statuses)
    (hexternal : s'.store.external = s.store.external) : Stamped tabs s' := by
  have hhistory : s'.history = s.history := by
    funext tab
    simp only [history, hemitted]
  have hedition : s'.edition = s.edition := by
    funext tab
    simp only [edition, hemitted]
  refine ⟨⟨?_, ?_, ?_, ?_⟩, hexternal.trans h.external, ?_, ?_⟩
  · rw [hposted]
    exact h.tab_lt
  · rw [hposted, hedition]
    exact h.edition_le
  · rw [hposted, hhistory]
    exact h.status
  · rw [hposted]
    exact h.ordered
  · rw [Store.size, hstatuses]
    exact h.size
  · rw [hstatuses, hhistory, hedition]
    exact h.current

theorem stamped_start (tabs : Nat) : Stamped tabs (start tabs) where
  tab_lt := by simp [start]
  edition_le := by simp [start]
  status := by simp [start]
  ordered := List.Pairwise.nil
  external := rfl
  size := by simp [start, Store.size, Store.ofSize]
  current tab htab := by simp [start, Store.ofSize, history, edition, htab]

/-- **An emission keeps the queue truthful.** -/
theorem Stamped.emit (h : Stamped tabs s) {tab : Nat} (htab : tab < tabs) (status : Status) :
    Stamped tabs ((s.noted ⟨tab, status⟩).queue (s.store.emitted tab status)) := by
  have hself := getElem?_history_noted_self s ⟨tab, status⟩
  have htruth : Truthful tabs ((s.noted ⟨tab, status⟩).queue (s.store.emitted tab status)) := by
    refine (h.toTruthful.noted _).queue (Store.outbox_emitted h.external) ?_
    intro i hi
    rw [List.mem_singleton.1 hi]
    exact ⟨htab, hself⟩
  refine ⟨htruth, Store.external_emitted.trans h.external, Store.size_emitted.trans h.size, ?_⟩
  intro tab' htab'
  show (s.store.emitted tab status).statuses[tab']? =
    ((s.noted ⟨tab, status⟩).history tab')[(s.noted ⟨tab, status⟩).edition tab']?
  rw [Store.statuses_emitted]
  by_cases heq : tab = tab'
  · subst heq
    rw [hself, List.getElem?_set_self (Nat.lt_of_lt_of_eq htab h.size.symm)]
  · rw [List.getElem?_set_ne heq, history_noted, edition_noted, if_neg heq, if_neg heq]
    exact h.current tab' htab'

/-- **A replay keeps the queue truthful.** -/
theorem Stamped.replay (h : Stamped tabs s) (id : String) :
    Stamped tabs (s.queue (s.store.replay id)) := by
  have hreplay := Store.replay_eq h.external id
  have htruth : Truthful tabs (s.queue (s.store.replay id)) := by
    have houtbox : (s.store.replay id).outbox =
        s.store.outbox ++ s.store.snapshot.map (.one id, ·) := by rw [hreplay]
    refine h.toTruthful.queue houtbox ?_
    rw [List.forall_mem_map]
    intro u hu
    have hstatus := Store.mem_snapshot.1 hu
    have hlt : u.tab < tabs := by
      have := (List.getElem?_eq_some_iff.1 hstatus).1
      rwa [← Store.size, h.size] at this
    exact ⟨hlt, (h.current u.tab hlt).symm.trans hstatus⟩
  refine ⟨htruth, ?_, ?_, ?_⟩
  · show (s.store.replay id).external = true
    rw [hreplay]
    exact h.external
  · show (s.store.replay id).size = tabs
    rw [hreplay]
    exact h.size
  · show ∀ tab < tabs, (s.store.replay id).statuses[tab]? = _
    rw [hreplay]
    exact h.current

/-! ## The dispatcher serves the queue in order -/

/-- The item of a job is in the queue, at the place of its number. -/
def Queued (s : Traffic) (j : Job) : Prop :=
  ∃ p, s.posted[j.number]? = some p ∧ p.whom = j.whom ∧ p.update = j.update

/-- How many items the dispatcher has taken and not yet aimed. -/
def Dispatcher.unaimed : Dispatcher → Nat
  | .holding _ => 1
  | .idle | .calling .. | .answered .. => 0

/-- The calls to the gateway for one item. -/
def callsFor (s : Traffic) (n : Nat) : List Send := s.sends.filter (·.job.number = n)

/-- The connections that an item was aimed at; none if it was not aimed yet. -/
def aim (s : Traffic) (n : Nat) : List (String × String) := (s.aims[n]?).getD []

/-- The outbox is what was queued and not taken, and the calls go through the queue in order. -/
structure Dispatched (s : Traffic) : Prop where
  outbox : s.store.outbox = (s.posted.drop s.taken).map fun p => (p.whom, p.update)
  taken_le : s.taken ≤ s.posted.length
  taken : s.taken = s.aims.length + s.dispatcher.unaimed
  job : ∀ j, s.dispatcher.job? = some j → s.Queued j ∧ j.number + 1 = s.taken
  sends : ∀ x ∈ s.sends, s.Queued x.job ∧ x.job.number < s.aims.length
  ordered : s.sends.Pairwise (·.job.number ≤ ·.job.number)
  /-- What was sent of an item and what is left to send is what it was aimed at. -/
  served : ∀ n, (s.callsFor n).map (·.token) ++ (s.dispatcher.left n).map (·.2) =
    (s.aim n).map (·.2)
  /-- No item is aimed at a token twice. -/
  distinct : ∀ targets ∈ s.aims, (targets.map (·.2)).Nodup

/-- Only the queue, the dispatcher and its calls matter. -/
theorem Dispatched.frame {s' : Traffic} (h : Dispatched s)
    (houtbox : s'.store.outbox = s.store.outbox) (hposted : s'.posted = s.posted)
    (htaken : s'.taken = s.taken) (hdispatcher : s'.dispatcher = s.dispatcher)
    (haims : s'.aims = s.aims) (hsends : s'.sends = s.sends) : Dispatched s' := by
  have hqueued : s'.Queued = s.Queued := by
    funext j
    simp only [Queued, hposted]
  refine ⟨?outbox, ?taken_le, ?taken, ?job, ?sends, ?ordered, ?served, ?distinct⟩
  case outbox =>
    rw [houtbox, hposted, htaken]
    exact h.outbox
  case taken_le =>
    rw [hposted, htaken]
    exact h.taken_le
  case taken =>
    rw [htaken, haims, hdispatcher]
    exact h.taken
  case job =>
    rw [hdispatcher, hqueued, htaken]
    exact h.job
  case sends =>
    rw [hsends, hqueued, haims]
    exact h.sends
  case ordered =>
    rw [hsends]
    exact h.ordered
  case served =>
    intro n
    rw [callsFor, aim, hsends, hdispatcher, haims]
    exact h.served n
  case distinct =>
    rw [haims]
    exact h.distinct

theorem dispatched_start (tabs : Nat) : Dispatched (start tabs) where
  outbox := rfl
  taken_le := Nat.le_refl _
  taken := rfl
  job j hj := nomatch hj
  sends := by simp [start]
  ordered := List.Pairwise.nil
  served n := by simp [start, callsFor, aim, Dispatcher.left]
  distinct := by simp [start]

theorem Queued.of_posted {s' : Traffic} {j : Job} {more : List Posted} (h : s.Queued j)
    (hposted : s'.posted = s.posted ++ more) : s'.Queued j := by
  obtain ⟨p, hp, hsays⟩ := h
  refine ⟨p, ?_, hsays⟩
  rw [hposted, List.getElem?_append_left (List.getElem?_eq_some_iff.1 hp).1]
  exact hp

theorem Dispatched.queue (h : Dispatched s) {store : Store}
    {items : List (Recipient × Status.Update)} (houtbox : store.outbox = s.store.outbox ++ items) :
    Dispatched (s.queue store) := by
  have hposted : (s.queue store).posted = s.posted ++ items.map s.stamp := by
    simp only [Traffic.queue, houtbox, List.drop_left]
  refine ⟨?outbox, ?taken_le, h.taken, ?job, ?sends, h.ordered, h.served, h.distinct⟩
  case outbox =>
    show store.outbox = ((s.queue store).posted.drop s.taken).map _
    rw [hposted, List.drop_append_of_le_length h.taken_le, houtbox, h.outbox, List.map_append,
      List.map_map]
    simp [Function.comp_def, stamp]
  case taken_le =>
    show s.taken ≤ (s.queue store).posted.length
    rw [hposted, List.length_append]
    exact Nat.le_add_right_of_le h.taken_le
  case job =>
    intro j hj
    exact ⟨(h.job j hj).1.of_posted hposted, (h.job j hj).2⟩
  case sends =>
    intro x hx
    exact ⟨(h.sends x hx).1.of_posted hposted, (h.sends x hx).2⟩

/-- The dispatcher takes the item that was queued next. -/
theorem Dispatched.take (h : Dispatched s) (hidle : s.dispatcher = .idle) {whom : Recipient}
    {u : Status.Update} {rest : List (Recipient × Status.Update)}
    (houtbox : s.store.outbox = (whom, u) :: rest) :
    Dispatched { s with
      store := { s.store with outbox := rest }
      dispatcher := .holding ⟨s.taken, whom, u⟩
      taken := s.taken + 1 } := by
  have htaken := h.taken
  rw [hidle] at htaken
  have houtbox' := h.outbox
  rw [houtbox] at houtbox'
  obtain ⟨p, ps, hdrop, hp, hps⟩ := List.map_eq_cons_iff.1 houtbox'.symm
  have hnext : s.posted[s.taken]? = some p := by
    rw [← List.head?_drop, hdrop]
    rfl
  refine ⟨?outbox, ?taken_le, ?taken, ?job, h.sends, h.ordered, ?served, h.distinct⟩
  case outbox =>
    show rest = _
    rw [← List.tail_drop, hdrop, ← hps]
    rfl
  case taken_le =>
    exact (List.getElem?_eq_some_iff.1 hnext).1
  case taken =>
    exact congrArg (· + 1) htaken
  case job =>
    intro j hj
    obtain rfl := Option.some.inj hj
    exact ⟨⟨p, hnext, congrArg (·.1) hp, congrArg (·.2) hp⟩, rfl⟩
  case served =>
    intro n
    have hserved := h.served n
    rw [hidle] at hserved
    exact hserved

theorem left_aimedAt (j : Job) (targets : List (String × String)) (n : Nat) :
    (Dispatcher.aimedAt j targets).left n = if j.number = n then targets else [] := by
  cases targets with
  | nil => simp [Dispatcher.aimedAt, Dispatcher.left]
  | cons => rfl

theorem unaimed_aimedAt (j : Job) (targets : List (String × String)) :
    (Dispatcher.aimedAt j targets).unaimed = 0 := by
  cases targets <;> rfl

theorem job?_aimedAt {j j' : Job} {targets : List (String × String)}
    (h : (Dispatcher.aimedAt j targets).job? = some j') : j' = j := by
  cases targets with
  | nil => cases h
  | cons => exact (Option.some.inj h).symm

/-- The item that is to be aimed comes behind those that were. -/
theorem Dispatched.number_of_holding (h : Dispatched s) {j : Job}
    (hholding : s.dispatcher = .holding j) : s.Queued j ∧ j.number = s.aims.length := by
  have htaken := h.taken
  rw [hholding] at htaken
  obtain ⟨hqueued, hnumber⟩ := h.job j (by rw [hholding]; rfl)
  exact ⟨hqueued, Nat.succ.inj (hnumber.trans htaken)⟩

theorem getD_getElem?_concat {α : Type} (l : List α) (a d : α) (n : Nat) :
    ((l ++ [a])[n]?).getD d = if l.length = n then a else (l[n]?).getD d := by
  by_cases hn : l.length = n
  · rw [if_pos hn, ← hn, List.getElem?_concat_length]
    rfl
  · rw [if_neg hn, List.getElem?_append]
    split_ifs with hlt
    · rfl
    · have hne : n - l.length ≠ 0 := by omega
      rw [List.getElem?_eq_none (Nat.le_of_not_lt hlt)]
      simp [hne]

theorem callsFor_concat (s : Traffic) (x : Send) (d : Dispatcher) (n : Nat) :
    callsFor { s with dispatcher := d, sends := s.sends ++ [x] } n =
      if x.job.number = n then s.callsFor n ++ [x] else s.callsFor n := by
  simp only [callsFor, List.filter_append, List.filter_singleton]
  split_ifs <;> simp_all

/-- The dispatcher aims its item, of which nothing was sent yet. -/
theorem Dispatched.aim (h : Dispatched s) {j : Job} (hholding : s.dispatcher = .holding j)
    {targets : List (String × String)} (hdistinct : (targets.map (·.2)).Nodup) :
    Dispatched { s with dispatcher := .aimedAt j targets, aims := s.aims ++ [targets] } := by
  have htaken := h.taken
  rw [hholding] at htaken
  have hjob := h.job j (by rw [hholding]; rfl)
  have hnumber := (h.number_of_holding hholding).2
  refine ⟨h.outbox, h.taken_le, ?taken, ?job, ?sends, h.ordered, ?served, ?distinct⟩
  case taken =>
    show s.taken = (s.aims ++ [targets]).length + _
    rw [unaimed_aimedAt, List.length_append]
    exact htaken
  case job =>
    intro j' hj'
    rw [job?_aimedAt hj']
    exact hjob
  case sends =>
    intro x hx
    obtain ⟨hqueued, hlt⟩ := h.sends x hx
    exact ⟨hqueued, by simp; omega⟩
  case served =>
    intro n
    have hserved := h.served n
    rw [hholding] at hserved
    simp only [Dispatcher.left, List.map_nil, List.append_nil] at hserved
    show (s.callsFor n).map _ ++ ((Dispatcher.aimedAt j targets).left n).map _ =
      (((s.aims ++ [targets])[n]?).getD []).map _
    rw [hserved, left_aimedAt, hnumber, getD_getElem?_concat, Traffic.aim]
    by_cases hn : s.aims.length = n
    · rw [if_pos hn, if_pos hn, List.getElem?_eq_none (Nat.le_of_eq hn)]
      rfl
    · rw [if_neg hn, if_neg hn, List.map_nil, List.append_nil]
  case distinct =>
    rw [List.forall_mem_append]
    exact ⟨h.distinct, by simpa using hdistinct⟩

/-- The dispatcher calls the gateway for the next connection. -/
theorem Dispatched.call (h : Dispatched s) {j : Job} {target : String × String}
    {rest : List (String × String)} (hcalling : s.dispatcher = .calling j target rest)
    (outcome : SendOutcome) :
    Dispatched { s with
      dispatcher := .answered j target outcome rest
      sends := s.sends ++ [⟨j, target.2, outcome⟩] } := by
  have htaken := h.taken
  have hjob := h.job j (by rw [hcalling]; rfl)
  rw [hcalling] at htaken
  have hlast : j.number + 1 = s.aims.length := hjob.2.trans htaken
  refine ⟨h.outbox, h.taken_le, htaken, ?job, ?sends, ?ordered, ?served, h.distinct⟩
  case job =>
    intro j' hj'
    obtain rfl := Option.some.inj hj'
    exact hjob
  case sends =>
    rw [List.forall_mem_append]
    exact ⟨h.sends, by simpa using ⟨hjob.1, Nat.lt_of_succ_le (Nat.le_of_eq hlast)⟩⟩
  case ordered =>
    rw [List.pairwise_append]
    refine ⟨h.ordered, List.pairwise_singleton _ _, ?_⟩
    intro x hx y hy
    have hlt := (h.sends x hx).2
    rw [← hlast] at hlt
    rw [List.mem_singleton.1 hy]
    exact Nat.le_of_lt_succ hlt
  case served =>
    intro n
    have hserved := h.served n
    rw [hcalling] at hserved
    rw [callsFor_concat]
    show _ = (s.aim n).map _
    rw [← hserved]
    by_cases hn : j.number = n
    · simp [hn, Dispatcher.left]
    · simp [hn, Dispatcher.left]

/-- The dispatcher works in an answer and goes on. -/
theorem Dispatched.settle (h : Dispatched s) {j : Job} {target : String × String}
    {outcome : SendOutcome} {rest : List (String × String)}
    (hanswered : s.dispatcher = .answered j target outcome rest) (registry : Registry) :
    Dispatched { s with registry, dispatcher := .aimedAt j rest } := by
  have htaken := h.taken
  rw [hanswered] at htaken
  refine ⟨h.outbox, h.taken_le, ?taken, ?job, h.sends, h.ordered, ?served, h.distinct⟩
  case taken =>
    rw [unaimed_aimedAt]
    exact htaken
  case job =>
    intro j' hj'
    rw [job?_aimedAt hj']
    exact h.job j (by rw [hanswered]; rfl)
  case served =>
    intro n
    have hserved := h.served n
    rw [hanswered] at hserved
    rw [left_aimedAt]
    exact hserved

end TabBoard.Traffic
