import TabBoard.Proofs.Delivery.Convergence
import Mathlib.Data.List.Induction

/-!
# What a new connection is told first

A connection that comes in is visible to the dispatcher at once, while the statuses that it is
greeted with are queued behind everything that waits already. So a broadcast that waits when the
connection is registered goes to it as well, before the greeting, although it may tell a status that
the tab has no more (`stale_status_arrives`).

**Theorem (`run_arrival`).** A token that is registered for the first time is sent only what was not
aimed by then, and what was queued since tells the status that its tab had at that moment, or a
later one. If nothing waits for the token, then nothing older is sent to it, and the first that it
is told of a tab is the status at its registration, as long as it is greeted before the tab changes
again (`Arrival`).
-/

namespace TabBoard.Traffic

open Registry (Reaches)

variable {tabs : Nat} {s s' : Traffic} {m : Move} {ms : List Move} {n : Nat} {token id : String}
  {tab : Nat} {p : Posted} {x : Send}

/-! ## What is queued later -/

theorem Makes.emitted (h : s.Makes m s') : s.emitted <+: s'.emitted := by
  cases h with
  | emit => exact List.prefix_append _ _
  | nothing | change | replay | greet | take | aim | call | settle => exact List.prefix_refl _

theorem Makes.edition_le (h : s.Makes m s') (tab : Nat) : s.edition tab ≤ s'.edition tab :=
  (h.emitted.filter _).length_le

theorem Makes.history (h : s.Makes m s') (tab : Nat) : s.history tab <+: s'.history tab :=
  (List.prefix_cons_inj _).2 ((h.emitted.filter _).map _)

theorem history_moves (s : Traffic) (ms : List Move) (tab : Nat) :
    s.history tab <+: (s.moves ms).history tab := by
  induction ms generalizing s with
  | nil => exact List.prefix_refl _
  | cons m ms ih => exact ((s.makes_step m).history tab).trans (ih _)

/-- What is queued has the last edition of its tab. -/
theorem edition_of_queue {store : Store} (hp : (s.queue store).posted[n]? = some p)
    (hn : s.posted.length ≤ n) : p.edition = s.edition p.update.tab := by
  simp only [queue, List.getElem?_append_right hn] at hp
  obtain ⟨item, -, rfl⟩ := List.mem_map.1 (List.mem_of_getElem? hp)
  rfl

theorem Makes.edition_of_posted (h : s.Makes m s') (hp : s'.posted[n]? = some p)
    (hn : s.posted.length ≤ n) : s.edition p.update.tab ≤ p.edition := by
  cases h with
  | emit htab status =>
    rw [edition_of_queue hp hn]
    exact s.edition_le_noted _ _
  | replay => exact Nat.le_of_eq (edition_of_queue hp hn).symm
  | greet => exact Nat.le_of_eq (edition_of_queue hp hn).symm
  | nothing | change | take | aim | call | settle =>
    exact absurd (List.getElem?_eq_some_iff.1 hp).1 (Nat.not_lt.2 hn)

/-- **What is queued later tells of later editions.** -/
theorem edition_of_posted_moves (hp : (s.moves ms).posted[n]? = some p)
    (hn : s.posted.length ≤ n) : s.edition p.update.tab ≤ p.edition := by
  induction ms generalizing s with
  | nil => exact absurd (List.getElem?_eq_some_iff.1 hp).1 (Nat.not_lt.2 hn)
  | cons m ms ih =>
    by_cases hnow : n < (s.step m).posted.length
    · -- it was queued by the first move
      have hfirst := List.getElem?_eq_getElem hnow
      rw [show (s.moves (m :: ms)).posted[n]? = _ from getElem?_posted_moves hfirst ms] at hp
      exact (s.makes_step m).edition_of_posted (hfirst.trans hp) hn
    · exact Nat.le_trans ((s.makes_step m).edition_le _) (ih hp (Nat.le_of_not_lt hnow))

/-! ## What was aimed and sent stays -/

theorem aims_moves (s : Traffic) (ms : List Move) : s.aims <+: (s.moves ms).aims := by
  induction ms generalizing s with
  | nil => exact List.prefix_refl _
  | cons m ms ih =>
    refine List.IsPrefix.trans ?_ (ih (s.step m))
    rcases (s.makes_step m).aims with hsame | ⟨-, order, -, -, hnew⟩
    · exact hsame ▸ List.prefix_refl _
    · exact hnew ▸ List.prefix_append _ _

theorem aim_moves_of_aimed (h : s.Aimed n) (ms : List Move) : (s.moves ms).aim n = s.aim n := by
  obtain ⟨more, hmore⟩ := s.aims_moves ms
  rw [aim, ← hmore, List.getElem?_append_left h, aim]

theorem aimed_of_mem (h : token ∈ (s.aim n).map (·.2)) : s.Aimed n := by
  by_contra hnot
  rw [aim, List.getElem?_eq_none (Nat.le_of_not_lt hnot)] at h
  cases h

theorem moves_append (s : Traffic) (ms ms' : List Move) :
    s.moves (ms ++ ms') = (s.moves ms).moves ms' := List.foldl_append

theorem Aimed.moves (h : s.Aimed n) (ms : List Move) : (s.moves ms).Aimed n :=
  Nat.lt_of_lt_of_le h (s.aims_moves ms).length_le

theorem Makes.sends (h : s.Makes m s') : s.sends <+: s'.sends := by
  cases h with
  | call => exact List.prefix_append _ _
  | nothing | emit | change | replay | greet | take | aim | settle => exact List.prefix_refl _

theorem sentTo_moves (s : Traffic) (ms : List Move) (token : String) (tab : Nat) :
    s.sentTo token tab <+: (s.moves ms).sentTo token tab := by
  have hsends : s.sends <+: (s.moves ms).sends := by
    induction ms generalizing s with
    | nil => exact List.prefix_refl _
    | cons m ms ih => exact (s.makes_step m).sends.trans (ih _)
  exact hsends.filter _

/-- What is sent to a token was aimed at it. -/
theorem Dispatched.token_mem_aim (h : Dispatched s) (hx : x ∈ s.sends) :
    x.token ∈ (s.aim x.job.number).map (·.2) := by
  rw [← h.served]
  refine List.mem_append_left _ (List.mem_map_of_mem ?_)
  simpa [callsFor] using hx

/-- When an item is sent, those before it are done. -/
theorem Dispatched.done_of_later (h : Dispatched s) (hx : x ∈ s.sends) (hn : n < x.job.number) :
    s.Done n := by
  have haimed := (h.sends x hx).2
  refine ⟨Nat.lt_trans hn haimed, ?_⟩
  -- the dispatcher is about the item that was aimed last
  have htaken := h.taken
  cases hd : s.dispatcher with
  | idle | holding => rfl
  | calling j target rest | answered j target outcome rest =>
    have hnumber := (h.job j (by rw [hd]; rfl)).2
    rw [hd] at htaken
    simp only [Dispatcher.unaimed] at htaken
    have hne : j.number ≠ n := by omega
    simp only [Dispatcher.left, if_neg hne]

/-! ## Who was connected -/

/-- The token was connected under the request id. -/
def Connected (ms : List Move) (token id : String) : Prop :=
  ∃ url, Move.change (.connect id token url) ∈ ms

theorem Makes.registry (h : s.Makes m s') : s'.registry = s.registry ∨
    ∃ c, s'.registry = s.registry.apply c ∧ (m = .change c ∨ ∃ i t, c = .lost i t) := by
  cases h with
  | change c => exact .inr ⟨c, rfl, .inl rfl⟩
  | @settle j target outcome rest hanswered =>
    rcases answer_eq s.registry target outcome with heq | heq
    · exact .inl heq
    · exact .inr ⟨_, heq, .inr ⟨_, _, rfl⟩⟩
  | nothing | emit | replay | greet | take | aim | call => exact .inl rfl

theorem run_concat (tabs : Nat) (ms : List Move) (m : Move) :
    run tabs (ms ++ [m]) = (run tabs ms).step m := List.foldl_append

theorem run_append (tabs : Nat) (ms ms' : List Move) :
    run tabs (ms ++ ms') = (run tabs ms).moves ms' := List.foldl_append

theorem Connected.append {ms : List Move} (h : Connected ms token id) (ms' : List Move) :
    Connected (ms ++ ms') token id :=
  h.imp fun _ hmem => List.mem_append_left _ hmem

/-- Whoever is registered was connected. -/
theorem connected_of_token
    (h : (run tabs ms).registry.tokens.get? token = some id) : Connected ms token id := by
  induction ms using List.reverseRecOn with
  | nil => simp [run, moves, start] at h
  | append_singleton ms m ih =>
    rw [run_concat] at h
    rcases ((run tabs ms).makes_step m).registry with hsame | ⟨c, hchange, hm⟩
    · rw [hsame] at h
      exact (ih h).append [m]
    · rw [hchange] at h
      rcases Registry.tokens_of_apply h with hold | ⟨url, rfl⟩
      · exact (ih hold).append [m]
      · rcases hm with rfl | ⟨i, t, hlost⟩
        · exact ⟨url, List.mem_append_right _ (List.mem_singleton_self _)⟩
        · cases hlost

/-- **What is aimed at a token is for a request id under which it was connected.** -/
theorem connected_of_aim (h : token ∈ ((run tabs ms).aim n).map (·.2)) :
    ∃ p id, (run tabs ms).posted[n]? = some p ∧ Reaches p.whom id ∧ Connected ms token id := by
  induction ms using List.reverseRecOn with
  | nil => simp [run, moves, start, aim] at h
  | append_singleton ms m ih =>
    have hsound := sound_run tabs ms
    have hold : token ∈ ((run tabs ms).aim n).map (·.2) → ∃ p id,
        (run tabs (ms ++ [m])).posted[n]? = some p ∧ Reaches p.whom id ∧
          Connected (ms ++ [m]) token id := by
      intro haimed
      obtain ⟨p, id, hp, hreaches, hconnected⟩ := ih haimed
      rw [run_concat]
      exact ⟨p, id, getElem?_posted_moves hp [m], hreaches, hconnected.append [m]⟩
    rw [run_concat] at h
    rcases ((run tabs ms).makes_step m).aims with hsame | ⟨j, order, hholding, horder, hnew⟩
    · rw [aim, hsame] at h
      exact hold h
    · rw [aim, hnew, getD_getElem?_concat] at h
      split_ifs at h with hn
      · -- it is aimed now
        obtain ⟨⟨p, hp, hwhom, -⟩, hnumber⟩ := hsound.dispatched.number_of_holding hholding
        rw [(horder.map _).mem_iff, hsound.registry.mem_targets] at h
        obtain ⟨id, hreaches, hid⟩ := h
        rw [hnumber, hn] at hp
        rw [run_concat]
        exact ⟨p, id, getElem?_posted_moves hp [m], hwhom ▸ hreaches,
          (connected_of_token hid).append [m]⟩
      · exact hold h

/-! ## A token that is registered for the first time -/

/-- The call tells a status that its tab had at the time of `s₀`, or later. -/
def Since (s₀ s : Traffic) (x : Send) : Prop :=
  ∃ e, s₀.edition x.job.update.tab ≤ e ∧
    (s.history x.job.update.tab)[e]? = some x.job.update.status

def Waiting (s : Traffic) (n : Nat) (p : Posted) : Prop :=
  s.posted[n]? = some p ∧ s.aims.length ≤ n

/-- What some moves lead to once a token was registered. -/
def joined (s : Traffic) (id token url : String) (ms : List Move) : Traffic :=
  s.moves (.change (.connect id token url) :: ms)

/-- Nothing waits for a token that is registered, under whatever request ids. -/
def ClearFor (s : Traffic) (id token url : String) (ms : List Move) : Prop :=
  ∀ n p, s.Waiting n p →
    ∀ id', Connected (.change (.connect id token url) :: ms) token id' → ¬ Reaches p.whom id'

/-- What holds of what is sent to a token that is registered at `s₀`, before the moves `after`. -/
structure Arrival (tabs : Nat) (s₀ : Traffic) (id token url : String) (after : List Move) :
    Prop where
  /-- It was not aimed yet, and is for a request id under which the token was connected. -/
  pending : ∀ x ∈ (s₀.joined id token url after).sends, x.token = token →
    s₀.aims.length ≤ x.job.number ∧ ∃ id',
      Connected (.change (.connect id token url) :: after) token id' ∧ Reaches x.job.whom id'
  /-- What was queued since tells the status at the registration, or a later one. -/
  later : ∀ x ∈ (s₀.joined id token url after).sends, s₀.posted.length ≤ x.job.number →
    Since s₀ (s₀.joined id token url after) x
  /-- A broadcast that waits is sent to the token, if it stays registered until then. -/
  stale : ∀ n p, s₀.Waiting n p → p.whom = .all →
    (∀ l l', after = l ++ l' → ¬ (s₀.joined id token url l).Aimed n →
      (s₀.joined id token url l).Registered token) →
    (s₀.joined id token url after).Done n →
    ∃ x, (s₀.joined id token url after).callsWith n token = [x] ∧ x.job.update = p.update
  /-- If nothing waits for the token, nothing older is sent to it. -/
  clear : s₀.ClearFor id token url after →
    ∀ x ∈ (s₀.joined id token url after).sends, x.token = token →
      s₀.posted.length ≤ x.job.number ∧ Since s₀ (s₀.joined id token url after) x
  /-- If it is greeted before the tab changes again, the first that it is told of the tab is the
  status at the registration. -/
  greeted : s₀.ClearFor id token url after → ∀ l rest tab, after = l ++ rest → tab < tabs →
    (s₀.joined id token url l).edition tab = s₀.edition tab →
    id ∉ (s₀.joined id token url l).greeting →
    (∀ k k', rest = k ++ k' → (s₀.joined id token url (l ++ k)).sentTo token tab = [] →
      (s₀.joined id token url (l ++ k)).registry.tokens.get? token = some id) →
    ∀ x, ((s₀.joined id token url after).sentTo token tab).head? = some x →
      s₀.store.current tab = .ok x.job.update.status

/-- What was queued since tells the status of its edition. -/
theorem Sound.edition_of_later (h : Sound tabs s) (ms : List Move) (hx : x ∈ (s.moves ms).sends)
    (hlater : s.posted.length ≤ x.job.number) :
    s.edition x.job.update.tab ≤ (s.moves ms).editionOf x := by
  obtain ⟨p, hp, -, hupdate⟩ := ((h.moves ms).dispatched.sends x hx).1
  simp only [editionOf, hp, Option.map_some, Option.getD_some, ← hupdate]
  exact edition_of_posted_moves hp hlater

/-- What is sent to a token about a tab comes in the order in which it was queued. -/
theorem Dispatched.number_le_of_first {y : Send} (h : Dispatched s)
    (hfirst : (s.sentTo token tab).head? = some x) (hy : y ∈ s.sentTo token tab) :
    x.job.number ≤ y.job.number := by
  obtain ⟨tail, hsent⟩ := List.head?_eq_some_iff.1 hfirst
  have hordered : (s.sentTo token tab).Pairwise (·.job.number ≤ ·.job.number) := h.ordered.filter _
  rw [hsent] at hy hordered
  rcases List.mem_cons.1 hy with rfl | htail
  · exact Nat.le_refl _
  · exact (List.pairwise_cons.1 hordered).1 y htail

/-- Before an item was aimed, nothing was sent if the first that is sent is a later one. -/
theorem Sound.nothing_sent {l l' : List Move} (h : Sound tabs s)
    (hfirst : ((s.moves (l ++ l')).sentTo token tab).head? = some x) (hn : n < x.job.number)
    (hnot : ¬ (s.moves l).Aimed n) : (s.moves l).sentTo token tab = [] := by
  cases hsent : (s.moves l).sentTo token tab with
  | nil => rfl
  | cons y ys =>
    -- the first was sent by then, so it was aimed by then, and so was what is before it
    obtain ⟨more, hmore⟩ := (s.moves l).sentTo_moves l' token tab
    rw [moves_append, ← hmore, hsent] at hfirst
    obtain rfl := Option.some.inj hfirst
    have hy : y ∈ (s.moves l).sends := List.mem_of_mem_filter (hsent ▸ List.mem_cons_self)
    exact absurd (Nat.lt_trans hn ((h.moves l).dispatched.sends y hy).2) hnot

/-- **Whoever is informed of a tab is told first of an edition that it had by then**, as long as he
stays registered. -/
theorem Sound.edition_of_first (h : Sound tabs s) (hinformed : s.Informed token id tab)
    (hstays : ∀ l l', ms = l ++ l' → (s.moves l).sentTo token tab = [] →
      (s.moves l).registry.tokens.get? token = some id)
    (hfirst : ((s.moves ms).sentTo token tab).head? = some x) :
    (s.moves ms).editionOf x ≤ s.edition tab := by
  have hsound := h.moves ms
  obtain ⟨hx, htold⟩ := List.mem_filter.1 (List.mem_of_head? hfirst)
  obtain ⟨-, htab⟩ := of_decide_eq_true htold
  obtain ⟨n, p, hp, hptab, hedition, hgoes⟩ := hinformed
  have hp' := getElem?_posted_moves hp ms
  obtain ⟨q, hq, -, hupdate⟩ := (hsound.dispatched.sends x hx).1
  have hxedition : (s.moves ms).editionOf x = q.edition := by simp [editionOf, hq]
  have hle : x.job.number ≤ n := by
    by_contra hlater
    -- the item that informs was sent before, so that `x` would not be the first
    have hlt := Nat.lt_of_not_le hlater
    have hdone := hsound.dispatched.done_of_later hx hlt
    have haimed : token ∈ ((s.moves ms).aim n).map (·.2) := by
      refine h.aim_moves hp ?before ms ?stays hdone.1
      case before =>
        exact fun haimed => hgoes.resolve_left fun hqueued => Nat.not_lt.2 hqueued.1 haimed
      case stays =>
        rintro l l' rfl hnot
        have hqueued := hgoes.resolve_right fun haimed => hnot ((aimed_of_mem haimed).moves l)
        exact ⟨id, hqueued.2, hstays l l' rfl (h.nothing_sent hfirst hlt hnot)⟩
    obtain ⟨y, hy⟩ := hsound.dispatched.callsWith_of_done hdone haimed
    have hmem : y ∈ (s.moves ms).callsWith n token := by simp [hy]
    have hynumber : y.job.number = n := (of_decide_eq_true (List.mem_filter.1 hmem).2).1
    obtain ⟨hysent, hytoken, -, -, hyupdate⟩ := hsound.dispatched.of_mem_callsWith hp' hmem
    have hyx : y ∈ (s.moves ms).sentTo token tab :=
      List.mem_filter.2 ⟨hysent, by simp [hytoken, hyupdate, hptab]⟩
    exact hlater (hynumber ▸ hsound.dispatched.number_le_of_first hfirst hyx)
  rw [hxedition, ← hedition]
  refine hsound.stamped.edition_mono hq hp' hle ?_
  rw [hupdate, htab, hptab]

theorem Sound.since_of_later (h : Sound tabs s) (ms : List Move) (hx : x ∈ (s.moves ms).sends)
    (hlater : s.posted.length ≤ x.job.number) : Since s (s.moves ms) x :=
  ⟨_, h.edition_of_later ms hx hlater, ((h.moves ms).edition_of_send hx).2⟩

/-- What is sent to a token was not aimed when it was registered for the first time. -/
theorem pending_of_sent {before after : List Move} {url : String}
    (hnew : ∀ id', ¬ Connected before token id')
    (hx : x ∈ ((run tabs before).joined id token url after).sends) (htoken : x.token = token) :
    (run tabs before).aims.length ≤ x.job.number ∧ ∃ id',
      Connected (.change (.connect id token url) :: after) token id' ∧ Reaches x.job.whom id' := by
  have hsound := (sound_run tabs before).moves (.change (.connect id token url) :: after)
  have haimed := hsound.dispatched.token_mem_aim hx
  obtain ⟨p, hp, hwhom, -⟩ := (hsound.dispatched.sends x hx).1
  rw [htoken] at haimed
  refine ⟨?_, ?_⟩
  · by_contra hold
    rw [aim_moves_of_aimed (Nat.lt_of_not_le hold)] at haimed
    obtain ⟨-, id', -, -, hconnected⟩ := connected_of_aim haimed
    exact hnew id' hconnected
  · rw [← run_append] at haimed hp
    obtain ⟨q, id', hq, hreaches, url', hmem⟩ := connected_of_aim haimed
    obtain rfl := Option.some.inj (hp.symm.trans hq)
    rcases List.mem_append.1 hmem with hbefore | hafter
    · exact absurd ⟨url', hbefore⟩ (hnew id')
    · exact ⟨id', ⟨url', hafter⟩, hwhom ▸ hreaches⟩

/-- If nothing waits for the token, what is sent to it was queued since. -/
theorem later_of_clear {before after : List Move} {url : String}
    (hnew : ∀ id', ¬ Connected before token id')
    (hclear : (run tabs before).ClearFor id token url after)
    (hx : x ∈ ((run tabs before).joined id token url after).sends) (htoken : x.token = token) :
    (run tabs before).posted.length ≤ x.job.number := by
  obtain ⟨haims, id', hconnected, hreaches⟩ := pending_of_sent hnew hx htoken
  by_contra hold
  -- an item that was there is still the same
  have hp := List.getElem?_eq_getElem (Nat.lt_of_not_le hold)
  have hsound := (sound_run tabs before).moves (.change (.connect id token url) :: after)
  obtain ⟨q, hq, hwhom, -⟩ := (hsound.dispatched.sends x hx).1
  obtain rfl := Option.some.inj ((getElem?_posted_moves hp _).symm.trans hq)
  exact hclear _ _ ⟨hp, haims⟩ id' hconnected (hwhom ▸ hreaches)

/-- **A broadcast that waits is sent to whoever comes in** and stays until it is aimed. -/
theorem Sound.stale_sent (h : Sound tabs s) {url : String} (hwaiting : s.Waiting n p)
    (hall : p.whom = .all)
    (hstays : ∀ l l', ms = l ++ l' → ¬ (s.joined id token url l).Aimed n →
      (s.joined id token url l).Registered token)
    (hdone : (s.joined id token url ms).Done n) :
    ∃ x, (s.joined id token url ms).callsWith n token = [x] ∧ x.job.update = p.update := by
  have hstart := h.step (.change (.connect id token url))
  have hnot : ¬ (s.step (.change (.connect id token url))).Aimed n := Nat.not_lt.2 hwaiting.2
  have haimed := hstart.aim_moves hwaiting.1 (fun haimed => absurd haimed hnot) ms
    (fun l l' hl hnow => (hstays l l' hl hnow).reached hall) hdone.1
  have hdispatched := (hstart.moves ms).dispatched
  obtain ⟨x, hx⟩ := hdispatched.callsWith_of_done hdone haimed
  have hmem := List.mem_singleton_self x
  rw [← hx] at hmem
  have hp : (s.step (.change (.connect id token url))).posted[n]? = some p := hwaiting.1
  obtain ⟨-, -, -, -, hupdate⟩ :=
    hdispatched.of_mem_callsWith (getElem?_posted_moves hp ms) hmem
  exact ⟨x, hx, hupdate⟩

/-- A call tells the same edition later on. -/
theorem Sound.editionOf_moves (h : Sound tabs s) (hx : x ∈ s.sends) (ms : List Move) :
    (s.moves ms).editionOf x = s.editionOf x := by
  obtain ⟨p, hp, -⟩ := (h.dispatched.sends x hx).1
  rw [editionOf, editionOf, getElem?_posted_moves hp, hp]

/-- Whoever was greeted before a tab changed, and stays, is told first of an edition that the tab
had by then. -/
theorem Sound.edition_of_greeted (h : Sound tabs s) (htab : tab < tabs) (hgreeted : id ∉ s.greeting)
    (hstays : ∀ l l', ms = l ++ l' → (s.moves l).sentTo token tab = [] →
      (s.moves l).registry.tokens.get? token = some id)
    (hfirst : ((s.moves ms).sentTo token tab).head? = some x) :
    (s.moves ms).editionOf x ≤ s.edition tab := by
  cases hsent : s.sentTo token tab with
  | nil =>
    have hinformed := (h.covered token id (hstays [] ms rfl hsent)).resolve_left hgreeted tab htab
    exact h.edition_of_first hinformed hstays hfirst
  | cons y ys =>
    -- the first call was made by then
    obtain ⟨more, hmore⟩ := s.sentTo_moves ms token tab
    rw [← hmore, hsent] at hfirst
    obtain rfl := Option.some.inj hfirst
    obtain ⟨hy, htold⟩ := List.mem_filter.1 (hsent ▸ List.mem_cons_self : y ∈ s.sentTo token tab)
    have hle := (h.edition_of_send hy).1
    rw [(of_decide_eq_true htold).2] at hle
    rwa [h.editionOf_moves hy ms]

/-- A call that tells the last edition that a tab had tells the status that it had. -/
theorem Sound.current_of_edition (h : Sound tabs s) (htab : tab < tabs) (ms : List Move)
    (hx : x ∈ (s.moves ms).sentTo token tab) (hedition : (s.moves ms).editionOf x = s.edition tab) :
    s.store.current tab = .ok x.job.update.status := by
  obtain ⟨hsent, htold⟩ := List.mem_filter.1 hx
  have hstatus := ((h.moves ms).edition_of_send hsent).2
  rw [(of_decide_eq_true htold).2, hedition] at hstatus
  obtain ⟨more, hmore⟩ := s.history_moves ms tab
  have hlt : s.edition tab < (s.history tab).length := by
    rw [length_history]
    exact Nat.lt_succ_self _
  rw [← hmore, List.getElem?_append_left hlt] at hstatus
  exact Store.current_eq_ok_iff.2 ((h.stamped.current tab htab).trans hstatus)

/-- **A token that is registered for the first time is told nothing older**, unless it waits. -/
theorem run_arrival (tabs : Nat) (before : List Move) (id token url : String) (after : List Move)
    (hnew : ∀ id', ¬ Connected before token id') :
    Arrival tabs (run tabs before) id token url after := by
  have h := sound_run tabs before
  refine ⟨fun x hx htoken => pending_of_sent hnew hx htoken,
    fun x hx hlater => h.since_of_later _ hx hlater,
    fun n p hwaiting hall hstays hdone => h.stale_sent hwaiting hall hstays hdone, ?clear, ?greeted⟩
  case clear =>
    intro hclear x hx htoken
    have hlater := later_of_clear hnew hclear hx htoken
    exact ⟨hlater, h.since_of_later _ hx hlater⟩
  case greeted =>
    rintro hclear l rest tab rfl htab hsame hgreeted hstays x hfirst
    have hx := List.mem_of_head? hfirst
    obtain ⟨hsent, htold⟩ := List.mem_filter.1 hx
    obtain ⟨htoken, hxtab⟩ := of_decide_eq_true htold
    have hmoves : ∀ k, (run tabs before).joined id token url (l ++ k) =
        ((run tabs before).joined id token url l).moves k := moves_append _ (_ :: l)
    simp only [hmoves] at hstays hfirst
    have hjoined : Sound tabs ((run tabs before).joined id token url l) := h.moves _
    refine h.current_of_edition htab _ hx (Nat.le_antisymm ?_ ?_)
    · have hle := hjoined.edition_of_greeted htab hgreeted hstays hfirst
      rw [← hmoves] at hle
      exact Nat.le_trans hle (Nat.le_of_eq hsame)
    · have hge := h.edition_of_later _ hsent (later_of_clear hnew hclear hsent htoken)
      rwa [hxtab] at hge

/-- When the dispatcher has caught up with two emissions, a connection that comes in is told the
second one first. -/
theorem run_arrival_caught_up :
    let before : List Move :=
      [.emit 0 .restarting, .emit 0 (.error "x"), .take, .aim [], .take, .aim []]
    let after : List Move := [.greet "r", .take, .aim [("r", "t")], .call .delivered]
    Arrival 1 (run 1 before) "r" "t" "/" after ∧ (run 1 before).ClearFor "r" "t" "/" after ∧
      ((((run 1 before).joined "r" "t" "/" after).sentTo "t" 0).head?).map (·.job.update.status) =
        some (.error "x") := by
  intro before after
  refine ⟨run_arrival 1 before "r" "t" "/" after ?new, ?clear, by decide⟩
  case new =>
    rintro id ⟨url, hmem⟩
    simp [before] at hmem
  case clear =>
    intro n p hwaiting
    have hlt := (List.getElem?_eq_some_iff.1 hwaiting.1).1
    have hall : (run 1 before).posted.length = (run 1 before).aims.length := by decide
    exact absurd hwaiting.2 (Nat.not_le.2 (hall ▸ hlt))

/-- **A status that a tab has no more can arrive.** Three emissions wait when a connection is
registered. Before the status that it is greeted with it is sent the first of them, which is
over. -/
theorem stale_status_arrives :
    let before : List Move := [.emit 0 .restarting, .emit 0 (.error "x"), .emit 0 .running]
    let after : List Move := [.greet "r", .take, .aim [("r", "t")], .call .delivered]
    let s₀ := run 1 before
    let s := s₀.joined "r" "t" "/" after
    let x : Send := ⟨⟨0, .all, ⟨0, .restarting⟩⟩, "t", .delivered⟩
    (∀ id, ¬ Connected before "t" id) ∧ s₀.store.current 0 = .ok .running ∧
      (s.sentTo "t" 0).head? = some x ∧ x.job.number < s₀.posted.length ∧ ¬ Since s₀ s x := by
  intro before after s₀ s x
  refine ⟨?new, rfl, by decide, by decide, ?since⟩
  case new =>
    rintro id ⟨url, hmem⟩
    simp [before] at hmem
  case since =>
    rintro ⟨e, he, hstatus⟩
    have hhistory : s.history 0 = [.running, .restarting, .error "x", .running] := by decide
    have hedition : s₀.edition 0 = 3 := by decide
    rw [show x.job.update.tab = 0 from rfl, hedition] at he
    rw [show x.job.update.tab = 0 from rfl, hhistory] at hstatus
    obtain rfl | hlarge := Nat.eq_or_lt_of_le he
    · cases hstatus
    · rw [List.getElem?_eq_none hlarge] at hstatus
      cases hstatus

end TabBoard.Traffic
