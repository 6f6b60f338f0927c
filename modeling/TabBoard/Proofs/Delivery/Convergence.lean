import TabBoard.Proofs.Delivery.Coverage

/-!
# Order, completeness and convergence at the gateway

**Theorem (`run_delivers`).** Whatever the schedule:

* each token is told the statuses of a tab in the order in which the tab had them;
* an emission is sent exactly once to every token that stays registered until the dispatcher looks
  whom it goes to, and nothing is ever sent twice;
* when the outbox is empty, the dispatcher idle and everyone greeted, the last status that a
  registered token was told of a tab is the current one.

The first part holds since calls come in the order of the items and items in the order of the
history. The second follows the item from its emission to the moment it is aimed. For the third,
everyone is covered: with an empty outbox an item with the last edition was aimed at the token, and
with an idle dispatcher it was sent.
-/

namespace TabBoard.Traffic

open Registry (Reaches)

variable {tabs : Nat} {s : Traffic} {n : Nat} {token : String} {tab : Nat}

/-! ## Order -/

theorem Truthful.edition_mono (h : Truthful tabs s) {m : Nat} {p q : Posted}
    (hp : s.posted[n]? = some p) (hq : s.posted[m]? = some q) (hnm : n ≤ m)
    (htab : p.update.tab = q.update.tab) : p.edition ≤ q.edition := by
  obtain ⟨hn, rfl⟩ := List.getElem?_eq_some_iff.1 hp
  obtain ⟨hm, rfl⟩ := List.getElem?_eq_some_iff.1 hq
  rcases Nat.lt_or_eq_of_le hnm with hlt | rfl
  · exact List.pairwise_iff_getElem.1 h.ordered n m hn hm hlt htab
  · exact Nat.le_refl _

/-- A call tells the status of its edition, which the tab has seen. -/
theorem Sound.edition_of_send (h : Sound tabs s) {x : Send} (hx : x ∈ s.sends) :
    s.editionOf x ≤ s.edition x.job.update.tab ∧
      (s.history x.job.update.tab)[s.editionOf x]? = some x.job.update.status := by
  obtain ⟨p, hp, -, hupdate⟩ := (h.dispatched.sends x hx).1
  have hmem : p ∈ s.posted := List.mem_of_getElem? hp
  have hedition : s.editionOf x = p.edition := by simp [editionOf, hp]
  rw [hedition, ← hupdate]
  exact ⟨h.stamped.edition_le p hmem, h.stamped.status p hmem⟩

/-- **A token is told the statuses of a tab in order.** -/
theorem Sound.ordered (h : Sound tabs s) (token : String) (tab : Nat) :
    (s.sentTo token tab).Pairwise fun x y => s.editionOf x ≤ s.editionOf y := by
  have hmem : ∀ x ∈ s.sentTo token tab, x ∈ s.sends ∧ x.job.update.tab = tab := by
    intro x hx
    simp only [sentTo, List.mem_filter, decide_eq_true_eq] at hx
    exact ⟨hx.1, hx.2.2⟩
  have hcalls : (s.sentTo token tab).Pairwise (·.job.number ≤ ·.job.number) :=
    h.dispatched.ordered.filter _
  refine hcalls.imp_of_mem ?_
  intro x y hx hy hle
  obtain ⟨p, hp, -, hpu⟩ := (h.dispatched.sends x (hmem x hx).1).1
  obtain ⟨q, hq, -, hqu⟩ := (h.dispatched.sends y (hmem y hy).1).1
  have htab : p.update.tab = q.update.tab := by
    rw [hpu, hqu, (hmem x hx).2, (hmem y hy).2]
  simp only [editionOf, hp, hq, Option.map_some, Option.getD_some]
  exact h.stamped.edition_mono hp hq hle htab

/-! ## Completeness -/

/-- The calls to the gateway with one item and one token. -/
def callsWith (s : Traffic) (n : Nat) (token : String) : List Send :=
  s.sends.filter fun x => x.job.number = n ∧ x.token = token

theorem length_callsWith (s : Traffic) (n : Nat) (token : String) :
    (s.callsWith n token).length = ((s.callsFor n).map (·.token)).count token := by
  simp only [callsWith, callsFor, List.count, List.countP_map, List.countP_filter,
    ← List.countP_eq_length_filter]
  refine List.countP_congr ?_
  intro x _
  simp [and_comm]

theorem Dispatched.nodup_aim (h : Dispatched s) (n : Nat) : ((s.aim n).map (·.2)).Nodup := by
  unfold Traffic.aim
  cases haim : s.aims[n]? with
  | none => exact List.nodup_nil
  | some targets => exact h.distinct targets (List.mem_of_getElem? haim)

/-- **Nothing is sent to a token twice.** -/
theorem Dispatched.length_callsWith_le (h : Dispatched s) (n : Nat) (token : String) :
    (s.callsWith n token).length ≤ 1 := by
  have hnodup := h.nodup_aim n
  rw [← h.served n] at hnodup
  rw [length_callsWith]
  exact List.nodup_iff_count_le_one.1 (List.nodup_append.1 hnodup).1 token

/-- A call with an item tells what the item says. -/
theorem Dispatched.of_mem_callsWith (h : Dispatched s) {p : Posted} (hp : s.posted[n]? = some p)
    {x : Send} (hx : x ∈ s.callsWith n token) :
    x ∈ s.sends ∧ x.token = token ∧ s.editionOf x = p.edition ∧ x.job.whom = p.whom ∧
      x.job.update = p.update := by
  simp only [callsWith, List.mem_filter, decide_eq_true_eq] at hx
  obtain ⟨hsent, hnumber, htoken⟩ := hx
  obtain ⟨q, hq, hwhom, hupdate⟩ := (h.sends x hsent).1
  rw [hnumber, hp] at hq
  obtain rfl := Option.some.inj hq
  refine ⟨hsent, htoken, ?_, hwhom.symm, hupdate.symm⟩
  simp only [editionOf, hnumber, hp, Option.map_some, Option.getD_some]

/-- An item that is done was sent once to each token it was aimed at. -/
theorem Dispatched.callsWith_of_done (h : Dispatched s) (hdone : s.Done n)
    (haimed : token ∈ (s.aim n).map (·.2)) : ∃ x, s.callsWith n token = [x] := by
  rw [← h.served n, hdone.2, List.map_nil, List.append_nil] at haimed
  have hpos := List.count_pos_iff.2 haimed
  rw [← length_callsWith] at hpos
  exact List.length_eq_one_iff.1 (Nat.le_antisymm (h.length_callsWith_le n token) hpos)

theorem Makes.posted {s' : Traffic} {m : Move} (h : s.Makes m s') : s.posted <+: s'.posted := by
  cases h with
  | emit | replay | greet => exact List.prefix_append _ _
  | nothing | change | take | aim | call | settle => exact List.prefix_refl _

theorem posted_moves (s : Traffic) (ms : List Move) : s.posted <+: (s.moves ms).posted := by
  induction ms generalizing s with
  | nil => exact List.prefix_refl _
  | cons m ms ih => exact (s.makes_step m).posted.trans (ih _)

theorem getElem?_posted_moves {p : Posted} (hp : s.posted[n]? = some p) (ms : List Move) :
    (s.moves ms).posted[n]? = some p := by
  obtain ⟨more, hmore⟩ := s.posted_moves ms
  rw [← hmore, List.getElem?_append_left (List.getElem?_eq_some_iff.1 hp).1]
  exact hp

/-- A move aims one item at the targets that it has now, or none. -/
theorem Makes.aims {s' : Traffic} {m : Move} (h : s.Makes m s') : s'.aims = s.aims ∨
    ∃ j order, s.dispatcher = .holding j ∧
      order.Perm (s.registry.targets j.whom none) ∧ s'.aims = s.aims ++ [order] := by
  cases h with
  | aim hholding horder => exact .inr ⟨_, _, hholding, horder, rfl⟩
  | nothing | emit | change | replay | greet | take | call | settle => exact .inl rfl

/-- What an item was aimed at stays, and a token that the item is for when it is aimed is in it. -/
theorem Sound.aim_step (h : Sound tabs s) {p : Posted} (hp : s.posted[n]? = some p)
    (hbefore : s.Aimed n → token ∈ (s.aim n).map (·.2))
    (hstays : ¬ s.Aimed n → ∃ id, Reaches p.whom id ∧ s.registry.tokens.get? token = some id)
    (m : Move) (haimed : (s.step m).Aimed n) : token ∈ ((s.step m).aim n).map (·.2) := by
  rcases (s.makes_step m).aims with hsame | ⟨j, order, hholding, horder, hnew⟩
  · rw [Aimed, hsame] at haimed
    rw [Traffic.aim, hsame]
    exact hbefore haimed
  · obtain ⟨⟨q, hq, hwhom, -⟩, hnumber⟩ := h.dispatched.number_of_holding hholding
    rw [Traffic.aim, hnew, getD_getElem?_concat]
    by_cases hn : s.aims.length = n
    · -- it is aimed now
      rw [hnumber, hn, hp] at hq
      obtain rfl := Option.some.inj hq
      rw [if_pos hn, (horder.map _).mem_iff, h.registry.mem_targets, ← hwhom]
      exact hstays (by simp [Aimed, hn])
    · have hold : s.Aimed n := by
        rw [Aimed, hnew, List.length_append, List.length_singleton] at haimed
        unfold Aimed
        omega
      rw [if_neg hn]
      exact hbefore hold

/-- **An item is aimed at every token that it is for until then.** -/
theorem Sound.aim_moves (h : Sound tabs s) {p : Posted} (hp : s.posted[n]? = some p)
    (hbefore : s.Aimed n → token ∈ (s.aim n).map (·.2)) (ms : List Move)
    (hstays : ∀ l l', ms = l ++ l' → ¬ (s.moves l).Aimed n →
      ∃ id, Reaches p.whom id ∧ (s.moves l).registry.tokens.get? token = some id)
    (haimed : (s.moves ms).Aimed n) : token ∈ ((s.moves ms).aim n).map (·.2) := by
  induction ms generalizing s with
  | nil => exact hbefore haimed
  | cons m ms ih =>
    have hp' : (s.step m).posted[n]? = some p := getElem?_posted_moves hp [m]
    have hnow := h.aim_step hp hbefore (hstays [] (m :: ms) rfl) m
    exact ih (h.step m) hp' hnow (fun l l' hl => hstays (m :: l) l' (congrArg _ hl)) haimed

/-- A broadcast is for everyone who is registered. -/
theorem Registered.reached {p : Posted} (h : s.Registered token) (hall : p.whom = .all) :
    ∃ id, Reaches p.whom id ∧ s.registry.tokens.get? token = some id := by
  obtain ⟨id, hid⟩ := Option.isSome_iff_exists.1 h
  rw [hall]
  exact ⟨id, trivial, hid⟩

/-- **An emission is sent exactly once** to every token that stays registered until it is aimed. -/
theorem Sound.sent_once (h : Sound tabs s) (htab : tab < tabs) (status : Status) (ms : List Move)
    (hstays : ∀ l l', ms = l ++ l' → ¬ ((s.step (.emit tab status)).moves l).Aimed s.posted.length →
      ((s.step (.emit tab status)).moves l).Registered token)
    (hdone : ((s.step (.emit tab status)).moves ms).Done s.posted.length) :
    ∃ x, ((s.step (.emit tab status)).moves ms).callsWith s.posted.length token = [x] ∧
      x.job.whom = .all ∧ x.job.update = ⟨tab, status⟩ := by
  have hemit : s.step (.emit tab status) =
      (s.noted ⟨tab, status⟩).queue (s.store.emitted tab status) := by
    have hok : s.store.emit tab status = .ok (s.store.emitted tab status) :=
      Store.emit_ok_iff.2 ⟨Nat.lt_of_lt_of_eq htab h.stamped.size.symm, rfl⟩
    simp only [Traffic.step, hok]
    rfl
  -- the item of the emission is queued, and is not aimed yet
  obtain ⟨p, hp, hall, hupdate⟩ : ∃ p, (s.step (.emit tab status)).posted[s.posted.length]? =
      some p ∧ p.whom = .all ∧ p.update = ⟨tab, status⟩ := by
    refine ⟨(s.noted ⟨tab, status⟩).stamp (.all, ⟨tab, status⟩), ?_, rfl, rfl⟩
    simp only [hemit, queue, Store.outbox_emitted h.stamped.external, noted, List.drop_left]
    exact List.getElem?_concat_length
  have hnot : ¬ (s.step (.emit tab status)).Aimed s.posted.length := by
    have haims : (s.step (.emit tab status)).aims = s.aims := by
      rw [hemit]
      rfl
    have htaken := h.dispatched.taken
    have hle := h.dispatched.taken_le
    rw [Aimed, haims]
    omega
  have hstart := h.step (.emit tab status)
  generalize s.step (.emit tab status) = s₁ at hstays hdone hp hnot hstart
  have haimed := hstart.aim_moves hp (fun haimed => absurd haimed hnot) ms
    (fun l l' hl hnow => (hstays l l' hl hnow).reached hall) hdone.1
  have hsound := hstart.moves ms
  obtain ⟨x, hx⟩ := hsound.dispatched.callsWith_of_done hdone haimed
  -- the item is where it was
  have hp' := getElem?_posted_moves hp ms
  have hmem : x ∈ (s₁.moves ms).callsWith s.posted.length token := by simp [hx]
  obtain ⟨-, -, -, hxwhom, hxupdate⟩ := hsound.dispatched.of_mem_callsWith hp' hmem
  exact ⟨x, hx, hxwhom.trans hall, hxupdate.trans hupdate⟩

/-! ## Convergence -/

/-- **When nothing is under way, every item is done.** -/
theorem Dispatched.done_of_quiet (h : Dispatched s) (hquiet : s.Quiet) (hn : n < s.posted.length) :
    s.Done n := by
  have houtbox := h.outbox
  rw [hquiet.outbox] at houtbox
  have hall := List.drop_eq_nil_iff.1 (List.map_eq_nil_iff.1 houtbox.symm)
  have htaken := h.taken
  rw [hquiet.dispatcher] at htaken
  have haimed : s.Aimed n := Nat.lt_of_lt_of_le hn (Nat.le_trans hall (Nat.le_of_eq htaken))
  refine ⟨haimed, ?_⟩
  rw [hquiet.dispatcher]
  rfl

/-- When nothing is under way, whoever is registered was told the last edition of every tab. -/
theorem Sound.told_of_quiet (h : Sound tabs s) (hquiet : s.Quiet) (hregistered : s.Registered token)
    (htab : tab < tabs) : ∃ x ∈ s.sentTo token tab, s.editionOf x = s.edition tab := by
  obtain ⟨id, hid⟩ := Option.isSome_iff_exists.1 hregistered
  rcases h.covered token id hid with hgreeting | hinformed
  · rw [hquiet.greeting] at hgreeting
    cases hgreeting
  obtain ⟨n, p, hp, rfl, hedition, hgoes⟩ := hinformed tab htab
  have hdone := h.dispatched.done_of_quiet hquiet (List.getElem?_eq_some_iff.1 hp).1
  have haimed : token ∈ (s.aim n).map (·.2) :=
    hgoes.resolve_left fun hqueued => absurd hdone.1 (Nat.not_lt.2 hqueued.1)
  obtain ⟨x, hx⟩ := h.dispatched.callsWith_of_done hdone haimed
  have hmem : x ∈ s.callsWith n token := by simp [hx]
  obtain ⟨hsent, htoken, hxedition, -, hupdate⟩ := h.dispatched.of_mem_callsWith hp hmem
  exact ⟨x, List.mem_filter.2 ⟨hsent, by simp [htoken, hupdate]⟩, hxedition.trans hedition⟩

/-- **When nothing is under way, everyone was told the current statuses last.** -/
theorem Sound.converged (h : Sound tabs s) (hquiet : s.Quiet) (hregistered : s.Registered token)
    (htab : tab < tabs) :
    ∃ x, (s.sentTo token tab).getLast? = some x ∧
      s.store.current tab = .ok x.job.update.status := by
  obtain ⟨x, hx, hedition⟩ := h.told_of_quiet hquiet hregistered htab
  have hordered := h.ordered token tab
  rcases List.eq_nil_or_concat (s.sentTo token tab) with hnil | ⟨earlier, y, hlast⟩
  · rw [hnil] at hx
    cases hx
  rw [List.concat_eq_append] at hlast
  have hy : y ∈ s.sentTo token tab := by simp [hlast]
  obtain ⟨hsent, htold⟩ := List.mem_filter.1 hy
  rw [decide_eq_true_eq] at htold
  obtain ⟨hle, hstatus⟩ := h.edition_of_send hsent
  rw [htold.2] at hle hstatus
  -- the last call told the last edition, since an earlier one did
  have hge : s.edition tab ≤ s.editionOf y := by
    rw [← hedition]
    rw [hlast, List.pairwise_append] at hordered
    rw [hlast, List.mem_append, List.mem_singleton] at hx
    rcases hx with hearlier | rfl
    · exact hordered.2.2 x hearlier y (List.mem_singleton_self y)
    · exact Nat.le_refl _
  rw [Nat.le_antisymm hle hge] at hstatus
  refine ⟨y, by rw [hlast, List.getLast?_concat], Store.current_eq_ok_iff.2 ?_⟩
  rw [h.stamped.current tab htab]
  exact hstatus

/-! ## All together -/

/-- **Statuses arrive in order, none is lost, and everyone ends up with the current ones**, whatever
happens in between. -/
theorem run_delivers (tabs : Nat) (ms : List Move) :
    let s := run tabs ms
    -- each token is told the statuses of a tab in the order in which the tab had them
    (∀ token tab,
      ((s.sentTo token tab).Pairwise fun x y => s.editionOf x ≤ s.editionOf y) ∧
      ∀ x ∈ s.sentTo token tab, (s.history tab)[s.editionOf x]? = some x.job.update.status) ∧
    -- no item is sent to a token twice
    (∀ n token, (s.callsWith n token).length ≤ 1) ∧
    -- an emission is sent once to every token that stays registered until it is aimed
    (∀ before tab status after token, ms = before ++ .emit tab status :: after → tab < tabs →
      let n := (run tabs before).posted.length
      (∀ l l', after = l ++ l' →
        ¬ (run tabs (before ++ .emit tab status :: l)).Aimed n →
        (run tabs (before ++ .emit tab status :: l)).Registered token) →
      s.Done n →
      ∃ x, s.callsWith n token = [x] ∧ x.job.whom = .all ∧ x.job.update = ⟨tab, status⟩) ∧
    -- when nothing is under way, no item was left out
    (s.Quiet → ∀ n < s.posted.length, s.Done n) ∧
    -- when nothing is under way, the last status that a token was told of a tab is the current one
    (s.Quiet → ∀ token tab, s.Registered token → tab < tabs →
      ∃ x, (s.sentTo token tab).getLast? = some x ∧
        s.store.current tab = .ok x.job.update.status) := by
  have h := sound_run tabs ms
  refine ⟨fun token tab => ⟨h.ordered token tab, ?_⟩, h.dispatched.length_callsWith_le, ?_,
    fun hquiet n hn => h.dispatched.done_of_quiet hquiet hn,
    fun hquiet token tab hregistered htab => h.converged hquiet hregistered htab⟩
  · intro x hx
    obtain ⟨hsent, htold⟩ := List.mem_filter.1 hx
    rw [decide_eq_true_eq] at htold
    have hstatus := (h.edition_of_send hsent).2
    rwa [htold.2] at hstatus
  · intro before tab status after token hms htab n hstays hdone
    have hrun : ∀ l, run tabs (before ++ .emit tab status :: l) =
        ((run tabs before).step (.emit tab status)).moves l := by
      intro l
      simp only [run, moves, List.foldl_append, List.foldl_cons]
    subst hms
    simp only [hrun] at hstays hdone ⊢
    exact (sound_run tabs before).sent_once htab status after hstays hdone

/-- One client connects and is greeted, and then the tab is restarted: both items reach the client,
and in the end nothing is under way. -/
theorem run_delivers_greeted :
    let before : List Move := [.change (.connect "r" "t" "/"), .greet "r"]
    let sending : List Move := [.take, .aim [("r", "t")], .call .delivered, .settle]
    let s := run 1 (before ++ .emit 0 .restarting :: (sending ++ sending))
    s.Quiet ∧ s.Registered "t" ∧ s.Done 1 ∧
      (∃ x, s.callsWith 1 "t" = [x] ∧ x.job.whom = .all ∧ x.job.update = ⟨0, .restarting⟩) ∧
      ∃ x, (s.sentTo "t" 0).getLast? = some x ∧
        s.store.current 0 = .ok x.job.update.status := by
  intro before sending s
  obtain ⟨-, -, honce, hdone, hcurrent⟩ :=
    run_delivers 1 (before ++ .emit 0 .restarting :: (sending ++ sending))
  have hquiet : s.Quiet := ⟨by decide, by decide, by decide⟩
  have hregistered : s.Registered "t" := by
    unfold Registered
    decide
  have hposted : (run 1 before).posted.length = 1 := by decide
  have hitem : s.Done 1 := hdone hquiet 1 (by decide)
  have hstays : ∀ k < 9, (run 1 (before ++ .emit 0 .restarting ::
      (sending ++ sending).take k)).Registered "t" := by
    unfold Registered
    decide
  refine ⟨hquiet, hregistered, hitem, ?_, hcurrent hquiet "t" 0 hregistered (by decide)⟩
  have hsent := honce before 0 .restarting (sending ++ sending) "t" rfl (by decide)
  simp only [hposted] at hsent
  refine hsent ?_ hitem
  intro l l' hsplit _
  have hlength : l.length < 9 := by
    have htotal : l.length + l'.length = 8 := by
      rw [← List.length_append, ← hsplit]
      rfl
    omega
  have hl : (sending ++ sending).take l.length = l := by rw [hsplit, List.take_left]
  rw [← hl]
  exact hstays l.length hlength

end TabBoard.Traffic
