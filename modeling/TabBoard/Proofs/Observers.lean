import TabBoard.Proofs.Observers.Accounts

/-!
# Observers that subscribe and publish

A publication runs the handlers that were there when it began, whatever they do: subscribe others,
publish smaller events to the same handlers, or break off. One thing alone can end it before all of
them have run: that the panic of a handler breaks off in turn where it is disposed of.

**Theorem (`publish_isolated`).** The handlers of a publication take one turn each, in the order in
which they subscribed, each from where the one before left off (`Course`), up to the first from
which something escapes (`Reached`). Each panic is noted in the log with the position of its
handler. The publication returns how many did not break off, or breaks off itself with what escaped
(`outcome`). A handler that subscribes meanwhile runs only in publications that begin later, nested
ones included (`Account.heard`), and the handlers are afterwards as many more as there were
subscribe steps (`joined`). If no handler leaves anything that escapes, all of them run and the
publication returns (`Whole`).

That last condition is needed: `disposal_ends_publication`.
-/

namespace TabBoard

namespace Observers

variable {σ ε : Type} [WellFoundedRelation ε] {b b' b'' : Observers σ ε}
  {es : List (Entry σ ε)} {k : Nat}

/-! ## Panics of a script -/

/-- A script may break off with a panic, if what it finds makes it do so: with its own, or with one
that escapes from what it publishes. -/
inductive Script.Panics (p : Panic) : {e : ε} → Script σ e → Prop
  | panic {e : ε} : Panics p (.panic p : Script σ e)
  | share {e : ε} {change : σ → σ} {rest : σ → Script σ e} (s : σ) :
      Panics p (rest s) → Panics p (.share change rest)
  | count {e : ε} {rest : Nat → Script σ e} (n : Nat) :
      Panics p (rest n) → Panics p (.count rest)
  | subscribe {e : ε} {h : Handler σ ε} {rest : Script σ e} :
      Panics p rest → Panics p (.subscribe h rest)
  | publish {e e' : ε} {smaller : WellFoundedRelation.rel e' e} {rest : Nat → Script σ e}
      (n : Nat) :
      Panics p (rest n) → Panics p (.publish e' smaller rest)
  | escape {e e' : ε} {smaller : WellFoundedRelation.rel e' e} {rest : Nat → Script σ e}
      (b : Observers σ ε) :
      (b.publish e').1 = .error p → Panics p (.publish e' smaller rest)

/-- **A handler breaks off only with a panic of its own**, or with one that escapes from those to
whom it publishes. -/
theorem panics_of_perform {e : ε} {script : Script σ e} {p : Panic}
    (h : (perform (fun e' _ b => b.publish e') script b).1 = some p) : script.Panics p := by
  induction script generalizing b with
  | finish => cases h
  | panic q =>
    cases h
    exact .panic
  | share change rest ih => exact .share _ (ih b.shared h)
  | count rest ih => exact .count _ (ih b.size h)
  | subscribe handler rest _ ih => exact .subscribe (ih h)
  | publish e' smaller rest ih =>
    rw [perform] at h
    rcases hpublish : b.publish e' with ⟨q | n, b'⟩
    · rw [hpublish] at h
      cases h
      exact .escape b (congrArg Prod.fst hpublish)
    · rw [hpublish] at h
      exact .publish n (ih n h)

/-! ## Subscriptions -/

/-- The handlers of the subscribe steps that are performed with a script, those of what it publishes
included. -/
def Script.joined {e : ε}
    (again : (e' : ε) → WellFoundedRelation.rel e' e → Observers σ ε → List (Handler σ ε)) :
    Script σ e → Observers σ ε → List (Handler σ ε)
  | .finish, _ => []
  | .panic _, _ => []
  | .share change rest, b => (rest b.shared).joined again { b with shared := change b.shared }
  | .count rest, b => (rest b.size).joined again b
  | .subscribe h rest, b => h :: rest.joined again (b.subscribe h)
  | .publish e' smaller rest, b =>
    again e' smaller b ++
      match b.publish e' with
      | (.ok n, b) => (rest n).joined again b
      | (.error _, _) => []

/-- The handlers of the subscribe steps that are performed while an event is published. -/
def joined (e : ε) (b : Observers σ ε) : List (Handler σ ε) :=
  (b.turns e).flatMap fun t =>
    (t.handler e).joined (fun e' _smaller b => b.joined e')
      (t.before.write (.ran b.begun t.handler))
termination_by e
decreasing_by exact _smaller

theorem handlers_perform {e : ε} (script : Script σ e)
    (hpublish : ∀ e', WellFoundedRelation.rel e' e → ∀ b : Observers σ ε,
      (b.publish e').2.handlers = b.handlers ++ b.joined e') (b : Observers σ ε) :
    (perform (fun e' _ b => b.publish e') script b).2.handlers =
      b.handlers ++ script.joined (fun e' _ b => b.joined e') b := by
  induction script generalizing b with
  | finish => exact (List.append_nil _).symm
  | panic p => exact (List.append_nil _).symm
  | share change rest ih => exact ih b.shared hpublish { b with shared := change b.shared }
  | count rest ih => exact ih b.size hpublish b
  | subscribe h rest _ ih =>
    rw [perform, ih hpublish, Script.joined, subscribe, List.append_assoc]
    rfl
  | publish e' smaller rest ih =>
    have hnested := hpublish e' smaller b
    rw [perform, Script.joined]
    rcases hanswer : b.publish e' with ⟨p | n, b'⟩
    · rw [hanswer] at hnested
      exact hnested.trans (by rw [List.append_nil])
    · rw [hanswer] at hnested
      exact (ih n hpublish b').trans (by rw [hnested, List.append_assoc])

@[simp] theorem handlers_left (pos : Nat) (t : Turn (Handler σ ε) (Observers σ ε)) :
    (t.left (note k) pos).handlers = t.after.handlers := by
  rw [Turn.left]
  cases t.ending <;> rfl

theorem handlers_course {e : ε} {pos : Nat} {turns : List (Turn (Handler σ ε) (Observers σ ε))}
    (hpublish : ∀ e', WellFoundedRelation.rel e' e → ∀ b : Observers σ ε,
      (b.publish e').2.handlers = b.handlers ++ b.joined e')
    (h : Course (respond e k) (note k) pos b turns b') :
    b'.handlers = b.handlers ++ turns.flatMap fun t =>
      (t.handler e).joined (fun e' _ b => b.joined e') (t.before.write (.ran k t.handler)) := by
  induction h with
  | nil => exact (List.append_nil _).symm
  | @cons pos t turns s' hrun _ ih =>
    have hafter : t.after.handlers = t.before.handlers ++
        (t.handler e).joined (fun e' _ b => b.joined e') (t.before.write (.ran k t.handler)) := by
      rw [← show (respond e k t.handler t.before).2 = t.after from congrArg Prod.snd hrun]
      exact handlers_perform (t.handler e) hpublish (t.before.write (.ran k t.handler))
    rw [ih, handlers_left, hafter, List.flatMap_cons, List.append_assoc]

/-- **Those whom subscribe steps bring in come behind the others**, and nobody else comes or
goes. -/
theorem handlers_publish (e : ε) (b : Observers σ ε) :
    (b.publish e).2.handlers = b.handlers ++ b.joined e := by
  -- on the event, since handlers publish smaller ones to whoever is there by then
  induction e using (‹WellFoundedRelation ε›.wf).induction generalizing b with
  | _ e ih =>
    rw [handlers_course ih (b.course_turns e), joined]
    rfl

/-! ## Panics that do no harm -/

/-- Whatever a script breaks off with can be disposed of, and so it is with those it subscribes. -/
inductive Script.Tame : {e : ε} → Script σ e → Prop
  | finish {e : ε} : Tame (.finish : Script σ e)
  | panic {e : ε} {p : Panic} : p.disposal? = none → Tame (.panic p : Script σ e)
  | share {e : ε} {change : σ → σ} {rest : σ → Script σ e} :
      (∀ s, Tame (rest s)) → Tame (.share change rest)
  | count {e : ε} {rest : Nat → Script σ e} : (∀ n, Tame (rest n)) → Tame (.count rest)
  | subscribe {e : ε} {h : Handler σ ε} {rest : Script σ e} :
      (∀ e', Tame (h e')) → Tame rest → Tame (.subscribe h rest)
  | publish {e e' : ε} {smaller : WellFoundedRelation.rel e' e} {rest : Nat → Script σ e} :
      (∀ n, Tame (rest n)) → Tame (.publish e' smaller rest)

def Tame (b : Observers σ ε) : Prop := ∀ h ∈ b.handlers, ∀ e, (h e).Tame

/-- Nothing escapes from what the entry notes. -/
def Entry.Harmless : Entry σ ε → Prop
  | .broke _ _ p => p.disposal? = none
  | _ => True

/-- `b'` comes after `b`, with tame handlers, and nothing escaped in between. -/
structure Calm (b b' : Observers σ ε) : Prop where
  tame : b'.Tame
  log : ∃ es, b'.log = b.log ++ es ∧ ∀ entry ∈ es, entry.Harmless

theorem Calm.trans (h : Calm b b') (h' : Calm b' b'') : Calm b b'' where
  tame := h'.tame
  log := by
    obtain ⟨es, hlog, hes⟩ := h.log
    obtain ⟨es', hlog', hes'⟩ := h'.log
    exact ⟨es ++ es', by rw [hlog', hlog, List.append_assoc], List.forall_mem_append.2 ⟨hes, hes'⟩⟩

theorem calm_refl (h : b.Tame) : Calm b b := ⟨h, [], (List.append_nil _).symm, by simp⟩

theorem calm_write (h : b.Tame) {entry : Entry σ ε} (hentry : entry.Harmless) :
    Calm b (b.write entry) :=
  ⟨h, [entry], rfl, List.forall_mem_singleton.2 hentry⟩

theorem calm_subscribe (hb : b.Tame) {h : Handler σ ε} (hh : ∀ e, (h e).Tame) :
    Calm b (b.subscribe h) where
  tame := List.forall_mem_append.2 ⟨hb, List.forall_mem_singleton.2 hh⟩
  log := ⟨[.subscribed h], rfl, List.forall_mem_singleton.2 trivial⟩

/-- Tame handlers can be told of the event, and nothing escapes. -/
def Calms (σ : Type) (e : ε) : Prop :=
  ∀ b : Observers σ ε, b.Tame → (∃ n, (b.publish e).1 = .ok n) ∧ Calm b (b.publish e).2

/-- A tame handler leaves nothing that escapes, if nothing escapes from what it publishes. -/
theorem calm_perform {e : ε} {script : Script σ e} (h : script.Tame)
    (hpublish : ∀ e', WellFoundedRelation.rel e' e → Calms σ e') (hb : b.Tame) :
    ((perform (fun e' _ b => b.publish e') script b).1.bind Panic.disposal? = none) ∧
      Calm b (perform (fun e' _ b => b.publish e') script b).2 := by
  induction h generalizing b with
  | finish => exact ⟨rfl, calm_refl hb⟩
  | panic hp => exact ⟨hp, calm_refl hb⟩
  | @share e change rest _ ih =>
    have hchanged : ({ b with shared := change b.shared } : Observers σ ε).Tame := hb
    obtain ⟨hescape, hcalm⟩ := ih b.shared hpublish hchanged
    exact ⟨hescape, hcalm.tame, hcalm.log⟩
  | count _ ih => exact ih b.size hpublish hb
  | subscribe hh _ _ ih =>
    have hsubscribed := calm_subscribe hb hh
    obtain ⟨hescape, hcalm⟩ := ih hpublish hsubscribed.tame
    exact ⟨hescape, hsubscribed.trans hcalm⟩
  | @publish e e' smaller rest _ ih =>
    obtain ⟨⟨n, hn⟩, hcalm⟩ := hpublish e' smaller b hb
    rw [perform]
    rcases hanswer : b.publish e' with ⟨answer, b'⟩
    rw [hanswer] at hn hcalm
    cases hn
    obtain ⟨hescape, hrest⟩ := ih n hpublish hcalm.tame
    exact ⟨hescape, hcalm.trans hrest⟩

theorem calm_course {e : ε} {pos : Nat} {turns : List (Turn (Handler σ ε) (Observers σ ε))}
    (hpublish : ∀ e', WellFoundedRelation.rel e' e → Calms σ e')
    (h : Course (respond e k) (note k) pos b turns b') (hturns : ∀ t ∈ turns, (t.handler e).Tame)
    (hb : b.Tame) : (∀ t ∈ turns, t.escape? = none) ∧ Calm b b' := by
  induction h with
  | nil => exact ⟨by simp, calm_refl hb⟩
  | @cons pos t turns s' hrun _ ih =>
    obtain ⟨ht, hturns⟩ := List.forall_mem_cons.1 hturns
    have hran : Calm t.before (t.before.write (.ran k t.handler)) := calm_write hb trivial
    have hperform := calm_perform ht hpublish hran.tame
    rw [show perform _ _ _ = (t.ending, t.after) from hrun] at hperform
    obtain ⟨hescape, hafter⟩ := hperform
    have hleft : Calm t.after (t.left (note k) pos) := by
      rw [Turn.left]
      cases hending : t.ending with
      | none => exact calm_refl hafter.tame
      | some p =>
        rw [hending] at hescape
        exact calm_write hafter.tame hescape
    obtain ⟨hrest, hcalm⟩ := ih hturns hleft.tame
    exact ⟨List.forall_mem_cons.2 ⟨hescape, hrest⟩,
      (hran.trans hafter).trans (hleft.trans hcalm)⟩

theorem calm_turns {e : ε} (hpublish : ∀ e', WellFoundedRelation.rel e' e → Calms σ e')
    (hb : b.Tame) :
    (∀ t ∈ b.turns e, t.escape? = none) ∧ Calm b (b.publish e).2 := by
  have hstart : Calm b (b.start e) :=
    ⟨hb, [.began b.begun e], rfl, List.forall_mem_singleton.2 trivial⟩
  have hturns : ∀ t ∈ b.turns e, (t.handler e).Tame := by
    intro t ht
    refine hb t.handler ?_ e
    exact (b.reached_turns e).front.subset (List.mem_map_of_mem ht)
  obtain ⟨hescape, hcalm⟩ := calm_course hpublish (b.course_turns e) hturns hstart.tame
  exact ⟨hescape, hstart.trans hcalm⟩

/-- **Nothing escapes among tame handlers.** -/
theorem calms (e : ε) : Calms σ e := by
  induction e using (‹WellFoundedRelation ε›.wf).induction with
  | _ e ih =>
    intro b hb
    obtain ⟨hescape, hcalm⟩ := calm_turns ih hb
    exact ⟨⟨_, (b.outcome_turns e).trans (outcome_of_none hescape)⟩, hcalm⟩

/-! ## Isolation -/

/-- **Nothing is cut short.** `es` is what the log says of a publication and of all that is
published in it. -/
structure Whole (e : ε) (b : Observers σ ε) (es : List (Entry σ ε)) : Prop where
  /-- All handlers that are there when it begins take a turn. -/
  handlers : (b.turns e).map Turn.handler = b.handlers
  /-- Nothing reaches whoever published. -/
  returned : (b.publish e).1 = .ok ((b.turns e).countP (·.ending.isNone))
  /-- The same is true of the publications in it. -/
  nested : ∀ pre k e' post, es = pre ++ .began k e' :: post →
    post.filterMap (Entry.ran? k) = b.handlers ++ pre.filterMap Entry.subscribed?
  tame : (b.publish e).2.Tame

/-- **What a publication does, and what it keeps apart.** `es` is what the log says of it and of all
that is published in it. -/
structure Isolated (e : ε) (b : Observers σ ε) (es : List (Entry σ ε)) : Prop where
  /-- The handlers that are there when it begins take one turn each, in order, until something
  escapes. -/
  handlers : Reached 0 b.handlers ((b.turns e).map Turn.handler) (breaks 0 (b.turns e))
  /-- Each does with the event what it does, from where the one before left off. -/
  course : Course (respond e b.begun) (note b.begun) 0 (b.start e) (b.turns e) (b.publish e).2
  /-- One breaks off only with a panic of its own, or with what escapes from those it publishes
  to. -/
  panics : ∀ t ∈ b.turns e, ∀ p, t.ending = some p → (t.handler e).Panics p
  /-- The number returned is how many did not break off, unless something escapes. -/
  returned : (b.publish e).1 = outcome (b.turns e)
  log : (b.publish e).2.log = b.log ++ es
  /-- The publication is the first to begin. -/
  first : es.head? = some (.began b.begun e)
  /-- It notes the panics, each with the position of its handler. -/
  broke : es.filterMap (Entry.broke? b.begun) = breaks 0 (b.turns e)
  /-- There is a warning for every panic that is noted, nested publications included. -/
  warnings : (b.publish e).2.warnings = b.warnings ++ es.filterMap (Entry.warning? b.name)
  /-- It and those in it begin in the order of their numbers, and each runs exactly those who had
  subscribed when it began, each of them once and in order, until something escapes. -/
  account : Account none b.handlers b.begun es (b.publish e).2.begun
  /-- Those whom subscribe steps bring in come behind the others. -/
  subscribed : (b.publish e).2.handlers = b.handlers ++ b.joined e
  /-- They are those of whom the log speaks. -/
  joined : es.filterMap Entry.subscribed? = b.joined e
  /-- So there are as many more as subscribe steps were performed. -/
  size : (b.publish e).2.size = b.size + (b.joined e).length
  /-- If no handler leaves anything that escapes, nothing is cut short. -/
  whole : b.Tame → Whole e b es

theorem whole_of_tame {e : ε} (hes : Reports none b es (b.publish e).2) (hb : b.Tame) :
    Whole e b es := by
  obtain ⟨hescape, hcalm⟩ := calm_turns (e := e) (fun e' _ => calms e') hb
  obtain ⟨es', hlog, hharmless⟩ := hcalm.log
  -- both lists are what was added to the log
  obtain rfl : es = es' := List.append_cancel_left (hes.log.symm.trans hlog)
  refine ⟨?_, (b.outcome_turns e).trans (outcome_of_none hescape), ?_, hcalm.tame⟩
  · refine (b.reached_turns e).whole fun x hx => ?_
    obtain ⟨t, ht, hx⟩ := List.mem_filterMap.1 hx
    obtain ⟨p, hp, rfl⟩ := Option.map_eq_some_iff.1 hx
    have hnone := hescape t.1 (List.fst_mem_of_mem_zipIdx ht)
    rwa [Turn.escape?, hp] at hnone
  · intro pre k e' post hsplit
    refine (hes.account.heard pre k e' post hsplit).reached.whole fun x hx => ?_
    obtain ⟨entry, hentry, hx⟩ := List.mem_filterMap.1 hx
    have hentry' : entry.Harmless := by
      refine hharmless entry ?_
      rw [hsplit]
      exact List.mem_append_right _ (.tail _ hentry)
    cases entry with
    | broke j pos p =>
      rw [Entry.broke?] at hx
      split_ifs at hx
      cases hx
      exact hentry'
    | began | ran | subscribed => cases hx

theorem publish_isolated (e : ε) (b : Observers σ ε) : ∃ es, Isolated e b es := by
  obtain ⟨es, hes, hbroke⟩ := exists_entries b fun e' _ b => reports_publish e' b
  have hhandlers := b.handlers_publish e
  refine ⟨.began b.begun e :: es, {
    handlers := b.reached_turns e
    course := b.course_turns e
    panics := ?_
    returned := b.outcome_turns e
    log := hes.log
    first := rfl
    broke := hbroke
    warnings := ?_
    account := hes.account
    subscribed := hhandlers
    joined := List.append_cancel_left (hes.handlers.symm.trans hhandlers)
    size := ?_
    whole := whole_of_tame hes }⟩
  · intro t ht p hp
    have hrun := Course.respond_eq (b.course_turns e) t ht
    exact panics_of_perform ((congrArg Prod.fst hrun).trans hp)
  · rw [Observers.warnings, hes.name, hes.log, List.filterMap_append]
    rfl
  · rw [Observers.size, hhandlers, List.length_append]
    rfl

end Observers

/-- **One who leaves something that breaks off where it is disposed of ends the publication**: the
handler behind it does not run, and whoever published breaks off as well. -/
theorem Bus.disposal_ends_publication :
    let b := (({ name := "n" } : Bus).subscribe (.panic (.bomb .other))).subscribe .nothing
    ((b.publish 1).1, (b.publish 1).2.calls) = (.error .other, [⟨some 0, 1⟩]) := by
  intro b
  rw [publish, Observers.publish]
  rfl

/-- Whoever subscribes during a publication runs in the nested one that begins behind it. -/
example :
    match ((({ name := "n" } : Bus).subscribe .grow).subscribe .republish).publish 1 with
    | (n, b) => n = .ok 2 ∧ b.size = 4 ∧
        b.calls = [⟨some 0, 1⟩, ⟨some 1, 1⟩, ⟨some 0, 0⟩, ⟨some 1, 0⟩, ⟨none, 0⟩] := by
  cbv

end TabBoard
