import TabBoard.Restart.Worker

/-!
# What restarts do, and what undecided events change

A restart reports an outcome at most once, and nothing comes behind it (`concluded_timeline`).

While a restart follows a watch, an event that decides nothing only makes it ask again. Such an
event can be taken out of the script: the outcome stays the same and comes at the same time, as long
as what stands behind the event still arrives when it did. So its delay goes to the next one
(`Script.postpone`).

**Theorem (`outcome?_timeline_append`).** Undecided events at the front of a script do not change
the outcome of the restart.

One event is taken out at a time (`outcome?_follow_undecided`). Either it arrives in time; then the
next question ends at the same deadline as if it had been asked earlier. Or it is late; then
everything behind it is late as well.
-/

namespace TabBoard.Restart

open Cluster (Event)

/-! ## Outcomes -/

def Act.outcome? : Act → Option Outcome
  | .publish o => some o
  | _ => none

/-- The outcome that is reported first, with its time. -/
def outcome? (acts : List (Nat × Act)) : Option (Nat × Outcome) :=
  acts.findSome? fun a => a.2.outcome?.map (a.1, ·)

@[simp] theorem outcome?_ask (now : Nat) (acts : List (Nat × Act)) :
    outcome? ((now, .ask) :: acts) = outcome? acts := rfl

/-! ## Nothing comes behind the outcome -/

/-- An outcome is reported last, if at all. -/
def Concluded (acts : List Act) : Prop :=
  ∀ done o rest, acts = done ++ .publish o :: rest → rest = []

theorem concluded_nil : Concluded [] := by
  intro done o rest h
  simp at h

theorem concluded_publish (o : Outcome) : Concluded [.publish o] := by
  intro done o' rest h
  cases done with
  | nil => exact (List.cons.inj h).2.symm
  | cons a done => simp at h

theorem Concluded.cons {acts : List Act} (h : Concluded acts) {a : Act} (ha : a.outcome? = none) :
    Concluded (a :: acts) := by
  intro done o rest heq
  cases done with
  | nil =>
    rw [(List.cons.inj heq).1] at ha
    cases ha
  | cons a' done => exact h done o rest (List.cons.inj heq).2

/-- The end of a restart that opened its watch. -/
def letGo (now : Nat) (o : Outcome) : List (Nat × Act) := [(now, .stop), (now, .publish o)]

/-- **The guard releases the watch**, whether it is told to stop or only dropped. -/
theorem conclude_eq (now : Nat) {g : WatchGuard} (h : g.held = true) (o : Outcome) :
    conclude now g o = letGo now o := by
  have hdropped : (g.stop.drop).told = g.told ++ [.stop] ∧ g.drop.told = g.told ++ [.stop] := by
    simp [WatchGuard.drop, WatchGuard.stop, WatchGuard.tell, h]
  cases o <;> simp [conclude, letGo, WatchGuard.toldUntil, hdropped]

/-- One question, put through the guard. -/
theorem follow_cons (key : DeploymentKey) (limit : Duration) (target : Int) (deadline now : Nat)
    (b : Behaviour (Option Event)) (bs : List (Behaviour (Option Event))) :
    follow key limit target deadline now (b :: bs) =
      (now, .ask) ::
        match judgeReply key limit target (b.answerBy now deadline).2 with
        | some o => letGo (b.answerBy now deadline).1 o
        | none => follow key limit target deadline (b.answerBy now deadline).1 bs := by
  obtain ⟨asked, hnext, hheld, htold⟩ : ∃ asked,
      ({ asks := b :: bs } : WatchGuard).next = (b.ending, asked) ∧ asked.held = true ∧
        asked.told = [.ask] := by
    cases bs <;> exact ⟨_, rfl, rfl, rfl⟩
  rw [follow]
  simp only [hnext, WatchGuard.toldUntil, htold, conclude_eq _ hheld]
  rfl

theorem concluded_letGo (now : Nat) (o : Outcome) : Concluded ((letGo now o).map (·.2)) :=
  (concluded_publish o).cons rfl

theorem concluded_follow (key : DeploymentKey) (limit : Duration) (target : Int)
    (deadline now : Nat) (bs : List (Behaviour (Option Event))) :
    Concluded ((follow key limit target deadline now bs).map (·.2)) := by
  induction bs generalizing now with
  | nil => exact concluded_letGo now _
  | cons b bs ih =>
    rw [follow_cons, List.map_cons]
    refine Concluded.cons ?_ rfl
    split
    · exact concluded_letGo _ _
    · exact ih _

/-- **A restart reports its outcome last.** -/
theorem concluded_timeline (key : DeploymentKey) (limit : Duration) (s : Script) (start : Nat) :
    Concluded ((timeline key limit s start).map (·.2)) := by
  simp only [timeline, List.map_cons]
  refine Concluded.cons ?_ rfl
  split
  · exact concluded_nil
  · refine Concluded.cons ?_ rfl
    split
    · exact concluded_nil
    · split
      · exact concluded_publish _
      · refine Concluded.cons ?_ rfl
        split
        · exact concluded_follow _ _ _ _ _ _
        · exact concluded_publish _
    · exact concluded_publish _
  · exact concluded_publish _

/-! ## Delays -/

def Behaviour.postpone {α : Type} (delay : Nat) (b : Behaviour α) : Behaviour α :=
  { b with delay := delay + b.delay }

def postponeFirst {α : Type} (delay : Nat) : List (Behaviour α) → List (Behaviour α)
  | [] => []
  | b :: bs => b.postpone delay :: bs

def totalDelay {α : Type} : List (Behaviour α) → Nat
  | [] => 0
  | b :: bs => b.delay + totalDelay bs

/-- The script with its first event later, or with its end later if there are no events. -/
def Script.postpone (delay : Nat) (s : Script) : Script :=
  match s.events with
  | [] => { s with after := s.after.postpone delay }
  | b :: bs => { s with events := b.postpone delay :: bs }

theorem Script.asks_postpone (delay : Nat) (s : Script) :
    (s.postpone delay).asks = postponeFirst delay s.asks := by
  obtain ⟨patch, read, watch, events, after⟩ := s
  cases events <;> rfl

theorem Script.postpone_zero (s : Script) : s.postpone 0 = s := by
  obtain ⟨patch, read, watch, events, after⟩ := s
  cases events <;> simp [Script.postpone, Behaviour.postpone]

theorem postponeFirst_add {α : Type} (m n : Nat) (bs : List (Behaviour α)) :
    postponeFirst m (postponeFirst n bs) = postponeFirst (m + n) bs := by
  cases bs with
  | nil => rfl
  | cons b bs => simp [postponeFirst, Behaviour.postpone, Nat.add_assoc]

/-! ## One undecided event -/

variable {key : DeploymentKey} {limit : Duration} {target : Int} {deadline now : Nat}

/-- The answer is an event that decides nothing. -/
def Behaviour.Undecided (key : DeploymentKey) (target : Int) (b : Behaviour Event) : Prop :=
  ∃ e, b.ending = .value e ∧ judge key target e = none

/-- What an answer that is there in time, or is late, does to a restart. -/
theorem outcome?_follow_cons {b : Behaviour (Option Event)}
    {bs : List (Behaviour (Option Event))} :
    outcome? (follow key limit target deadline now (b :: bs)) =
      match judgeReply key limit target (b.answerBy now deadline).2 with
      | some o => some ((b.answerBy now deadline).1, o)
      | none => outcome? (follow key limit target deadline (b.answerBy now deadline).1 bs) := by
  rw [follow_cons, outcome?_ask]
  cases judgeReply key limit target (b.answerBy now deadline).2 <;> rfl

theorem answerBy_of_value {α : Type} {b : Behaviour α} {a : α} (h : b.ending = .value a) :
    b.answerBy now deadline =
      if now + b.delay ≤ max now deadline then (now + b.delay, .value a)
      else (max now deadline, .late) := by
  simp only [Behaviour.answerBy, Behaviour.answer, h]

theorem Behaviour.map_ending {α β : Type} (f : α → β) {b : Behaviour α} {a : α}
    (h : b.ending = .value a) : (b.map f).ending = .value (f a) := by
  simp only [Behaviour.map, h]

/-- An undecided event that is there in time makes the restart ask again, at that time. -/
theorem outcome?_follow_timely {b : Behaviour Event} (h : b.Undecided key target)
    (htime : now + b.delay ≤ max now deadline) (bs : List (Behaviour (Option Event))) :
    outcome? (follow key limit target deadline now (b.map some :: bs)) =
      outcome? (follow key limit target deadline (now + b.delay) bs) := by
  obtain ⟨e, he, hundecided⟩ := h
  have hanswer : (b.map some).answerBy now deadline = (now + b.delay, .value (some e)) := by
    rw [answerBy_of_value (Behaviour.map_ending some he)]
    exact if_pos htime
  rw [outcome?_follow_cons, hanswer]
  simp only [judgeReply, hundecided]

/-- An undecided event that is late ends the restart at the deadline. -/
theorem outcome?_follow_late {b : Behaviour Event} (h : b.Undecided key target)
    (htime : ¬ now + b.delay ≤ max now deadline) (bs : List (Behaviour (Option Event))) :
    outcome? (follow key limit target deadline now (b.map some :: bs)) =
      some (max now deadline, .failed (.timeout key limit)) := by
  obtain ⟨e, he, -⟩ := h
  have hanswer : (b.map some).answerBy now deadline = (max now deadline, .late) := by
    rw [answerBy_of_value (Behaviour.map_ending some he)]
    exact if_neg htime
  rw [outcome?_follow_cons, hanswer]
  rfl

theorem answerBy_postpone_timely {α : Type} {b : Behaviour α} {delay : Nat}
    (htime : now + delay ≤ max now deadline) :
    (b.postpone delay).answerBy now deadline = b.answerBy (now + delay) deadline := by
  have hmax : max (now + delay) deadline = max now deadline := by omega
  have hadd : now + (delay + b.delay) = now + delay + b.delay := by omega
  unfold Behaviour.answerBy Behaviour.answer Behaviour.postpone
  rw [hmax, hadd]

theorem answerBy_postpone_late {α : Type} {b : Behaviour α} {delay : Nat}
    (htime : ¬ now + delay ≤ max now deadline) :
    (b.postpone delay).answerBy now deadline = (max now deadline, .late) := by
  have hlate : ¬ now + (delay + b.delay) ≤ max now deadline := by omega
  unfold Behaviour.answerBy Behaviour.answer Behaviour.postpone
  cases b.ending <;> simp only [if_neg hlate]

/-- **An undecided event can be taken out**, if its delay goes to what comes next. -/
theorem outcome?_follow_undecided {b : Behaviour Event} (h : b.Undecided key target)
    {bs : List (Behaviour (Option Event))} (hbs : bs ≠ []) :
    outcome? (follow key limit target deadline now (b.map some :: bs)) =
      outcome? (follow key limit target deadline now (postponeFirst b.delay bs)) := by
  obtain ⟨b', rest, rfl⟩ := List.exists_cons_of_ne_nil hbs
  simp only [postponeFirst]
  by_cases htime : now + b.delay ≤ max now deadline
  · rw [outcome?_follow_timely h htime, outcome?_follow_cons, outcome?_follow_cons,
      answerBy_postpone_timely htime]
  · rw [outcome?_follow_late h htime, outcome?_follow_cons, answerBy_postpone_late htime]
    rfl

/-! ## Undecided events at the front -/

theorem outcome?_follow_append {skipped : List (Behaviour Event)}
    (h : ∀ b ∈ skipped, b.Undecided key target) {bs : List (Behaviour (Option Event))}
    (hbs : bs ≠ []) :
    outcome? (follow key limit target deadline now (skipped.map (·.map some) ++ bs)) =
      outcome? (follow key limit target deadline now (postponeFirst (totalDelay skipped) bs)) := by
  induction skipped generalizing now with
  | nil =>
    obtain ⟨b, rest, rfl⟩ := List.exists_cons_of_ne_nil hbs
    simp [totalDelay, postponeFirst, Behaviour.postpone]
  | cons b skipped ih =>
    obtain ⟨hb, hskipped⟩ := List.forall_mem_cons.1 h
    have hbs' : postponeFirst (totalDelay skipped) bs ≠ [] := by
      obtain ⟨b', rest, rfl⟩ := List.exists_cons_of_ne_nil hbs
      exact List.cons_ne_nil _ _
    rw [List.map_cons, List.cons_append, totalDelay, ← postponeFirst_add,
      ← outcome?_follow_undecided hb hbs']
    -- both sides wait for `b` first, and agree on what comes behind it
    by_cases htime : now + b.delay ≤ max now deadline
    · rw [outcome?_follow_timely hb htime, outcome?_follow_timely hb htime, ih hskipped]
    · rw [outcome?_follow_late hb htime, outcome?_follow_late hb htime]

/-- The generation that the events of a watch are judged against, once it was read. -/
def Script.target? (s : Script) : Option Int :=
  match s.read.ending with
  | .value d => d.generation
  | _ => none

theorem Script.target?_of_answer {s : Script} {time : Nat} {d : Deployment}
    (h : s.read.answer now = some (time, .value d)) : s.target? = d.generation := by
  unfold Behaviour.answer at h
  unfold Script.target?
  cases hend : s.read.ending <;> simp_all

/-- Two restarts that differ only in what follows the opening of the watch end alike if that ends
alike. -/
theorem outcome?_timeline_congr {s s' : Script} {start : Nat} (hpatch : s.patch = s'.patch)
    (hread : s.read = s'.read) (hwatch : s.watch = s'.watch)
    (hfollow : ∀ target, s.target? = some target → ∀ now,
      outcome? (follow key limit target (start + limit.millis) now s.asks) =
        outcome? (follow key limit target (start + limit.millis) now s'.asks)) :
    outcome? (timeline key limit s start) = outcome? (timeline key limit s' start) := by
  simp only [timeline, ← hpatch, ← hread, ← hwatch]
  rcases s.patch.answer start with _ | ⟨time, reply⟩
  · rfl
  cases reply with
  | failed | panicked | late => rfl
  | value =>
    dsimp only
    cases hr : s.read.answer time with
    | none => rfl
    | some answer =>
      obtain ⟨time', reply'⟩ := answer
      cases reply' with
      | failed | panicked | late => rfl
      | value d =>
        dsimp only
        cases hd : d.generation with
        | none => rfl
        | some target =>
          dsimp only
          rcases s.watch.answerBy time' (start + limit.millis) with ⟨time'', reply''⟩
          cases reply'' with
          | failed | panicked | late => rfl
          | value => exact hfollow target ((Script.target?_of_answer hr).trans hd) time''

/-- **Undecided events at the front do not change the outcome**, nor when it comes. -/
theorem outcome?_timeline_append (key : DeploymentKey) (limit : Duration) (s : Script)
    (start : Nat) {skipped : List (Behaviour Event)}
    (h : ∀ target, s.target? = some target → ∀ b ∈ skipped, b.Undecided key target) :
    outcome? (timeline key limit { s with events := skipped ++ s.events } start) =
      outcome? (timeline key limit (s.postpone (totalDelay skipped)) start) := by
  have hsame : (s.postpone (totalDelay skipped)).patch = s.patch ∧
      (s.postpone (totalDelay skipped)).read = s.read ∧
      (s.postpone (totalDelay skipped)).watch = s.watch := by
    unfold Script.postpone
    split <;> exact ⟨rfl, rfl, rfl⟩
  refine outcome?_timeline_congr hsame.1.symm hsame.2.1.symm hsame.2.2.symm ?_
  intro target ht now
  have hasks : Script.asks { s with events := skipped ++ s.events } =
      skipped.map (·.map some) ++ s.asks := by simp [Script.asks]
  rw [hasks, Script.asks_postpone]
  exact outcome?_follow_append (h target ht) (by simp [Script.asks])

/-! ## One call after the other -/

/-- What a restart does when a call is answered. It goes on with a value, and publishes what came of
the call otherwise. -/
def onward {α : Type} (key : DeploymentKey) (limit : Duration) (answer : Option (Nat × Reply α))
    (next : Nat → α → List (Nat × Act)) : List (Nat × Act) :=
  match answer with
  | none => []
  | some (time, .value a) => next time a
  | some (time, reply) => [(time, .publish (reply.failure key limit))]

/-- **A restart goes on from one call to the next.** -/
theorem timeline_eq (key : DeploymentKey) (limit : Duration) (s : Script) (start : Nat) :
    timeline key limit s start =
      (start, .patch) :: onward key limit (s.patch.answer start) fun now _ =>
        (now, .read) :: onward key limit (s.read.answer now) fun now d =>
          match d.generation with
          | none => [(now, .publish (.failed (.failed key "deployment reports no generation")))]
          | some target =>
            (now, .watch (start + limit.millis - now)) ::
              onward key limit (some (s.watch.answerBy now (start + limit.millis))) fun now _ =>
                follow key limit target (start + limit.millis) now s.asks := by
  simp only [timeline]
  rcases s.patch.answer start with _ | ⟨time, reply⟩
  · rfl
  cases reply with
  | failed | panicked | late => rfl
  | value =>
    simp only [onward]
    rcases s.read.answer time with _ | ⟨time', reply'⟩
    · rfl
    cases reply' with
    | failed | panicked | late => rfl
    | value d =>
      dsimp only
      cases d.generation with
      | none => rfl
      | some target =>
        dsimp only
        rcases s.watch.answerBy time' (start + limit.millis) with ⟨time'', reply''⟩
        cases reply'' <;> rfl

end TabBoard.Restart
