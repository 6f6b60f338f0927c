import TabBoard.Proofs.Restart.Outcome

/-!
# What the deadline of a restart does

A restart has no limit on its first two calls. From then on it waits until the deadline at most, but
it looks at an answer before it looks at the clock. So what is there at once still counts when the
deadline has passed, and the last moment at which anything counts (`Script.last`) is the deadline,
or the end of the first two calls if they outlast it.

**Theorem (`timeline_punctual`).** The status that is published, and when, is read off the first
element that settles one (`First`): its own status when it comes, if that is by the last moment, and
otherwise the timeout at the last moment (`Tells`). If the first two calls are answered by the
deadline, the last moment is the deadline. An endless supply of undecided events that are there at
once is never broken off: the restart asks and asks and no time passes.

A deployment that became ready can therefore be reported after the deadline
(`late_rollout_runs`).

The wait for the watch and each wait for an event are one argument (`tells_late`, `answerBy_cases`);
the events are an induction.
-/

namespace TabBoard.Restart

open Cluster (Event)

/-! ## When elements come -/

/-- The status that is published, with its time. -/
def published? (acts : List (Nat × Act)) : Option (Nat × Status) :=
  (outcome? acts).map fun p => (p.1, p.2.status)

/-- How long the elements take together. -/
def spent : List Element → Nat
  | [] => 0
  | y :: es => y.delay + spent es

/-- The time at which the first two calls are answered. -/
def Script.prepared (s : Script) (start : Nat) : Nat := start + s.patch.delay + s.read.delay

/-- The last moment at which something counts. -/
def Script.last (s : Script) (limit : Duration) (start : Nat) : Nat :=
  max (s.prepared start) (start + limit.millis)

/-- What is told of an element that comes at `arrival` and is waited for until `last`. -/
structure Tells (key : DeploymentKey) (limit : Duration) (last arrival : Nat) (x : Element)
    (status : Status) (told : Option (Nat × Status)) : Prop where
  inTime : ¬ x.Hangs → arrival ≤ last → told = some (arrival, status)
  late : x.Hangs ∨ last < arrival → told = some (last, timeoutStatus key limit)

section

variable {α : Type} {key : DeploymentKey} {limit : Duration} {s : Script} {start : Nat}
  {seen rest : List Element} {x y : Element} {status : Status} {target : Int}
  {now deadline last : Nat} {settles : Element → Option Status}

@[simp] theorem published?_cons {a : Act} (ha : a.outcome? = none) (time : Nat)
    (acts : List (Nat × Act)) : published? ((time, a) :: acts) = published? acts := by
  simp [published?, outcome?, ha]

@[simp] theorem published?_publish (time : Nat) (o : Outcome) :
    published? [(time, .publish o)] = some (time, o.status) := rfl

@[simp] theorem spent_nil : spent [] = 0 := rfl

@[simp] theorem spent_cons (y : Element) (es : List Element) :
    spent (y :: es) = y.delay + spent es := rfl

/-! ## One wait -/

/-- An answer is there by the last moment, or the last moment is all there is. -/
theorem answerBy_cases (b : Behaviour α) (now deadline : Nat) :
    (b.ending ≠ .never ∧ now + b.delay ≤ max now deadline ∧
      b.answerBy now deadline = (now + b.delay, b.ending.reply)) ∨
    ((b.ending = .never ∨ max now deadline < now + b.delay) ∧
      b.answerBy now deadline = (max now deadline, .late)) := by
  by_cases hnever : b.ending = .never
  · refine .inr ⟨.inl hnever, ?_⟩
    simp only [Behaviour.answerBy, Behaviour.answer, hnever]
  · by_cases htime : now + b.delay ≤ max now deadline
    · refine .inl ⟨hnever, htime, ?_⟩
      simp only [Behaviour.answerBy, answer_of_ne b hnever, if_pos htime]
    · refine .inr ⟨.inr (Nat.lt_of_not_le htime), ?_⟩
      simp only [Behaviour.answerBy, answer_of_ne b hnever, if_neg htime]

/-- An element that never comes settles a timeout. -/
theorem settles_of_hangs {target : Option Int} (h : y.Hangs) :
    Element.settles key limit target y = some (timeoutStatus key limit) := by
  cases y with
  | patched b | found b | opened b | told b =>
    simp only [Element.Hangs] at h
    simp only [Element.settles, h, Ending.settles]

/-- The element that settles a status comes no sooner than the one that is waited for. -/
theorem First.delay_le (h : First settles (y :: rest) seen x status) :
    y.delay ≤ spent (seen ++ [x]) := by
  cases h with
  | here hx => simp
  | later hy h => simp

/-- **A wait that ends at the last moment tells a timeout.** -/
theorem tells_late
    (hfirst : First (Element.settles key limit (some target)) (y :: rest) seen x status)
    (hlate : y.Hangs ∨ last < now + y.delay) :
    Tells key limit last (now + spent (seen ++ [x])) x status
      (some (last, timeoutStatus key limit)) := by
  refine ⟨?_, fun _ => rfl⟩
  intro hcomes htime
  rcases hlate with hhangs | hlong
  · obtain ⟨-, rfl, -⟩ := hfirst.of_some (settles_of_hangs hhangs)
    exact absurd hhangs hcomes
  · have hdelay := hfirst.delay_le
    omega

/-- An element that comes in time and settles a status tells it. -/
theorem tells_inTime (hcomes : ¬ x.Hangs) (htime : now + x.delay ≤ last) :
    Tells key limit last (now + spent [x]) x status (some (now + x.delay, status)) := by
  refine ⟨fun _ _ => by simp, ?_⟩
  rintro (hhangs | hlong)
  · exact absurd hhangs hcomes
  · simp only [spent_cons, spent_nil] at hlong
    omega

/-! ## One wait after the other -/

/-- What the first answer of a watch decides is told at once, and otherwise the next one. -/
theorem published?_follow_cons {b : Behaviour (Option Event)}
    {bs : List (Behaviour (Option Event))} :
    published? (follow key limit target deadline now (b :: bs)) =
      match judgeReply key limit target (b.answerBy now deadline).2 with
      | some o => some ((b.answerBy now deadline).1, o.status)
      | none => published? (follow key limit target deadline (b.answerBy now deadline).1 bs) := by
  unfold published?
  rw [outcome?_follow_cons]
  cases judgeReply key limit target (b.answerBy now deadline).2 <;> rfl

/-- **What a watch tells is read off the first element that settles a status.** -/
theorem follow_tells {asks : List (Behaviour (Option Event))}
    (hfirst : First (Element.settles key limit (some target)) (asks.map .told) seen x status) :
    Tells key limit (max now deadline) (now + spent (seen ++ [x])) x status
      (published? (follow key limit target deadline now asks)) := by
  induction asks generalizing seen now with
  | nil => cases hfirst
  | cons b asks ih =>
    rw [published?_follow_cons]
    rcases answerBy_cases b now deadline with ⟨hcomes, htime, hanswer⟩ | ⟨hlate, hanswer⟩
    · have hjudge := judgeReply_reply key limit target b.ending
      rw [hanswer]
      cases hfirst with
      | here hx =>
        obtain ⟨o, ho, rfl⟩ := Option.map_eq_some_iff.1 (hjudge.trans hx)
        simp only [ho]
        exact tells_inTime hcomes htime
      | later hy hrest =>
        have hundecided := Option.map_eq_none_iff.1 (hjudge.trans hy)
        have hlast : max now deadline = max (now + b.delay) deadline := by omega
        simp only [hundecided]
        rw [hlast, List.cons_append, spent_cons, ← Nat.add_assoc]
        exact ih hrest
    · rw [hanswer]
      exact tells_late hfirst hlate

/-- **What the third call and the watch tell**, once the first two calls are answered. -/
theorem watch_tells
    (hfirst : First (Element.settles key limit (some target))
      (.opened s.watch :: s.asks.map .told) seen x status) :
    Tells key limit (max now deadline) (now + spent (seen ++ [x])) x status
      (published? (onward key limit (some (s.watch.answerBy now deadline))
        fun now _ => follow key limit target deadline now s.asks)) := by
  rcases answerBy_cases s.watch now deadline with ⟨hcomes, htime, hanswer⟩ | ⟨hlate, hanswer⟩
  · rw [hanswer]
    cases hending : s.watch.ending with
    | value u =>
      have hnone : Element.settles key limit (some target) (.opened s.watch) = none :=
        settles_of_value hending
      obtain ⟨seen, rfl, hrest⟩ := hfirst.of_none hnone
      have hlast : max now deadline = max (now + s.watch.delay) deadline := by omega
      rw [hlast, List.cons_append, spent_cons, ← Nat.add_assoc]
      exact follow_tells hrest
    | failed | panicked =>
      have hsome : Element.settles key limit (some target) (.opened s.watch) = _ :=
        congrArg (Ending.settles key limit _) hending
      obtain ⟨rfl, rfl, rfl⟩ := hfirst.of_some hsome
      exact tells_inTime hcomes htime
    | never => exact absurd hending hcomes
  · rw [hanswer]
    exact tells_late hfirst hlate

/-! ## One call after the other -/

/-- What is told of an element that is waited for without a limit. -/
structure TellsAlways (arrival : Nat) (x : Element) (status : Status)
    (told : Option (Nat × Status)) : Prop where
  comes : ¬ x.Hangs → told = some (arrival, status)
  hangs : x.Hangs → told = none

/-- What is told of the first element that settles a status. -/
structure Settles (key : DeploymentKey) (limit : Duration) (last arrival : Nat) (x : Element)
    (status : Status) (told : Option (Nat × Status)) : Prop where
  limited : x.Limited → Tells key limit last arrival x status told
  unlimited : ¬ x.Limited → TellsAlways arrival x status told

theorem settles_of_limited {arrival : Nat} {told : Option (Nat × Status)} (hx : x.Limited)
    (h : Tells key limit last arrival x status told) :
    Settles key limit last arrival x status told := ⟨fun _ => h, fun hnot => (hnot hx).elim⟩

/-- **A call without a limit tells what it settles**, or it is enough to look behind its value. -/
theorem onward_settles {b : Behaviour α} {settle : α → Option Status} {a : Act}
    {next : Nat → α → List (Nat × Act)} (hlimit : ¬ y.Limited)
    (hhangs : y.Hangs ↔ b.ending = .never) (hdelay : y.delay = b.delay)
    (hy : settles y = b.ending.settles key limit settle) (ha : a.outcome? = none)
    (hfirst : First settles (y :: rest) seen x status)
    (hvalue : ∀ v, b.ending = .value v →
      Settles key limit last (now + spent (seen ++ [x])) x status
        (published? (next (now + b.delay) v))) :
    Settles key limit last (now + spent (seen ++ [x])) x status
      (published? ((now, a) :: onward key limit (b.answer now) next)) := by
  rw [published?_cons ha]
  cases hending : b.ending with
  | value v =>
    rw [answer_of_ne b (by simp [hending]), hending]
    exact hvalue v hending
  | failed | panicked =>
    obtain ⟨rfl, rfl, rfl⟩ := hfirst.of_some (hy.trans (congrArg _ hending))
    rw [answer_of_ne b (by simp [hending]), hending]
    refine ⟨fun hlimited => (hlimit hlimited).elim, fun _ => ⟨fun _ => ?_, fun hnever => ?_⟩⟩
    · simp only [Ending.reply, onward, published?_publish, List.nil_append, spent_cons, spent_nil,
        Nat.add_zero, hdelay]
      rfl
    · simp [hhangs, hending] at hnever
  | never =>
    obtain ⟨rfl, rfl, rfl⟩ := hfirst.of_some (hy.trans (congrArg _ hending))
    refine ⟨fun hlimited => (hlimit hlimited).elim, fun _ => ⟨fun hcomes => ?_, fun _ => ?_⟩⟩
    · exact absurd (hhangs.2 hending) hcomes
    · simp [Behaviour.answer, hending, onward, published?, outcome?]

theorem First.mem {l : List Element} (h : First settles l seen x status) : x ∈ l :=
  h.isPrefix.subset (List.mem_append_right seen List.mem_cons_self)

/-- Opening the watch and its events are waited for until the deadline. -/
theorem limited_of_mem {asks : List (Behaviour (Option Event))}
    (h : x ∈ .opened s.watch :: asks.map .told) : x.Limited := by
  rcases List.mem_cons.1 h with rfl | htold
  · trivial
  · obtain ⟨b, -, rfl⟩ := List.mem_map.1 htold
    trivial

/-- **What the second call and all behind it tell.** -/
theorem read_settles
    (hfirst : First (Element.settles key limit s.target?)
      (.found s.read :: .opened s.watch :: s.asks.map .told) seen x status) :
    Settles key limit (max (now + s.read.delay) deadline) (now + spent (seen ++ [x])) x status
      (published? ((now, .read) :: onward key limit (s.read.answer now) fun now d =>
        match d.generation with
        | none => [(now, .publish (.failed (.failed key "deployment reports no generation")))]
        | some target =>
          (now, .watch (deadline - now)) ::
            onward key limit (some (s.watch.answerBy now deadline)) fun now _ =>
              follow key limit target deadline now s.asks)) := by
  refine onward_settles (y := .found s.read) id Iff.rfl rfl rfl rfl hfirst fun d hvalue => ?_
  have htarget : s.target? = d.generation := by simp only [Script.target?, hvalue]
  have hfound : Element.settles key limit s.target? (.found s.read) =
      if d.generation = none then some (failedStatus key "deployment reports no generation")
      else none := settles_of_value hvalue
  cases hd : d.generation with
  | none =>
    rw [if_pos hd] at hfound
    obtain ⟨rfl, rfl, rfl⟩ := hfirst.of_some hfound
    refine ⟨fun hlimited => hlimited.elim, fun _ => ⟨fun _ => ?_, fun hnever => ?_⟩⟩
    · simp only [published?_publish, List.nil_append, spent_cons, spent_nil, Nat.add_zero]
      rfl
    · cases hvalue.symm.trans hnever
  | some target =>
    rw [if_neg (by simp [hd])] at hfound
    obtain ⟨seen, rfl, hrest⟩ := hfirst.of_none hfound
    have hlimited : x.Limited := limited_of_mem hrest.mem
    rw [htarget, hd] at hrest
    rw [List.cons_append, spent_cons, ← Nat.add_assoc]
    simp only [published?_cons (a := .watch _) rfl]
    exact settles_of_limited hlimited (watch_tells hrest)

/-- **What a restart tells.** -/
theorem timeline_settles
    (hfirst : First (Element.settles key limit s.target?) s.elements seen x status) (start : Nat) :
    Settles key limit (s.last limit start) (start + spent (seen ++ [x])) x status
      (published? (timeline key limit s start)) := by
  rw [timeline_eq]
  refine onward_settles (y := .patched s.patch) id Iff.rfl rfl rfl rfl hfirst fun u hvalue => ?_
  obtain ⟨seen, rfl, hrest⟩ := hfirst.of_none (settles_of_value hvalue)
  rw [List.cons_append, spent_cons, ← Nat.add_assoc]
  exact read_settles hrest

/-! ## Calls that are answered in time -/

/-- What is waited for without a limit is the first call or the second. -/
theorem First.cases_of_unlimited
    (h : First (Element.settles key limit s.target?) s.elements seen x status)
    (hx : ¬ x.Limited) :
    seen = [] ∧ x = .patched s.patch ∨ seen = [.patched s.patch] ∧ x = .found s.read := by
  rcases h with _ | ⟨-, h⟩
  · exact .inl ⟨rfl, rfl⟩
  rcases h with _ | ⟨-, h⟩
  · exact .inr ⟨rfl, rfl⟩
  · exact (hx (limited_of_mem h.mem)).elim

/-- **If the first two calls are answered by the deadline, nothing counts behind it.** -/
theorem timeline_tells (hpatch : s.patch.ending ≠ .never) (hread : s.read.ending ≠ .never)
    (hprepared : s.prepared start ≤ start + limit.millis)
    (hfirst : First (Element.settles key limit s.target?) s.elements seen x status) :
    Tells key limit (start + limit.millis) (start + spent (seen ++ [x])) x status
      (published? (timeline key limit s start)) := by
  have hsettles := timeline_settles hfirst start
  have hlast : s.last limit start = start + limit.millis := Nat.max_eq_right hprepared
  rw [hlast] at hsettles
  by_cases hx : x.Limited
  · exact hsettles.limited hx
  -- what settles the status is one of the two calls, and is there by the deadline
  have hcomes : ¬ x.Hangs ∧ start + spent (seen ++ [x]) ≤ s.prepared start := by
    unfold Script.prepared
    obtain ⟨rfl, rfl⟩ | ⟨rfl, rfl⟩ := hfirst.cases_of_unlimited hx
    · refine ⟨hpatch, ?_⟩
      simp only [List.nil_append, spent_cons, spent_nil, Element.delay]
      omega
    · refine ⟨hread, ?_⟩
      simp only [List.cons_append, List.nil_append, spent_cons, spent_nil, Element.delay]
      omega
  refine ⟨fun hcomes _ => (hsettles.unlimited hx).comes hcomes, ?_⟩
  rintro (hhangs | hlong)
  · exact (hcomes.1 hhangs).elim
  · exact absurd (Nat.le_trans hcomes.2 hprepared) (Nat.not_le.2 hlong)

/-! ## What a successful restart rests on -/

theorem First.settled {l : List Element} (h : First settles l seen x status) :
    settles x = some status := by
  induction h with
  | here hx => exact hx
  | later _ _ ih => exact ih

/-- The element is an event that shows the target generation rolled out. -/
def Element.ShowsReady (target : Option Int) (x : Element) : Prop :=
  ∃ b d g, x = .told b ∧
    (b.ending = .value (some (.added d)) ∨ b.ending = .value (some (.modified d))) ∧
    target = some g ∧ d.verdict g = .ready

theorem value_of_settles_running {settle : α → Option Status} {e : Ending α}
    (h : e.settles key limit settle = some .running) :
    ∃ a, e = .value a ∧ settle a = some .running := by
  cases e with
  | value a => exact ⟨a, rfl, h⟩
  | failed | panicked | never => cases h

/-- Only an event with an object that is rolled out settles that the tab is running. -/
theorem showsReady_of_settles {target : Option Int}
    (h : Element.settles key limit target x = some .running) : x.ShowsReady target := by
  cases x with
  | patched b | opened b =>
    obtain ⟨u, -, hnone⟩ := value_of_settles_running h
    cases hnone
  | found b =>
    obtain ⟨d, -, hd⟩ := value_of_settles_running h
    split at hd <;> cases hd
  | told b =>
    obtain ⟨e, hending, he⟩ := value_of_settles_running h
    rcases e with _ | e
    · cases he
    cases e with
    | deleted | error | bookmark => cases he
    | added d | modified d =>
      obtain _ | g := target
      · cases he
      refine ⟨b, d, g, rfl, by simp [hending], rfl, ?_⟩
      simp only [eventSettles, Option.map_some] at he
      cases hverdict : d.verdict g with
      | ready => rfl
      | failed cause => simp [hverdict, failedStatus, Status.error, Status.running] at he
      | pending => simp [hverdict] at he

/-- **A tab is running again on the strength of an event**, which came by the last moment. -/
theorem timeline_running {time : Nat}
    (h : published? (timeline key limit s start) = some (time, .running)) :
    ∃ seen x, First (Element.settles key limit s.target?) s.elements seen x .running ∧
      x.ShowsReady s.target? ∧ time = start + spent (seen ++ [x]) ∧ time ≤ s.last limit start := by
  obtain ⟨seen, x, status, hfirst⟩ := exists_first_elements key limit s
  have hsettles := timeline_settles hfirst start
  rw [h] at hsettles
  by_cases hx : x.Limited
  · have htells := hsettles.limited hx
    by_cases hhangs : x.Hangs
    · cases htells.late (.inl hhangs)
    by_cases htime : start + spent (seen ++ [x]) ≤ s.last limit start
    · obtain ⟨rfl, rfl⟩ := Prod.mk.inj (Option.some.inj (htells.inTime hhangs htime))
      exact ⟨seen, x, hfirst, showsReady_of_settles hfirst.settled, rfl, htime⟩
    · cases htells.late (.inr (Nat.lt_of_not_le htime))
  · have htells := hsettles.unlimited hx
    by_cases hhangs : x.Hangs
    · cases htells.hangs hhangs
    · obtain ⟨rfl, rfl⟩ := Prod.mk.inj (Option.some.inj (htells.comes hhangs))
      obtain ⟨b, d, g, rfl, -⟩ := showsReady_of_settles hfirst.settled
      exact (hx trivial).elim

/-! ## Events that are there at once -/

/-- **Undecided events that are there at once are asked for without end**, and no time passes. -/
theorem follow_undecided {skipped : List (Behaviour Event)}
    (h : ∀ b ∈ skipped, b.Undecided key target ∧ b.delay = 0)
    (asks : List (Behaviour (Option Event))) :
    follow key limit target deadline now (skipped.map (·.map some) ++ asks) =
      List.replicate skipped.length (now, .ask) ++ follow key limit target deadline now asks := by
  induction skipped with
  | nil => rfl
  | cons b skipped ih =>
    obtain ⟨⟨⟨e, hending, hundecided⟩, hdelay⟩, hskipped⟩ := List.forall_mem_cons.1 h
    have hanswer : (b.map some).answerBy now deadline = (now, .value (some e)) := by
      rw [answerBy_of_value (Behaviour.map_ending some hending)]
      have hzero : (b.map some).delay = 0 := hdelay
      rw [hzero, Nat.add_zero, if_pos (Nat.le_max_left now deadline)]
    rw [List.map_cons, List.cons_append, follow_cons, hanswer]
    simp only [judgeReply, hundecided, List.length_cons, List.replicate_succ, List.cons_append]
    rw [ih hskipped]

theorem timeline_undecided {skipped : List (Behaviour Event)} (hpatch : s.patch.ending = .value ())
    (htarget : s.target? = some target) (hwatch : s.watch.ending = .value ())
    (hopened : s.prepared start + s.watch.delay ≤ s.last limit start)
    (h : ∀ b ∈ skipped, b.Undecided key target ∧ b.delay = 0) :
    timeline key limit { s with events := skipped ++ s.events } start =
      (start, .patch) :: (start + s.patch.delay, .read) ::
        (s.prepared start, .watch (start + limit.millis - s.prepared start)) ::
        (List.replicate skipped.length (s.prepared start + s.watch.delay, .ask) ++
          follow key limit target (start + limit.millis) (s.prepared start + s.watch.delay)
            s.asks) := by
  obtain ⟨d, hread, hd⟩ : ∃ d, s.read.ending = .value d ∧ d.generation = some target := by
    unfold Script.target? at htarget
    cases hread : s.read.ending <;> simp_all
  have hasks : Script.asks { s with events := skipped ++ s.events } =
      skipped.map (·.map some) ++ s.asks := by simp [Script.asks]
  have hanswer : s.watch.answerBy (s.prepared start) (start + limit.millis) =
      (s.prepared start + s.watch.delay, .value ()) :=
    (answerBy_of_value hwatch).trans (if_pos hopened)
  unfold Script.prepared at hanswer
  simp only [timeline_eq, hasks, Script.prepared, Behaviour.answer, hpatch, hread, hd, onward,
    hanswer, follow_undecided h]

/-! ## The clock -/

/-- What the clock does to a restart. -/
structure Punctual (key : DeploymentKey) (limit : Duration) (s : Script) (start : Nat) : Prop where
  /-- The status is that of the first element that settles one. -/
  settled : ∃ seen x status, First (Element.settles key limit s.target?) s.elements seen x status ∧
    Settles key limit (s.last limit start) (start + spent (seen ++ [x])) x status
      (published? (timeline key limit s start))
  /-- If the first two calls are answered by the deadline, what comes behind it does not count. -/
  kept : s.patch.ending ≠ .never → s.read.ending ≠ .never →
    s.prepared start ≤ start + limit.millis →
    ∀ seen x status, First (Element.settles key limit s.target?) s.elements seen x status →
      Tells key limit (start + limit.millis) (start + spent (seen ++ [x])) x status
        (published? (timeline key limit s start))
  running : ∀ time, published? (timeline key limit s start) = some (time, .running) →
    ∃ seen x, First (Element.settles key limit s.target?) s.elements seen x .running ∧
      x.ShowsReady s.target? ∧ time = start + spent (seen ++ [x]) ∧ time ≤ s.last limit start
  /-- Undecided events that are there at once, however many, are all asked for. The clock stands
  still meanwhile. -/
  unending : ∀ target, s.patch.ending = .value () → s.target? = some target →
    s.watch.ending = .value () → s.prepared start + s.watch.delay ≤ s.last limit start →
    ∀ skipped, (∀ b ∈ skipped, b.Undecided key target ∧ b.delay = 0) →
      timeline key limit { s with events := skipped ++ s.events } start =
        (start, .patch) :: (start + s.patch.delay, .read) ::
          (s.prepared start, .watch (start + limit.millis - s.prepared start)) ::
          (List.replicate skipped.length (s.prepared start + s.watch.delay, .ask) ++
            follow key limit target (start + limit.millis) (s.prepared start + s.watch.delay)
              s.asks)

/-- **What a restart tells, and when.** -/
theorem timeline_punctual (key : DeploymentKey) (limit : Duration) (s : Script) (start : Nat) :
    Punctual key limit s start where
  settled := by
    obtain ⟨seen, x, status, hfirst⟩ := exists_first_elements key limit s
    exact ⟨seen, x, status, hfirst, timeline_settles hfirst start⟩
  kept hpatch hread hprepared _ _ _ hfirst := timeline_tells hpatch hread hprepared hfirst
  running _ h := timeline_running h
  unending _ hpatch htarget hwatch hopened _ h :=
    timeline_undecided hpatch htarget hwatch hopened h

/-- The first call is answered after the deadline. The deployment that is ready by then is reported
as running, and not the timeout. -/
theorem late_rollout_runs :
    let key : DeploymentKey := ⟨"default", "web"⟩
    let new : Deployment := { progress := some { generation := some 2, ready := some 1 } }
    let s : Script :=
      { patch := { delay := 6000, ending := .value () }
        read := { ending := .value { metadata := { generation := some 2 } } }
        events := [{ ending := .value (.modified new) }] }
    published? (timeline key (.ofSecs 5) s 0) = some (6000, .running) ∧
      ¬ 6000 ≤ 0 + (Duration.ofSecs 5).millis := by
  decide

end

end TabBoard.Restart
