import TabBoard.Proofs.Restart.Timeline

/-!
# How a restart ends

What the cluster does towards one restart is a row of elements: the answers to the three calls, what
each question for an event brings, and the end of the watch (`Script.elements`). A table says which
status an element settles, if any (`Element.settles`). Bookmarks and objects whose rollout is
pending settle none.

**Theorem (`timeline_determined`).** The restart asks for one element after the other, up to the
first that settles a status, and publishes this status (`Determined`). So the calls come in their
order, each once at most and only if those before it succeeded. What stands behind the first element
that settles a status does not matter, and taking events that settle none out of the script leaves
the status as it is.

This needs that whatever the restart waits for is there by the deadline, or never comes where the
wait is limited (`Prompt`). The first element that settles a status (`First`) is one of the three
calls or an event; each call is a case, and for the events the proof is an induction on those before
it.
-/

namespace TabBoard.Restart

open Cluster (Event)

/-! ## What the cluster does -/

/-- What the cluster does when it is asked for something. -/
inductive Element where
  | patched (b : Behaviour Unit)
  | found (b : Behaviour Deployment)
  | opened (b : Behaviour Unit)
  | told (b : Behaviour (Option Event))

/-- What the cluster does towards a restart, in order. -/
def Script.elements (s : Script) : List Element :=
  .patched s.patch :: .found s.read :: .opened s.watch :: s.asks.map .told

def failedStatus (key : DeploymentKey) (cause : String) : Status :=
  .error s!"restart failed: {cause} ({Error.context key})"

def timeoutStatus (key : DeploymentKey) (limit : Duration) : Status :=
  .error s!"restart did not finish within {limit.inWords} ({Error.context key})"

/-- The status that an ending settles; `settle` says what a value settles. -/
def Ending.settles {α : Type} (key : DeploymentKey) (limit : Duration)
    (settle : α → Option Status) : Ending α → Option Status
  | .value a => settle a
  | .failed e => some (failedStatus key s!"Kubernetes API error: {e.reason}")
  | .panicked => some (.error "restart failed: internal error")
  | .never => some (timeoutStatus key limit)

/-- The status that an event settles, where the target is the generation that was read. The end of
the watch is a timeout. -/
def eventSettles (key : DeploymentKey) (limit : Duration) (target : Option Int) :
    Option Event → Option Status
  | some (.added d) | some (.modified d) =>
    match target.map d.verdict with
    | some .ready => some .running
    | some (.failed cause) => some (failedStatus key cause)
    | some .pending | none => none
  | some (.deleted _) => some (failedStatus key "deployment was deleted during rollout")
  | some (.error e) => some (failedStatus key s!"watch error: {e.describe}")
  | some (.bookmark _) => none
  | none => some (timeoutStatus key limit)

namespace Element

/-- The status that an element settles, if it settles any. -/
def settles (key : DeploymentKey) (limit : Duration) (target : Option Int) :
    Element → Option Status
  | patched b | opened b => b.ending.settles key limit fun _ => none
  | found b =>
    b.ending.settles key limit fun d =>
      if d.generation = none then some (failedStatus key "deployment reports no generation")
      else none
  | told b => b.ending.settles key limit (eventSettles key limit target)

def delay : Element → Nat
  | patched b | opened b => b.delay
  | found b => b.delay
  | told b => b.delay

/-- The element never comes. -/
def Hangs : Element → Prop
  | patched b | opened b => b.ending = .never
  | found b => b.ending = .never
  | told b => b.ending = .never

/-- The wait for the element ends at the deadline. -/
def Limited : Element → Prop
  | patched _ | found _ => False
  | opened _ | told _ => True

end Element

/-- Some time is spent, and whatever is waited for is there within the limit, or never comes and the
wait is limited. Nothing is waited for behind an element that settles a status. -/
def Prompt (settles : Element → Option Status) (limit : Nat) : Nat → List Element → Prop
  | _, [] => True
  | spent, x :: rest =>
    (x.Hangs → x.Limited) ∧ (¬ x.Hangs → spent + x.delay ≤ limit) ∧
      (settles x = none → Prompt settles limit (spent + x.delay) rest)

/-- Whatever the restart waits for is there by the deadline, or never comes where the wait ends at
the deadline. -/
def Script.Prompt (key : DeploymentKey) (limit : Duration) (s : Script) : Prop :=
  Restart.Prompt (Element.settles key limit s.target?) limit.millis 0 s.elements

/-- The first element that settles a status, and those before it. -/
inductive First (settles : Element → Option Status) :
    List Element → List Element → Element → Status → Prop
  | here {x : Element} {rest : List Element} {status : Status} (h : settles x = some status) :
      First settles (x :: rest) [] x status
  | later {y x : Element} {rest seen : List Element} {status : Status} (hy : settles y = none)
      (h : First settles rest seen x status) :
      First settles (y :: rest) (y :: seen) x status

/-- Some elements with some of those left out that may be. -/
inductive Thinned {α : Type} (may : α → Prop) : List α → List α → Prop
  | nil : Thinned may [] []
  | keep {a : α} {l l' : List α} (h : Thinned may l l') : Thinned may (a :: l) (a :: l')
  | leave {a : α} {l l' : List α} (ha : may a) (h : Thinned may l l') : Thinned may (a :: l) l'

/-- The answer is a bookmark, or an object whose rollout to the target is pending. -/
inductive Idle (target : Option Int) : Ending Event → Prop
  | bookmark (object : Json) : Idle target (.value (.bookmark object))
  | added {d : Deployment} (h : ∀ g, target = some g → d.verdict g = .pending) :
      Idle target (.value (.added d))
  | modified {d : Deployment} (h : ∀ g, target = some g → d.verdict g = .pending) :
      Idle target (.value (.modified d))

/-! ## What the restart asks for -/

/-- What is asked of the cluster. -/
inductive Request where
  | patch
  | read
  | watch
  | event
  deriving DecidableEq

def Element.request : Element → Request
  | patched _ => .patch
  | found _ => .read
  | opened _ => .watch
  | told _ => .event

def Act.request? : Act → Option Request
  | .patch => some .patch
  | .read => some .read
  | .watch _ => some .watch
  | .ask => some .event
  | .stop | .publish _ => none

def requests (acts : List (Nat × Act)) : List Request := acts.filterMap (·.2.request?)

def statuses (acts : List (Nat × Act)) : List Status :=
  acts.filterMap fun a => a.2.outcome?.map (·.status)

/-- The acts ask for these elements, in order, and publish the status alone. -/
structure EndsAfter (acts : List (Nat × Act)) (es : List Element) (status : Status) : Prop where
  asked : requests acts = es.map Element.request
  published : statuses acts = [status]

section

variable {α : Type} {key : DeploymentKey} {limit : Duration} {s s' : Script} {start : Nat}
  {seen rest : List Element} {x : Element} {status : Status} {target : Int}
  {now deadline spent : Nat} {settles : Element → Option Status}

theorem EndsAfter.cons {acts : List (Nat × Act)} {es : List Element} {y : Element} {a : Act}
    (h : EndsAfter acts es status) (ha : a.request? = some y.request) (time : Nat) :
    EndsAfter ((time, a) :: acts) (y :: es) status := by
  have hsilent : a.outcome? = none := by
    cases a with
    | publish => cases ha
    | patch | read | watch | ask | stop => rfl
  constructor
  · simp only [requests, List.filterMap_cons, ha, List.map_cons]
    exact congrArg _ h.asked
  · simp only [statuses, List.filterMap_cons, hsilent, Option.map_none]
    exact h.published

theorem endsAfter_publish (time : Nat) (o : Outcome) :
    EndsAfter [(time, .publish o)] [] o.status := ⟨rfl, rfl⟩

theorem endsAfter_letGo (time : Nat) (o : Outcome) : EndsAfter (letGo time o) [] o.status :=
  ⟨rfl, rfl⟩

/-! ## The first element that settles a status -/

theorem First.of_some {y : Element} {st : Status} (h : First settles (y :: rest) seen x status)
    (hy : settles y = some st) : seen = [] ∧ x = y ∧ status = st := by
  cases h with
  | here hx => exact ⟨rfl, rfl, Option.some.inj (hx.symm.trans hy)⟩
  | later hnone => cases hnone.symm.trans hy

theorem First.of_none {y : Element} (h : First settles (y :: rest) seen x status)
    (hy : settles y = none) : ∃ seen', seen = y :: seen' ∧ First settles rest seen' x status := by
  cases h with
  | here hx => cases hy.symm.trans hx
  | later _ h => exact ⟨_, rfl, h⟩

theorem First.isPrefix {l : List Element} (h : First settles l seen x status) :
    seen ++ [x] <+: l := by
  induction h with
  | here hx => exact List.prefix_append _ _
  | later hy h ih => exact List.cons_prefix_cons.2 ⟨rfl, ih⟩

theorem exists_first {l : List Element} (h : ∃ y ∈ l, settles y ≠ none) :
    ∃ seen x status, First settles l seen x status := by
  induction l with
  | nil => simp at h
  | cons y l ih =>
    cases hy : settles y with
    | some status => exact ⟨[], y, status, .here hy⟩
    | none =>
      obtain ⟨z, hz, hne⟩ := h
      rcases List.mem_cons.1 hz with rfl | hmem
      · exact absurd hy hne
      · obtain ⟨seen, x, status, hfirst⟩ := ih ⟨z, hmem, hne⟩
        exact ⟨y :: seen, x, status, .later hy hfirst⟩

/-! ## One call -/

theorem settles_of_value {settle : α → Option Status} {e : Ending α} {a : α}
    (h : e = .value a) : e.settles key limit settle = settle a := by
  rw [h]
  rfl

theorem value_of_settles {settle : α → Option Status} {e : Ending α}
    (h : e.settles key limit settle = none) : ∃ a, e = .value a ∧ settle a = none := by
  cases e with
  | value a => exact ⟨a, rfl, h⟩
  | failed | panicked | never => cases h

theorem ne_never_of_settles {settle : α → Option Status} {e : Ending α}
    (h : e.settles key limit settle = none) : e ≠ .never := by
  rintro rfl
  cases h

/-- What comes of a call that is not waited for in vain. -/
def Ending.reply : Ending α → Reply α
  | .value a => .value a
  | .failed e => .failed e
  | .panicked => .panicked
  | .never => .late

theorem answer_of_ne (b : Behaviour α) (h : b.ending ≠ .never) :
    b.answer now = some (now + b.delay, b.ending.reply) := by
  unfold Behaviour.answer
  cases hend : b.ending with
  | value | failed | panicked => rfl
  | never => exact absurd hend h

/-- An answer that is there by the deadline, or never, is what the cluster does. -/
theorem answerBy_eq (b : Behaviour α) (start : Nat)
    (h : b.ending ≠ .never → spent + b.delay ≤ limit.millis) :
    ∃ time, b.answerBy (start + spent) (start + limit.millis) = (time, b.ending.reply) ∧
      (b.ending ≠ .never → time = start + (spent + b.delay)) := by
  by_cases hnever : b.ending = .never
  · refine ⟨max (start + spent) (start + limit.millis), ?_, fun hne => absurd hnever hne⟩
    simp only [Behaviour.answerBy, Behaviour.answer, hnever, Ending.reply]
  · have htime : start + (spent + b.delay) ≤ max (start + spent) (start + limit.millis) :=
      Nat.le_trans (Nat.add_le_add_left (h hnever) start) (Nat.le_max_right _ _)
    refine ⟨start + (spent + b.delay), ?_, fun _ => rfl⟩
    simp only [Behaviour.answerBy, answer_of_ne b hnever, Nat.add_assoc, if_pos htime]

/-- **A call that is not answered with a value settles a status**, which is published. So it is
enough to follow the restart behind a value. -/
theorem onward_first {e : Ending α} {settle : α → Option Status} {y : Element} {a : Act}
    {next : Nat → α → List (Nat × Act)} (hy : settles y = e.settles key limit settle)
    (ha : a.request? = some y.request) (hfirst : First settles (y :: rest) seen x status)
    (time : Nat)
    (hvalue : ∀ v, e = .value v → EndsAfter ((now, a) :: next time v) (seen ++ [x]) status) :
    EndsAfter ((now, a) :: onward key limit (some (time, e.reply)) next) (seen ++ [x]) status := by
  cases e with
  | value v => exact hvalue v rfl
  | failed | panicked | never =>
    obtain ⟨rfl, rfl, rfl⟩ := hfirst.of_some hy
    exact (endsAfter_publish time _).cons ha now

/-! ## One question after the other -/

/-- **What an answer of the watch decides is what the table says.** -/
theorem judgeReply_reply (key : DeploymentKey) (limit : Duration) (target : Int)
    (e : Ending (Option Event)) :
    (judgeReply key limit target e.reply).map (·.status) =
      e.settles key limit (eventSettles key limit (some target)) := by
  cases e with
  | failed | panicked | never => rfl
  | value e =>
    rcases e with _ | e
    · rfl
    cases e with
    | deleted | error | bookmark => rfl
    | added d | modified d =>
      simp only [Ending.reply, judgeReply, judge, Ending.settles, eventSettles, Option.map_some]
      cases d.verdict target <;> rfl

/-- **A watch is asked for one event after the other**, up to the first that settles a status. -/
theorem follow_first {asks : List (Behaviour (Option Event))}
    (hprompt : Prompt (Element.settles key limit (some target)) limit.millis spent
      (asks.map .told))
    (hfirst : First (Element.settles key limit (some target)) (asks.map .told) seen x status) :
    EndsAfter (follow key limit target (start + limit.millis) (start + spent) asks)
      (seen ++ [x]) status := by
  induction asks generalizing seen spent with
  | nil => cases hfirst
  | cons b asks ih =>
    obtain ⟨-, htime, hrest⟩ := hprompt
    obtain ⟨time, hanswer, hadd⟩ := answerBy_eq b start htime
    have hjudge := judgeReply_reply key limit target b.ending
    rw [follow_cons, hanswer]
    cases hfirst with
    | here hx =>
      obtain ⟨o, ho, rfl⟩ := Option.map_eq_some_iff.1 (hjudge.trans hx)
      rw [ho]
      exact (endsAfter_letGo time o).cons rfl _
    | later hy hfirst =>
      have hundecided := Option.map_eq_none_iff.1 (hjudge.trans hy)
      rw [hundecided, hadd (ne_never_of_settles hy)]
      exact (ih (hrest hy) hfirst).cons rfl _

/-! ## One call after the other -/

/-- The third call opens the watch. -/
theorem watch_first (hprompt : Prompt (Element.settles key limit (some target)) limit.millis spent
      (.opened s.watch :: s.asks.map .told))
    (hfirst : First (Element.settles key limit (some target))
      (.opened s.watch :: s.asks.map .told) seen x status) (remaining : Nat) :
    EndsAfter
      ((start + spent, .watch remaining) ::
        onward key limit (some (s.watch.answerBy (start + spent) (start + limit.millis)))
          fun now _ => follow key limit target (start + limit.millis) now s.asks)
      (seen ++ [x]) status := by
  obtain ⟨-, htime, hprompt⟩ := hprompt
  obtain ⟨time, hanswer, hadd⟩ := answerBy_eq s.watch start htime
  rw [hanswer]
  refine onward_first rfl rfl hfirst time fun u hvalue => ?_
  have hnone : Element.settles key limit (some target) (.opened s.watch) = none :=
    settles_of_value hvalue
  obtain ⟨seen, rfl, hrest⟩ := hfirst.of_none hnone
  rw [hadd (ne_never_of_settles hnone)]
  exact (follow_first (hprompt hnone) hrest).cons rfl _

/-- The second call reads the generation of the change. -/
theorem read_first (hprompt : Prompt (Element.settles key limit s.target?) limit.millis spent
      (.found s.read :: .opened s.watch :: s.asks.map .told))
    (hfirst : First (Element.settles key limit s.target?)
      (.found s.read :: .opened s.watch :: s.asks.map .told) seen x status) :
    EndsAfter
      ((start + spent, .read) ::
        onward key limit (s.read.answer (start + spent)) fun now d =>
          match d.generation with
          | none => [(now, .publish (.failed (.failed key "deployment reports no generation")))]
          | some target =>
            (now, .watch (start + limit.millis - now)) ::
              onward key limit (some (s.watch.answerBy now (start + limit.millis))) fun now _ =>
                follow key limit target (start + limit.millis) now s.asks)
      (seen ++ [x]) status := by
  obtain ⟨hhang, -, hprompt⟩ := hprompt
  rw [answer_of_ne s.read hhang]
  refine onward_first rfl rfl hfirst _ fun d hvalue => ?_
  have htarget : s.target? = d.generation := by
    simp only [Script.target?, hvalue]
  have hfound : Element.settles key limit s.target? (.found s.read) = _ := settles_of_value hvalue
  cases hd : d.generation with
  | none =>
    rw [if_pos hd] at hfound
    obtain ⟨rfl, rfl, rfl⟩ := hfirst.of_some hfound
    exact (endsAfter_publish _ _).cons rfl _
  | some target =>
    rw [if_neg (by simp [hd])] at hfound
    obtain ⟨seen, rfl, hrest⟩ := hfirst.of_none hfound
    have hprompt := hprompt hfound
    rw [htarget, hd] at hprompt hrest
    rw [Nat.add_assoc]
    exact (watch_first hprompt hrest _).cons rfl _

/-- **A restart asks for one element after the other**, up to the first that settles a status, and
publishes this one. -/
theorem timeline_first (hprompt : s.Prompt key limit)
    (hfirst : First (Element.settles key limit s.target?) s.elements seen x status) (start : Nat) :
    EndsAfter (timeline key limit s start) (seen ++ [x]) status := by
  obtain ⟨hhang, -, hprompt⟩ := hprompt
  rw [timeline_eq, answer_of_ne s.patch hhang]
  refine onward_first rfl rfl hfirst _ fun u hvalue => ?_
  have hnone : Element.settles key limit s.target? (.patched s.patch) = none :=
    settles_of_value hvalue
  obtain ⟨seen, rfl, hrest⟩ := hfirst.of_none hnone
  have hprompt := hprompt hnone
  rw [Nat.zero_add] at hprompt
  exact (read_first hprompt hrest).cons rfl _

/-! ## What stands behind does not matter -/

theorem onward_congr {answer : Option (Nat × Reply α)} {next next' : Nat → α → List (Nat × Act)}
    (h : ∀ time a, answer = some (time, .value a) → next time a = next' time a) :
    onward key limit answer next = onward key limit answer next' := by
  rcases answer with _ | ⟨time, reply⟩
  · rfl
  cases reply with
  | value a => exact h time a rfl
  | failed | panicked | late => rfl

theorem ending_of_answer {b : Behaviour α} {time : Nat} {a : α}
    (h : b.answer now = some (time, .value a)) : b.ending = .value a := by
  unfold Behaviour.answer at h
  cases hend : b.ending <;> simp_all

theorem ending_of_answerBy {b : Behaviour α} {time : Nat} {a : α}
    (h : b.answerBy now deadline = (time, .value a)) : b.ending = .value a := by
  unfold Behaviour.answerBy at h
  cases hanswer : b.answer now with
  | none => simp [hanswer] at h
  | some answer =>
    simp only [hanswer] at h
    split at h
    · exact ending_of_answer (hanswer.trans (congrArg some h))
    · cases h

/-- A watch is not asked again when its answer settles a status, in time or too late. -/
theorem judgeReply_of_settles (now deadline : Nat) {b : Behaviour (Option Event)}
    (h : b.ending.settles key limit (eventSettles key limit (some target)) = some status) :
    ∃ o, judgeReply key limit target (b.answerBy now deadline).2 = some o := by
  have hjudge := (judgeReply_reply key limit target b.ending).trans h
  obtain ⟨o, ho, -⟩ := Option.map_eq_some_iff.1 hjudge
  by_cases hnever : b.ending = .never
  · simp only [Behaviour.answerBy, Behaviour.answer, hnever]
    exact ⟨_, rfl⟩
  · simp only [Behaviour.answerBy, answer_of_ne b hnever]
    split
    · exact ⟨o, ho⟩
    · exact ⟨_, rfl⟩

/-- Elements that begin with those up to the first that settles a status have the same head, and
go on in the same way if the head settles none. -/
theorem First.prefix_cons {y y' : Element} {l : List Element}
    (h : First settles (y :: rest) seen x status) (hbegins : seen ++ [x] <+: y' :: l) :
    y' = y ∧ (settles y = none →
      ∃ seen', First settles rest seen' x status ∧ seen' ++ [x] <+: l) := by
  cases h with
  | here hx =>
    refine ⟨(List.cons_prefix_cons.1 hbegins).1.symm, fun hnone => ?_⟩
    cases hx.symm.trans hnone
  | later hy h =>
    obtain ⟨hhead, htail⟩ := List.cons_prefix_cons.1 hbegins
    exact ⟨hhead.symm, fun _ => ⟨_, h, htail⟩⟩

theorem follow_of_prefix {asks asks' : List (Behaviour (Option Event))}
    (hfirst : First (Element.settles key limit (some target)) (asks.map .told) seen x status)
    (hbegins : seen ++ [x] <+: asks'.map .told) :
    follow key limit target deadline now asks' = follow key limit target deadline now asks := by
  induction asks generalizing asks' seen now with
  | nil => cases hfirst
  | cons b asks ih =>
    rcases asks' with _ | ⟨b', asks'⟩
    · simp at hbegins
    obtain ⟨hhead, htail⟩ := hfirst.prefix_cons hbegins
    obtain rfl := Element.told.inj hhead
    rw [follow_cons, follow_cons]
    cases hsettles : Element.settles key limit (some target) (.told b') with
    | some st =>
      obtain ⟨o, ho⟩ := judgeReply_of_settles now deadline hsettles
      simp only [ho]
    | none =>
      obtain ⟨seen', hfirst, hbegins⟩ := htail hsettles
      rw [ih hfirst hbegins]

/-- **What stands behind the first element that settles a status does not matter**, however long the
restart has to wait. -/
theorem timeline_of_prefix
    (hfirst : First (Element.settles key limit s.target?) s.elements seen x status)
    (hbegins : seen ++ [x] <+: s'.elements) (start : Nat) :
    timeline key limit s' start = timeline key limit s start := by
  obtain ⟨hpatch, hafter⟩ := hfirst.prefix_cons hbegins
  rw [timeline_eq, timeline_eq, Element.patched.inj hpatch]
  refine congrArg _ (onward_congr fun time u hanswer => ?_)
  obtain ⟨seen, hfirst, hbegins⟩ := hafter (settles_of_value (ending_of_answer hanswer))
  obtain ⟨hread, hafter⟩ := hfirst.prefix_cons hbegins
  rw [Element.found.inj hread]
  refine congrArg _ (onward_congr fun time d hanswer => ?_)
  have hvalue := ending_of_answer hanswer
  have htarget : s.target? = d.generation := by
    simp only [Script.target?, hvalue]
  cases hd : d.generation with
  | none => rfl
  | some target =>
    have hfound : Element.settles key limit s.target? (.found s.read) = none := by
      refine (settles_of_value hvalue).trans (if_neg ?_)
      simp [hd]
    obtain ⟨seen, hfirst, hbegins⟩ := hafter hfound
    obtain ⟨hwatch, hafter⟩ := hfirst.prefix_cons hbegins
    rw [Element.opened.inj hwatch]
    refine congrArg _ (onward_congr fun time u hanswer => ?_)
    have hopened : Element.settles key limit s.target? (.opened s.watch) = none :=
      settles_of_value (ending_of_answerBy (Option.some.inj hanswer))
    obtain ⟨seen, hfirst, hbegins⟩ := hafter hopened
    rw [htarget, hd] at hfirst
    exact follow_of_prefix hfirst hbegins

/-! ## Events that settle nothing -/

theorem Thinned.refl {may : α → Prop} (l : List α) : Thinned may l l := by
  induction l with
  | nil => exact .nil
  | cons a l ih => exact .keep ih

theorem Thinned.append {may : α → Prop} {l l' : List α} (h : Thinned may l l') (tail : List α) :
    Thinned may (l ++ tail) (l' ++ tail) := by
  induction h with
  | nil => exact .refl tail
  | keep h ih => exact .keep ih
  | leave ha h ih => exact .leave ha ih

theorem Thinned.map {β : Type} {may : α → Prop} {may' : β → Prop} {f : α → β}
    (hf : ∀ a, may a → may' (f a)) {l l' : List α} (h : Thinned may l l') :
    Thinned may' (l.map f) (l'.map f) := by
  induction h with
  | nil => exact .nil
  | keep h ih => exact .keep ih
  | leave ha h ih => exact .leave (hf _ ha) ih

/-- Elements that settle nothing do not change which one is the first that does. -/
theorem First.thinned {l l' : List Element} (hfirst : First settles l seen x status)
    (h : Thinned (settles · = none) l l') : ∃ seen', First settles l' seen' x status := by
  induction h generalizing seen with
  | nil => cases hfirst
  | @keep y l l' h ih =>
    cases hfirst with
    | here hx => exact ⟨[], .here hx⟩
    | later hy hfirst =>
      obtain ⟨seen', hfirst'⟩ := ih hfirst
      exact ⟨y :: seen', .later hy hfirst'⟩
  | leave hy h ih =>
    obtain ⟨seen', rfl, hrest⟩ := hfirst.of_none hy
    exact ih hrest

/-- Nothing has to be waited for longer when elements that settle nothing are left out. -/
theorem Prompt.thinned {l l' : List Element} {n spent' : Nat} (hprompt : Prompt settles n spent l)
    (h : Thinned (settles · = none) l l') (hspent : spent' ≤ spent) :
    Prompt settles n spent' l' := by
  induction h generalizing spent spent' with
  | nil => trivial
  | @keep y l l' h ih =>
    obtain ⟨hhang, htime, hrest⟩ := hprompt
    have hadd : spent' + y.delay ≤ spent + y.delay := Nat.add_le_add_right hspent _
    refine ⟨hhang, fun hcomes => Nat.le_trans hadd (htime hcomes), fun hy => ih (hrest hy) hadd⟩
  | leave hy h ih => exact ih (hprompt.2.2 hy) (Nat.le_trans hspent (Nat.le_add_right _ _))

/-- Some element settles a status: the end of the watch does at the latest. -/
theorem exists_first_elements (key : DeploymentKey) (limit : Duration) (s : Script) :
    ∃ seen x status,
      First (Element.settles key limit s.target?) s.elements seen x status := by
  refine exists_first ⟨.told (s.after.map fun _ => none), ?_, ?_⟩
  · simp [Script.elements, Script.asks]
  · simp only [Element.settles, Behaviour.map]
    cases s.after.ending <;> simp [Ending.settles, eventSettles]

/-- An idle event settles nothing. -/
theorem Idle.settles_told {target : Option Int} {b : Behaviour Event} (h : Idle target b.ending) :
    Element.settles key limit target (.told (b.map some)) = none := by
  obtain ⟨delay, e⟩ := b
  cases h with
  | bookmark => rfl
  | added hpending | modified hpending =>
    simp only [Element.settles, Behaviour.map, Ending.settles, eventSettles]
    cases target with
    | none => rfl
    | some g => simp only [Option.map_some, hpending g rfl]

/-- **Idle events can be left out**: the status stays the same. -/
theorem statuses_thinned (hprompt : s.Prompt key limit) {events : List (Behaviour Event)}
    (h : Thinned (fun b => Idle s.target? b.ending) s.events events) (start : Nat) :
    statuses (timeline key limit { s with events } start) =
      statuses (timeline key limit s start) := by
  have hasks : Thinned (Element.settles key limit s.target? · = none) (s.asks.map .told)
      (Script.asks { s with events } |>.map .told) := by
    simp only [Script.asks, List.map_append, List.map_map]
    exact (h.map fun b hidle => hidle.settles_told).append _
  have helements : Thinned (Element.settles key limit s.target? · = none) s.elements
      (Script.elements { s with events }) := .keep (.keep (.keep hasks))
  obtain ⟨seen, x, status, hfirst⟩ := exists_first_elements key limit s
  obtain ⟨seen', hfirst'⟩ := hfirst.thinned helements
  have hprompt' : Script.Prompt key limit { s with events } :=
    hprompt.thinned helements (Nat.le_refl 0)
  exact (timeline_first hprompt' hfirst' start).published.trans
    (timeline_first hprompt hfirst start).published.symm

/-! ## Calls only after calls that succeeded -/

theorem First.succeeded
    (h : First (Element.settles key limit s.target?) s.elements seen x status) :
    (.read ∈ (seen ++ [x]).map Element.request → s.patch.ending = .value ()) ∧
      (.watch ∈ (seen ++ [x]).map Element.request →
        ∃ d target, s.read.ending = .value d ∧ d.generation = some target) ∧
      (.event ∈ (seen ++ [x]).map Element.request → s.watch.ending = .value ()) := by
  cases h with
  | here => simp [Element.request]
  | later hpatch h =>
    obtain ⟨u, hpatch, -⟩ := value_of_settles hpatch
    cases h with
    | here => simp [Element.request, hpatch]
    | later hread h =>
      obtain ⟨d, hread, hgeneration⟩ := value_of_settles hread
      obtain ⟨target, htarget⟩ : ∃ target, d.generation = some target := by
        cases hd : d.generation with
        | none => simp [hd] at hgeneration
        | some target => exact ⟨target, rfl⟩
      cases h with
      | here => simp [Element.request, hpatch, hread, htarget]
      | later hwatch h =>
        obtain ⟨u', hwatch, -⟩ := value_of_settles hwatch
        exact ⟨fun _ => hpatch, fun _ => ⟨d, target, hread, htarget⟩, fun _ => hwatch⟩

/-! ## Restarts are determined -/

/-- What holds of a restart and its script. -/
structure Determined (key : DeploymentKey) (limit : Duration) (s : Script) (start : Nat) :
    Prop where
  /-- The restart asks for the elements up to the first that settles a status, and publishes this
  status alone. It is the same restart for every script that has these elements. -/
  settled : ∃ seen x status,
    First (Element.settles key limit s.target?) s.elements seen x status ∧
      EndsAfter (timeline key limit s start) (seen ++ [x]) status ∧
      ∀ s', seen ++ [x] <+: s'.elements → timeline key limit s' start = timeline key limit s start
  /-- The calls come in this order, each once at most. -/
  order : requests (timeline key limit s start) <+:
    .patch :: .read :: .watch :: List.replicate (s.events.length + 1) .event
  read : .read ∈ requests (timeline key limit s start) → s.patch.ending = .value ()
  watch : .watch ∈ requests (timeline key limit s start) →
    ∃ d target, s.read.ending = .value d ∧ d.generation = some target
  event : .event ∈ requests (timeline key limit s start) → s.watch.ending = .value ()
  /-- Bookmarks and objects of a pending rollout can be left out. -/
  idle : ∀ events, Thinned (fun b => Idle s.target? b.ending) s.events events →
    statuses (timeline key limit { s with events } start) =
      statuses (timeline key limit s start)

/-- **The first element that settles a status determines the restart.** -/
theorem timeline_determined (key : DeploymentKey) (limit : Duration) (s : Script) (start : Nat)
    (hprompt : s.Prompt key limit) : Determined key limit s start := by
  obtain ⟨seen, x, status, hfirst⟩ := exists_first_elements key limit s
  have hends := timeline_first hprompt hfirst start
  have horder : requests (timeline key limit s start) <+: s.elements.map Element.request := by
    rw [hends.asked]
    exact hfirst.isPrefix.map _
  have hrequests : s.elements.map Element.request =
      .patch :: .read :: .watch :: List.replicate (s.events.length + 1) .event := by
    simp [Script.elements, Script.asks, Element.request, Function.comp_def, List.map_const',
      List.replicate_succ']
  obtain ⟨hread, hwatch, hevent⟩ := hfirst.succeeded
  rw [← hends.asked] at hread hwatch hevent
  have hsame : ∀ s', seen ++ [x] <+: s'.elements →
      timeline key limit s' start = timeline key limit s start :=
    fun s' hbegins => timeline_of_prefix hfirst hbegins start
  exact ⟨⟨seen, x, status, hfirst, hends, hsame⟩, hrequests ▸ horder, hread, hwatch, hevent,
    fun events h => statuses_thinned hprompt h start⟩

/-- The cluster shows the old object and a bookmark first, then the new object, and in the end that
the deployment is gone. The restart succeeded before. -/
theorem timeline_determined_ready :
    let key : DeploymentKey := ⟨"default", "web"⟩
    let old : Deployment := { progress := some { generation := some 1 } }
    let new : Deployment := { progress := some { generation := some 2, ready := some 1 } }
    let s : Script :=
      { patch := { delay := 5, ending := .value () }
        read := { ending := .value { metadata := { generation := some 2 } } }
        events :=
          [{ ending := .value (.added old) }, { delay := 10, ending := .value (.bookmark .null) },
            { ending := .value (.modified new) },
            { delay := 2000, ending := .value (.deleted new) }] }
    Determined key (.ofMillis 1000) s 0 ∧
      statuses (timeline key (.ofMillis 1000) s 0) = [.running] := by
  intro key old new s
  have hold : old.verdict 2 = .pending := by decide
  have hnew : new.verdict 2 = .ready := by decide
  have hprompt : s.Prompt key (.ofMillis 1000) := by
    simp [s, Script.Prompt, Prompt, Script.elements, Script.asks, Script.target?,
      Deployment.generation, Element.Hangs, Element.Limited, Element.delay, Element.settles,
      Ending.settles, eventSettles, Behaviour.map, Duration.millis, Duration.ofMillis, hold, hnew]
  exact ⟨timeline_determined key (.ofMillis 1000) s 0 hprompt, by decide⟩

end

end TabBoard.Restart
