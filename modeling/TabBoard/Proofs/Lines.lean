import TabBoard.Cluster.Client
import Mathlib.Data.List.TakeWhile
import Mathlib.Tactic.SplitIfs

/-!
# Lines, however the octets are cut

The octets of a watch arrive in chunks, and between two chunks the next event may be asked for any
number of times. Once nothing more arrives, what is left is asked for until there is nothing more.

**Theorem (`answers_eq_events`).** The answers are the events of the lines that are not blank, in
order, whatever the chunks are and whenever events are asked for. Nothing is left behind. That the
error for a line is the same for all is said of its kind and the start of its text, which is all
that `Event.ofLine` keeps of it.

What carries the proof is a law of one question (`linesOf_nextFrom`): the lines of what is pending
and of anything that may still arrive are the line that is given out, if any, and then the lines of
what stays pending with the same octets behind it. So it does not matter whether a question comes
before a chunk or after it.
-/

namespace TabBoard.Cluster

open Text.Utf8 (Octets)

namespace Lines

abbrev Answer := Except Error Event

/-! ## The lines of octets -/

/-- The lines that are not blank. What stands behind the last line feed is a line too. -/
def linesOf (octets : Octets) : List Octets :=
  (octets.splitOn lineFeed).filter fun line => !line.all isBlankOctet

/-- What the lines hold, an error standing for a line that holds no event. -/
def eventsOf (octets : Octets) : List Answer := (linesOf octets).map Event.ofLine

/-- A line by itself, which is left out if it is blank. -/
theorem linesOf_line {line : Octets} (h : lineFeed ∉ line) :
    linesOf line = if line.all isBlankOctet then [] else [line] := by
  rw [linesOf, List.splitOn_eq_singleton h]
  cases hblank : line.all isBlankOctet <;> simp [hblank]

/-- **A line feed separates**: what is on one side of it does not matter to the other. -/
theorem linesOf_append (front rest : Octets) :
    linesOf (front ++ lineFeed :: rest) = linesOf front ++ linesOf rest := by
  rw [linesOf, List.splitOn_append_cons_self, List.filter_append]
  rfl

theorem eventsOf_append (front rest : Octets) :
    eventsOf (front ++ lineFeed :: rest) = eventsOf front ++ eventsOf rest := by
  rw [eventsOf, linesOf_append, List.map_append]
  rfl

theorem eventsOf_line {line : Octets} (h : lineFeed ∉ line)
    (hblank : line.all isBlankOctet = false) : eventsOf line = [Event.ofLine line] := by
  rw [eventsOf, linesOf_line h, hblank]
  rfl

/-- There is one error for a line that holds no event, whatever is wrong with it: the text ends
before the cause. -/
theorem ofLine_error {line : Octets} {e : Error} (h : Event.ofLine line = .error e) :
    e = .undecodable "invalid watch event" := by
  unfold Event.ofLine at h
  split at h
  · cases h
  · exact (Except.error.inj h).symm

/-! ## One question -/

/-- Octets are cut at their first line feed. -/
theorem cut_of_dropWhile {octets rest : Octets} {b : UInt8}
    (h : octets.dropWhile (· != lineFeed) = b :: rest) :
    lineFeed ∉ octets.takeWhile (· != lineFeed) ∧
      octets = octets.takeWhile (· != lineFeed) ++ lineFeed :: rest := by
  have hb := List.head_dropWhile_not (· != lineFeed) (l := octets) (by simp [h])
  simp only [h, List.head_cons, bne_eq_false_iff_eq] at hb
  subst hb
  constructor
  · intro hmem
    simpa using List.mem_takeWhile_imp hmem
  · rw [← h, List.takeWhile_append_dropWhile]

/-- **One question gives out the first line.** What may still arrive makes no difference. -/
theorem linesOf_nextFrom (pending more : Octets) :
    linesOf (pending ++ more) =
      (nextFrom pending).1.toList ++ linesOf ((nextFrom pending).2 ++ more) := by
  fun_induction nextFrom pending with
  | case1 pending hdrop => rfl
  | case2 pending b rest hdrop line hblank ih =>
    obtain ⟨hline, hpending⟩ := cut_of_dropWhile hdrop
    rw [hpending, List.append_assoc, List.cons_append, linesOf_append, linesOf_line hline,
      if_pos hblank, List.nil_append]
    exact ih
  | case3 pending b rest hdrop line hblank =>
    obtain ⟨hline, hpending⟩ := cut_of_dropWhile hdrop
    rw [hpending, List.append_assoc, List.cons_append, linesOf_append, linesOf_line hline,
      if_neg hblank]
    rfl

/-- If no line has ended, no line feed is left. -/
theorem nextFrom_none {pending : Octets} (h : (nextFrom pending).1 = none) :
    lineFeed ∉ (nextFrom pending).2 := by
  fun_induction nextFrom pending with
  | case1 pending hdrop =>
    intro hmem
    simpa using List.dropWhile_eq_nil_iff.1 hdrop _ hmem
  | case2 pending b rest hdrop line hblank ih => exact ih h
  | case3 => cases h

variable {s : Lines}

theorem eventsOf_next (s : Lines) (more : Octets) :
    eventsOf (s.pending ++ more) = s.next.1.toList ++ eventsOf (s.next.2.pending ++ more) := by
  rw [eventsOf, linesOf_nextFrom, List.map_append]
  show _ = (Option.map Event.ofLine (nextFrom s.pending).1).toList ++ _
  cases (nextFrom s.pending).1 <;> rfl

/-! ## The end of the octets -/

/-- Once nothing more arrives, a question is answered as before, or else with what is left. -/
theorem finish_cases (s : Lines) :
    (∃ a, s.next.1 = some a ∧ s.finish = (some a, s.next.2)) ∨
      (s.next.1 = none ∧ s.next.2.pending.all isBlankOctet = true ∧ s.finish = (none, {})) ∨
      (s.next.1 = none ∧ s.next.2.pending.all isBlankOctet = false ∧
        s.finish = (some (Event.ofLine s.next.2.pending), {})) := by
  unfold finish
  rcases s.next with ⟨_ | a, s'⟩
  · by_cases hblank : s'.pending.all isBlankOctet = true
    · exact .inr (.inl ⟨rfl, hblank, if_pos hblank⟩)
    · exact .inr (.inr ⟨rfl, Bool.eq_false_iff.2 hblank, if_neg hblank⟩)
  · exact .inl ⟨_, rfl, rfl⟩

theorem lineFeed_not_mem_next (h : s.next.1 = none) : lineFeed ∉ s.next.2.pending :=
  nextFrom_none (Option.map_eq_none_iff.1 h)

/-- **Once nothing more arrives, a question gives out the first line**, and if there is none then
nothing is left. -/
theorem eventsOf_finish (s : Lines) :
    eventsOf s.pending = s.finish.1.toList ++ eventsOf s.finish.2.pending ∧
      (s.finish.1 = none → s.finish.2 = {}) := by
  have hnext := eventsOf_next s []
  rw [List.append_nil, List.append_nil] at hnext
  rw [hnext]
  rcases finish_cases s with ⟨a, ha, hfinish⟩ | ⟨hnone, hblank, hfinish⟩ | ⟨hnone, hblank, hfinish⟩
  · rw [ha, hfinish]
    exact ⟨rfl, fun h => by cases h⟩
  · rw [hnone, hfinish, eventsOf, linesOf_line (lineFeed_not_mem_next hnone), if_pos hblank]
    exact ⟨rfl, fun _ => rfl⟩
  · rw [hnone, hfinish, eventsOf_line (lineFeed_not_mem_next hnone) hblank]
    exact ⟨rfl, fun h => by cases h⟩

/-- Asks for what is left until there is nothing more. Each answer takes one event off. -/
def drain (s : Lines) : List Answer × Lines :=
  match _h : s.finish with
  | (none, s') => ([], s')
  | (some a, s') => (a :: (drain s').1, (drain s').2)
termination_by (eventsOf s.pending).length
decreasing_by
  have hfinish := (eventsOf_finish s).1
  rw [_h] at hfinish
  rw [hfinish]
  exact Nat.lt_succ_self _

/-- **Asking for what is left gives all events of it**, and leaves nothing. -/
theorem drain_eq (s : Lines) : s.drain = (eventsOf s.pending, {}) := by
  fun_induction drain s with
  | case1 s s' h =>
    obtain ⟨hevents, hempty⟩ := eventsOf_finish s
    rw [h] at hevents hempty
    obtain rfl : s' = {} := hempty rfl
    rw [hevents]
    rfl
  | case2 s a s' h ih =>
    have hfinish := (eventsOf_finish s).1
    rw [h] at hfinish
    rw [hfinish, ih]
    rfl

/-! ## Chunks and questions -/

/-- What happens while octets arrive. -/
inductive Step where
  | push (chunk : Octets)
  | next
  deriving Repr, DecidableEq

def Step.chunk : Step → Octets
  | .push chunk => chunk
  | .next => []

def received (steps : List Step) : Octets := steps.flatMap Step.chunk

/-- The answers that some steps give, and what they leave pending. -/
def after (s : Lines) : List Step → List Answer × Lines
  | [] => ([], s)
  | .push chunk :: steps => (s.push chunk).after steps
  | .next :: steps =>
    let (answers, s') := s.next.2.after steps
    (s.next.1.toList ++ answers, s')

/-- **Questions do not lose an event**, whatever may still arrive. -/
theorem eventsOf_after (s : Lines) (steps : List Step) (more : Octets) :
    eventsOf (s.pending ++ received steps ++ more) =
      (s.after steps).1 ++ eventsOf ((s.after steps).2.pending ++ more) := by
  induction steps generalizing s with
  | nil => simp [received, after]
  | cons step steps ih =>
    cases step with
    | push chunk =>
      have hpush := ih (s.push chunk)
      rw [push, List.append_assoc s.pending] at hpush
      exact hpush
    | next =>
      have hnext := eventsOf_next s (received steps ++ more)
      rw [← List.append_assoc, ← List.append_assoc, ih s.next.2, ← List.append_assoc] at hnext
      exact hnext

end Lines

/-! ## Open watches -/

namespace OpenWatch

open Lines (Answer eventsOf)

/-- Asked for one event after the other, a watch gives these answers, and then nothing more. -/
inductive Gives : OpenWatch → List Answer → Prop
  | over {w : OpenWatch} (h : w.next.1 = .ok none) : Gives w []
  | more {w : OpenWatch} {a : Answer} {answers : List Answer} (h : w.next.1 = a.map some)
      (hmore : Gives w.next.2 answers) : Gives w (a :: answers)

/-- The events that a watch has yet to give. -/
def left (w : OpenWatch) : List Answer := eventsOf (w.lines.pending ++ w.chunks.flatten)

/-- No event is lost: nothing breaks off, and after the end of the reply nothing arrives. -/
def Whole (w : OpenWatch) : Prop := w.cut = false ∧ (w.connected = true ∨ w.chunks = [])

/-- What a watch answers next: the first event that it has yet to give. -/
def AnswersFirst (left : List Answer) : Except Error (Option Event) × OpenWatch → Prop
  | (answer, w) => w.Whole ∧
      ((answer = .ok none ∧ left = []) ∨ ∃ a, answer = a.map some ∧ left = a :: w.left)

theorem answersFirst_finish (lines : Lines) :
    AnswersFirst (eventsOf lines.pending) (finish lines) := by
  obtain ⟨hevents, hempty⟩ := Lines.eventsOf_finish lines
  unfold finish
  rcases hfinish : lines.finish with ⟨_ | a, lines'⟩
  · rw [hfinish] at hevents hempty
    obtain rfl : lines' = {} := hempty rfl
    exact ⟨⟨rfl, .inr rfl⟩, .inl ⟨rfl, hevents⟩⟩
  · rw [hfinish] at hevents
    exact ⟨⟨rfl, .inr rfl⟩, .inr ⟨a, rfl, by simpa [left] using hevents⟩⟩

theorem answersFirst_await (lines : Lines) (chunks : List Octets) :
    AnswersFirst (eventsOf (lines.pending ++ chunks.flatten)) (await false lines chunks) := by
  induction chunks generalizing lines with
  | nil =>
    have hnext := Lines.eventsOf_next lines []
    rw [List.flatten_nil, hnext]
    unfold await
    rcases lines.next with ⟨_ | a, lines'⟩
    · simpa using answersFirst_finish lines'
    · exact ⟨⟨rfl, .inl rfl⟩, .inr ⟨a, rfl, rfl⟩⟩
  | cons chunk chunks ih =>
    have hnext := Lines.eventsOf_next lines (chunk :: chunks).flatten
    rw [hnext]
    unfold await
    rcases lines.next with ⟨_ | a, lines'⟩
    · simpa [Lines.push] using ih (lines'.push chunk)
    · exact ⟨⟨rfl, .inl rfl⟩, .inr ⟨a, rfl, rfl⟩⟩

theorem Whole.next {w : OpenWatch} (h : w.Whole) : AnswersFirst w.left w.next := by
  obtain ⟨lines, chunks, cut, connected⟩ := w
  obtain ⟨hcut, hchunks⟩ := h
  obtain rfl : cut = false := hcut
  cases connected with
  | true => exact answersFirst_await lines chunks
  | false =>
    obtain rfl : chunks = [] := hchunks.resolve_left (by simp)
    simpa [left, OpenWatch.next] using answersFirst_finish lines

/-- **A watch gives the events of what arrives.** -/
theorem Whole.gives {w : OpenWatch} (h : w.Whole) : Gives w w.left := by
  generalize hleft : w.left = answers
  induction answers generalizing w with
  | nil =>
    obtain ⟨-, ⟨hover, -⟩ | ⟨a, -, hfirst⟩⟩ := h.next
    · exact .over hover
    · cases hleft.symm.trans hfirst
  | cons a answers ih =>
    obtain ⟨hwhole, ⟨-, hnone⟩ | ⟨a', hanswer, hfirst⟩⟩ := h.next
    · cases hleft.symm.trans hnone
    · obtain ⟨rfl, hrest⟩ := List.cons.inj (hleft.symm.trans hfirst)
      exact .more hanswer (ih hwhole hrest.symm)

end OpenWatch

/-! ## Decoding -/

namespace Lines

/-- **The answers are the events of the lines**, however the octets are cut. -/
theorem answers_eq_events :
    -- whatever the chunks are and whenever events are asked for
    (∀ steps : List Step,
      (({} : Lines).after steps).1 ++ (({} : Lines).after steps).2.drain.1 =
          eventsOf (received steps) ∧
        (({} : Lines).after steps).2.drain.2 = {}) ∧
    -- a line gives one answer in its place; if it holds no event this is the one error, whose text
    -- ends before the cause
    (∀ front line rest : Octets, lineFeed ∉ line → line.all isBlankOctet = false →
      eventsOf (front ++ lineFeed :: (line ++ lineFeed :: rest)) =
          eventsOf front ++ Event.ofLine line :: eventsOf rest ∧
        ∀ e, Event.ofLine line = .error e → e = .undecodable "invalid watch event") ∧
    -- so an open watch gives the events of the reply, unless the reply is cut short
    ∀ chunks : List Octets, OpenWatch.Gives { chunks } (eventsOf chunks.flatten) := by
  refine ⟨?_, ?_, ?_⟩
  · intro steps
    have hsteps := eventsOf_after {} steps []
    rw [List.append_nil, List.append_nil] at hsteps
    rw [drain_eq]
    exact ⟨hsteps.symm, rfl⟩
  · intro front line rest hline hblank
    rw [eventsOf_append, eventsOf_append, eventsOf_line hline hblank]
    exact ⟨rfl, fun e => ofLine_error⟩
  · intro chunks
    have hwhole : OpenWatch.Whole { chunks } := ⟨rfl, .inl rfl⟩
    exact hwhole.gives

end Lines

end TabBoard.Cluster
