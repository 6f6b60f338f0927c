import TabBoard.Proofs.Json.Printing
import TabBoard.Proofs.Lines
import Mathlib.Data.List.Basic

/-!
# Watches that are stopped or cut short

A watch may be let go of while its reply still arrives, and a reply may be cut short in the middle
of a line. What is asked for afterwards is answered from the octets that arrived before.

**Theorem (`over_watch_says`).** Asked again and again, a watch gives the events of its reply and
then nothing ever after. If the reply is cut short, it gives the events of all lines that ended,
then the error, and then what the line that did not end would hold. A watch that is stopped gives
what had arrived and was not given yet, but nothing that would have arrived later.

The proof takes one line after the other off the octets (`Lines.Takes`), which leaves the lines
behind it and the end as they are, whatever may still arrive.
-/

namespace TabBoard.Cluster

open Text.Utf8 (Octets)

namespace Lines

/-! ## Lines that ended -/

/-- The lines that ended and are not blank. -/
def ended (octets : Octets) : List Octets :=
  (octets.splitOn lineFeed).dropLast.filter fun line => !line.all isBlankOctet

/-- What stands behind the last line feed. -/
def unended (octets : Octets) : Octets := ((octets.splitOn lineFeed).getLast?).getD []

theorem ended_append (front rest : Octets) :
    ended (front ++ lineFeed :: rest) = linesOf front ++ ended rest := by
  rw [ended, List.splitOn_append_cons_self,
    List.dropLast_append_of_ne_nil (List.splitOn_ne_nil _ _), List.filter_append]
  rfl

theorem unended_append (front rest : Octets) :
    unended (front ++ lineFeed :: rest) = unended rest := by
  rw [unended, List.splitOn_append_cons_self,
    List.getLast?_append_of_ne_nil _ (List.splitOn_ne_nil _ _)]
  rfl

variable {octets rest rest' : Octets} {line line' : Option Octets}

theorem ended_of_not_mem (h : lineFeed ∉ octets) : ended octets = [] := by
  rw [ended, List.splitOn_eq_singleton h]
  rfl

theorem unended_of_not_mem (h : lineFeed ∉ octets) : unended octets = octets := by
  rw [unended, List.splitOn_eq_singleton h]
  rfl

/-- The lines are those that ended, and what is behind the last line feed. -/
theorem linesOf_eq (octets : Octets) :
    linesOf octets = ended octets ++ linesOf (unended octets) := by
  by_cases hmem : lineFeed ∈ octets
  · obtain ⟨front, rest, h⟩ := List.append_of_mem hmem
    rw [h, linesOf_append, ended_append, unended_append, linesOf_eq rest, List.append_assoc]
  · rw [ended_of_not_mem hmem, unended_of_not_mem hmem, List.nil_append]
termination_by octets.length
decreasing_by
  rw [h, List.length_append, List.length_cons]
  omega

/-! ## Taking a line off -/

/-- The octets give out this line, if any, and `rest` is what they leave, whatever may still
arrive. -/
structure Takes (octets : Octets) (line : Option Octets) (rest : Octets) : Prop where
  ended (more : Octets) : ended (octets ++ more) = line.toList ++ ended (rest ++ more)
  unended (more : Octets) : unended (octets ++ more) = unended (rest ++ more)

theorem Takes.linesOf (h : Takes octets line rest) (more : Octets) :
    linesOf (octets ++ more) = line.toList ++ linesOf (rest ++ more) := by
  rw [linesOf_eq, linesOf_eq (rest ++ more), h.ended, h.unended, List.append_assoc]

/-- What arrives later stays behind the line. -/
theorem Takes.append (h : Takes octets line rest) (more : Octets) :
    Takes (octets ++ more) line (rest ++ more) := by
  constructor <;> intro more'
  · rw [List.append_assoc, List.append_assoc, h.ended]
  · rw [List.append_assoc, List.append_assoc, h.unended]

theorem Takes.trans (h : Takes octets none rest) (h' : Takes rest line rest') :
    Takes octets line rest' := by
  constructor <;> intro more
  · rw [h.ended, h'.ended]
    rfl
  · rw [h.unended, h'.unended]

theorem takes_nextFrom (pending : Octets) :
    Takes pending (nextFrom pending).1 (nextFrom pending).2 := by
  fun_induction nextFrom pending with
  | case1 pending hdrop => exact ⟨fun _ => rfl, fun _ => rfl⟩
  | case2 pending b rest hdrop line hblank ih =>
    obtain ⟨hline, hpending⟩ := cut_of_dropWhile hdrop
    refine Takes.trans ⟨fun more => ?_, fun more => ?_⟩ ih
    · rw [hpending, List.append_assoc, List.cons_append, ended_append, linesOf_line hline,
        if_pos hblank]
      rfl
    · rw [hpending, List.append_assoc, List.cons_append, unended_append]
  | case3 pending b rest hdrop line hblank =>
    obtain ⟨hline, hpending⟩ := cut_of_dropWhile hdrop
    refine ⟨fun more => ?_, fun more => ?_⟩
    · rw [hpending, List.append_assoc, List.cons_append, ended_append, linesOf_line hline,
        if_neg hblank]
      rfl
    · rw [hpending, List.append_assoc, List.cons_append, unended_append]

/-- A question takes the first line that ended off what is pending, or finds none. -/
theorem next_cases (s : Lines) :
    (∃ line rest, s.next = (some (Event.ofLine line), ⟨rest⟩) ∧
      Takes s.pending (some line) rest) ∨
    ∃ rest, s.next = (none, ⟨rest⟩) ∧ Takes s.pending none rest ∧ lineFeed ∉ rest := by
  have htakes := takes_nextFrom s.pending
  have hnone : (nextFrom s.pending).1 = none → lineFeed ∉ (nextFrom s.pending).2 := nextFrom_none
  unfold next
  revert htakes hnone
  rcases nextFrom s.pending with ⟨_ | line, rest⟩ <;> intro htakes hnone
  · exact .inr ⟨rest, rfl, htakes, hnone rfl⟩
  · exact .inl ⟨line, rest, rfl, htakes⟩

end Lines

namespace OpenWatch

open Lines (eventsOf linesOf ended unended Takes)

/-! ## Answers -/

def asked (w : OpenWatch) : Nat → OpenWatch
  | 0 => w
  | n + 1 => w.next.2.asked n

/-- What the watch answers after some questions. -/
def answer (w : OpenWatch) (n : Nat) : Except Error (Option Event) := (w.asked n).next.1

/-- Asked again and again, the watch gives these answers, and nothing ever after. -/
def Says (w : OpenWatch) (answers : List (Except Error (Option Event))) : Prop :=
  ∀ n, w.answer n = (answers[n]?).getD (.ok none)

/-- Events as answers. -/
def shown (events : List Lines.Answer) : List (Except Error (Option Event)) :=
  events.map fun a => a.map some

/-- What a reply is answered with. If it was cut short, the error comes behind the lines that
ended. -/
def said (cut : Bool) (octets : Octets) : List (Except Error (Option Event)) :=
  if cut then
    shown ((ended octets).map Event.ofLine) ++ .error (.transport "the reply was cut short") ::
      shown (eventsOf (unended octets))
  else shown (eventsOf octets)

variable {w : OpenWatch} {lines : Lines} {chunks : List Octets} {cut : Bool} {n : Nat}
  {a : Except Error (Option Event)} {answers : List (Except Error (Option Event))}

theorem Says.cons (h : w.next.1 = a) (hmore : Says w.next.2 answers) : Says w (a :: answers)
  | 0 => h
  | n + 1 => hmore n

theorem Says.behind {front : List (Except Error (Option Event))}
    (h : Says w (front ++ a :: answers)) (n : Nat) :
    w.answer (front.length + 1 + n) = (answers[n]?).getD (.ok none) := by
  rw [h, List.getElem?_append_right (by omega),
    show front.length + 1 + n - front.length = n + 1 from by omega, List.getElem?_cons_succ]

/-- Events do not look like nothing. -/
theorem shown_nothing_iff {events : List Lines.Answer} :
    (∀ n : Nat, ((shown events)[n]?).getD (Except.ok none) = Except.ok none) ↔ events = [] := by
  constructor
  · intro hnone
    rcases events with _ | ⟨a, events⟩
    · rfl
    · have hfirst := hnone 0
      cases a <;> cases hfirst
  · rintro rfl n
    rfl

/-! ## Watches that are over -/

/-- Once nothing more arrives, a question gives the first event, or there is nothing left. -/
theorem next_closed (h : w.connected = false) :
    w.next.2.connected = false ∧
      ((∃ a, w.next.1 = a.map some ∧
        eventsOf w.lines.pending = a :: eventsOf w.next.2.lines.pending) ∨
      (w.next.1 = .ok none ∧ eventsOf w.lines.pending = [] ∧
        eventsOf w.next.2.lines.pending = [])) := by
  obtain ⟨hevents, hempty⟩ := Lines.eventsOf_finish w.lines
  have hnext : w.next = finish w.lines := if_neg (by simp [h])
  rw [hnext]
  unfold finish
  revert hevents hempty
  rcases w.lines.finish with ⟨_ | a, rest⟩ <;> intro hevents hempty
  · obtain rfl : rest = {} := hempty rfl
    exact ⟨rfl, .inr ⟨rfl, hevents, rfl⟩⟩
  · exact ⟨rfl, .inl ⟨a, rfl, hevents⟩⟩

/-- **A watch that is over gives what is left of its octets**, and nothing ever after. -/
theorem says_closed (h : w.connected = false) : Says w (shown (eventsOf w.lines.pending)) := by
  intro n
  induction n generalizing w with
  | zero =>
    obtain ⟨-, ⟨a, hanswer, hevents⟩ | ⟨hanswer, hevents, -⟩⟩ := next_closed h <;> rw [hevents]
    · exact hanswer
    · exact hanswer
  | succ n ih =>
    obtain ⟨hclosed, ⟨a, -, hevents⟩ | ⟨-, hevents, hrest⟩⟩ := next_closed h
    · rw [hevents]
      exact ih hclosed
    · have hmore := ih hclosed
      rw [hrest] at hmore
      rw [hevents]
      exact hmore

/-- Nothing more is given exactly if nothing is left. -/
theorem says_nothing_iff (h : w.connected = false) :
    (∀ n, w.answer n = .ok none) ↔ eventsOf w.lines.pending = [] := by
  rw [← shown_nothing_iff]
  exact forall_congr' fun n => by rw [says_closed h n]

/-! ## Watches that are held -/

/-- While the connection is held, a question takes the first line that ends off what is pending and
what arrives until then; or all of the reply arrives and no line ends. -/
theorem await_cases (cut : Bool) (lines : Lines) (chunks : List Octets) :
    (∃ line arrived later rest, chunks = arrived ++ later ∧
      Takes (lines.pending ++ arrived.flatten) (some line) rest ∧
      await cut lines chunks =
        ((Event.ofLine line).map some, { lines := ⟨rest⟩, chunks := later, cut })) ∨
    ∃ rest, Takes (lines.pending ++ chunks.flatten) none rest ∧ lineFeed ∉ rest ∧
      await cut lines chunks =
        if cut then
          (.error (.transport "the reply was cut short"), { lines := ⟨rest⟩, connected := false })
        else finish ⟨rest⟩ := by
  induction chunks generalizing lines with
  | nil =>
    unfold await
    rcases Lines.next_cases lines with ⟨line, rest, hnext, htakes⟩ | ⟨rest, hnext, htakes, hrest⟩
    · rw [hnext]
      exact .inl ⟨line, [], [], rest, rfl, by simpa using htakes, rfl⟩
    · rw [hnext]
      exact .inr ⟨rest, by simpa using htakes, hrest, rfl⟩
  | cons chunk chunks ih =>
    unfold await
    rcases Lines.next_cases lines with ⟨line, rest, hnext, htakes⟩ | ⟨rest, hnext, htakes, -⟩
    · rw [hnext]
      exact .inl ⟨line, [], chunk :: chunks, rest, rfl, by simpa using htakes, rfl⟩
    · rw [hnext]
      have harrive (more : Octets) : Takes (lines.pending ++ (chunk ++ more)) none
          (rest ++ chunk ++ more) := by
        rw [List.append_assoc rest]
        exact htakes.append (chunk ++ more)
      rcases ih (Lines.push ⟨rest⟩ chunk) with
        ⟨line, arrived, later, rest', hchunks, hline, hawait⟩ | ⟨rest', hline, hrest, hawait⟩
      · exact .inl ⟨line, chunk :: arrived, later, rest', by rw [hchunks, List.cons_append],
          (harrive arrived.flatten).trans hline, hawait⟩
      · exact .inr ⟨rest', (harrive chunks.flatten).trans hline, hrest, hawait⟩

theorem said_of_takes {octets rest : Octets} {line : Octets} (h : Takes octets (some line) rest)
    (cut : Bool) (more : Octets) :
    said cut (octets ++ more) = (Event.ofLine line).map some :: said cut (rest ++ more) := by
  cases cut with
  | true =>
    simp only [said, if_true, h.ended, h.unended]
    rfl
  | false =>
    simp only [said, eventsOf, h.linesOf]
    rfl

/-- The lines that end are taken off one by one; what is left is not ended. -/
theorem said_of_takes_none {octets rest : Octets} (h : Takes octets none rest)
    (hrest : lineFeed ∉ rest) (cut : Bool) :
    said cut octets = (if cut then [.error (.transport "the reply was cut short")] else []) ++
      shown (eventsOf rest) := by
  have hended := h.ended []
  have hunended := h.unended []
  have hlines := h.linesOf []
  rw [List.append_nil, List.append_nil] at hended hunended hlines
  cases cut with
  | true =>
    rw [said, if_pos rfl, hended, hunended, Lines.ended_of_not_mem hrest,
      Lines.unended_of_not_mem hrest]
    rfl
  | false =>
    rw [said, if_neg (by simp), eventsOf, hlines]
    rfl

/-- Only the next answer and what it leaves count. -/
theorem answer_congr {w' : OpenWatch} (h : w.next = w'.next) (n : Nat) :
    w.answer n = w'.answer n := by
  cases n with
  | zero => exact congrArg Prod.fst h
  | succ n => exact congrArg (fun r => OpenWatch.answer r.2 n) h

/-- Where no line ends any more, the error comes if the reply was cut short, and then what is
left. -/
theorem says_unended {rest : Octets} (hawait : await cut lines chunks =
      if cut then
        (.error (.transport "the reply was cut short"), { lines := ⟨rest⟩, connected := false })
      else finish ⟨rest⟩)
    (htakes : Takes (lines.pending ++ chunks.flatten) none rest) (hrest : lineFeed ∉ rest) :
    Says { lines, chunks, cut } (said cut (lines.pending ++ chunks.flatten)) := by
  have hclosed : Says { lines := ⟨rest⟩, connected := false } (shown (eventsOf rest)) :=
    says_closed rfl
  rw [said_of_takes_none htakes hrest]
  cases cut with
  | true =>
    have hnext : OpenWatch.next { lines, chunks, cut := true } = _ := hawait
    refine Says.cons (congrArg Prod.fst hnext) ?_
    rw [hnext]
    exact hclosed
  | false =>
    have hnext : OpenWatch.next { lines, chunks } =
        OpenWatch.next { lines := ⟨rest⟩, connected := false } := hawait
    exact fun n => (answer_congr hnext n).trans (hclosed n)

/-- **A watch that is held gives its reply**, and nothing ever after. -/
theorem says_held (lines : Lines) (chunks : List Octets) (cut : Bool) :
    Says { lines, chunks, cut } (said cut (lines.pending ++ chunks.flatten)) := by
  intro n
  induction n generalizing lines chunks with
  | zero =>
    rcases await_cases cut lines chunks with
      ⟨line, arrived, later, rest, rfl, htakes, hawait⟩ | ⟨rest, htakes, hrest, hawait⟩
    · rw [List.flatten_append, ← List.append_assoc, said_of_takes htakes]
      exact congrArg Prod.fst hawait
    · exact says_unended hawait htakes hrest 0
  | succ n ih =>
    rcases await_cases cut lines chunks with
      ⟨line, arrived, later, rest, rfl, htakes, hawait⟩ | ⟨rest, htakes, hrest, hawait⟩
    · rw [List.flatten_append, ← List.append_assoc, said_of_takes htakes]
      exact (congrArg (fun r => OpenWatch.answer r.2 n) hawait).trans (ih ⟨rest⟩ later)
    · exact says_unended hawait htakes hrest (n + 1)

/-! ## Stopping -/

theorem closed_asked (h : w.connected = false) (n : Nat) : (w.asked n).connected = false := by
  induction n generalizing w with
  | zero => exact h
  | succ n ih => exact ih (next_closed h).1

/-- **As long as a watch is held, what it gave and what is pending are the events of the chunks that
arrived**, whatever arrives behind them. -/
theorem given_of_held (lines : Lines) (chunks : List Octets) (cut : Bool) (n : Nat)
    (h : (asked { lines, chunks, cut } n).connected = true) :
    ∃ arrived given, chunks = arrived ++ (asked { lines, chunks, cut } n).chunks ∧
      (List.range n).map (answer { lines, chunks, cut }) = shown given ∧
      ∀ more, eventsOf (lines.pending ++ arrived.flatten ++ more) =
        given ++ eventsOf ((asked { lines, chunks, cut } n).lines.pending ++ more) := by
  induction n generalizing lines chunks with
  | zero => exact ⟨[], [], rfl, rfl, fun more => by simp [asked]⟩
  | succ n ih =>
    rcases await_cases cut lines chunks with
      ⟨line, arrived, later, rest, rfl, htakes, hawait⟩ | ⟨rest, -, -, hawait⟩
    · have hasked : asked { lines, chunks := arrived ++ later, cut } (n + 1) =
          asked { lines := ⟨rest⟩, chunks := later, cut } n :=
        congrArg (fun r => asked r.2 n) hawait
      have hanswer (k : Nat) : answer { lines, chunks := arrived ++ later, cut } (k + 1) =
          answer { lines := ⟨rest⟩, chunks := later, cut } k :=
        congrArg (fun r => answer r.2 k) hawait
      rw [hasked] at h ⊢
      obtain ⟨arrived', given, hlater, hgiven, hmore⟩ := ih ⟨rest⟩ later h
      refine ⟨arrived ++ arrived', Event.ofLine line :: given, ?_, ?_, ?_⟩
      · rw [List.append_assoc, ← hlater]
      · rw [List.range_succ_eq_map, List.map_cons, List.map_map]
        refine congrArg₂ List.cons (congrArg Prod.fst hawait) (Eq.trans ?_ hgiven)
        exact List.map_congr_left fun k _ => hanswer k
      · intro more
        rw [List.flatten_append, List.append_assoc, List.append_assoc, ← List.append_assoc,
          eventsOf, htakes.linesOf, List.cons_append, ← hmore more, List.append_assoc]
        rfl
    · -- the reply is over, and so is the watch
      have hover : (await cut lines chunks).2.connected = false := by
        rw [hawait]
        cases cut <;> rfl
      have hclosed : (asked { lines, chunks, cut } (n + 1)).connected = false :=
        closed_asked hover n
      rw [hclosed] at h
      cases h

/-! ## Both -/

/-- Nothing is given behind the error of a cut reply exactly if its last line is blank. -/
theorem cut_nothing_iff (chunks : List Octets) :
    (∀ n, (ended chunks.flatten).length < n → answer { chunks, cut := true } n = .ok none) ↔
      linesOf (unended chunks.flatten) = [] := by
  have hcut : Says { chunks, cut := true } (said true chunks.flatten) := says_held {} chunks true
  have hbehind := hcut.behind
  have hlength : (shown ((ended chunks.flatten).map Event.ofLine)).length =
      (ended chunks.flatten).length := by
    rw [shown, List.length_map, List.length_map]
  have hlast : eventsOf (unended chunks.flatten) = [] ↔ linesOf (unended chunks.flatten) = [] :=
    List.map_eq_nil_iff
  rw [hlength] at hbehind
  rw [← hlast, ← shown_nothing_iff]
  constructor
  · intro hnone n
    exact (hbehind n).symm.trans (hnone _ (by omega))
  · intro hnone n hn
    obtain ⟨k, rfl⟩ := Nat.exists_eq_add_of_le (Nat.succ_le_of_lt hn)
    exact (hbehind k).trans (hnone k)

/-- **What a watch says once it is over**, stopped or with its reply cut short. -/
theorem over_watch_says (chunks : List Octets) (cut : Bool) :
    -- asked again and again, a watch gives its reply and then nothing: if the reply is cut short,
    -- the lines that ended come before the error, and what is left of the last line behind it
    Says { chunks, cut } (said cut chunks.flatten) ∧
    -- so a reply that is cut short is over with its error exactly if its last line is blank
    (cut = true →
      ((∀ n, (ended chunks.flatten).length < n → answer { chunks, cut } n = .ok none) ↔
        linesOf (unended chunks.flatten) = [])) ∧
    -- a watch that is stopped gives what is pending, and then nothing
    ∀ n, let w := asked { chunks, cut } n
      Says w.stop (shown (eventsOf w.lines.pending)) ∧
      -- so it is over at once exactly if no line is pending but blank ones
      ((∀ k, w.stop.answer k = .ok none) ↔ linesOf w.lines.pending = []) ∧
      -- if it was held till then, this is what arrived and was not given yet
      (w.connected = true → ∃ arrived given, chunks = arrived ++ w.chunks ∧
        (List.range n).map (answer { chunks, cut }) = shown given ∧
        eventsOf arrived.flatten = given ++ eventsOf w.lines.pending) := by
  refine ⟨says_held {} chunks cut, ?_, ?_⟩
  · rintro rfl
    exact cut_nothing_iff chunks
  · intro n w
    have hstop : w.stop.connected = false := rfl
    refine ⟨says_closed hstop, (says_nothing_iff hstop).trans List.map_eq_nil_iff, ?_⟩
    intro hheld
    obtain ⟨arrived, given, hchunks, hgiven, hmore⟩ := given_of_held {} chunks cut n hheld
    refine ⟨arrived, given, hchunks, hgiven, ?_⟩
    have hevents := hmore []
    rw [List.append_nil, List.append_nil] at hevents
    exact hevents

/-- A watch that was stopped goes on with a line that had arrived, and one whose reply was cut short
tries to read the line that did not end. -/
theorem over_watch_goes_on :
    let line := Text.Utf8.encode "\x7b\"type\":\"BOOKMARK\",\"object\":true\x7d\n"
    let stopped := (asked { chunks := [line ++ line] } 1).stop
    let broken : OpenWatch := { chunks := [line ++ Text.Utf8.encode "\x7b\"type\":"], cut := true }
    stopped.answer 0 = .ok (some (.bookmark (.bool true))) ∧
      broken.answer 1 = .error (.transport "the reply was cut short") ∧
      broken.answer 2 = .error (.undecodable "invalid watch event") := by
  intro line stopped broken
  let bookmark := Text.Utf8.encode "\x7b\"type\":\"BOOKMARK\",\"object\":true\x7d"
  let rest := Text.Utf8.encode "\x7b\"type\":"
  -- the line that ended is a printed value, so it is read back
  have hbookmark : Event.ofLine bookmark = .ok (.bookmark (.bool true)) := by
    have hprinted : bookmark = Text.Utf8.encode
        (Json.ofMembers [("type", .text "BOOKMARK"), ("object", .bool true)]).render := by
      decide +kernel
    rw [Event.ofLine, hprinted, Json.Document.ofOctets_encode, Json.decode_render _ rfl]
    rfl
  have hrest : Event.ofLine rest = .error (.undecodable "invalid watch event") := by
    have hnone : (Event.ofLine rest).toOption.isNone = true := by decide +kernel
    cases hanswer : Event.ofLine rest with
    | ok e => rw [hanswer] at hnone; cases hnone
    | error e => rw [Lines.ofLine_error hanswer]
  have hpending : linesOf stopped.lines.pending = [bookmark] := by decide +kernel
  have hended : ended broken.chunks.flatten = [bookmark] := by decide +kernel
  have hunended : linesOf (unended broken.chunks.flatten) = [rest] := by decide +kernel
  have hstopped : Says stopped [.ok (some (.bookmark (.bool true)))] := by
    have hsays := says_closed (w := stopped) rfl
    rwa [eventsOf, hpending, List.map_singleton, hbookmark] at hsays
  have hbroken : Says broken [.ok (some (.bookmark (.bool true))),
      .error (.transport "the reply was cut short"),
      .error (.undecodable "invalid watch event")] := by
    have hsays := says_held {} broken.chunks true
    rwa [said, if_pos rfl, eventsOf, List.nil_append, hended, hunended, List.map_singleton,
      List.map_singleton, hbookmark, hrest] at hsays
  exact ⟨hstopped 0, hbroken 1, hbroken 2⟩

end OpenWatch

end TabBoard.Cluster
