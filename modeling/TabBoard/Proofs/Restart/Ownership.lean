import TabBoard.Proofs.Restart.Calls
import Mathlib.Data.List.Nodup

/-!
# Who holds which deployment

However the steps of any number of calls and workers come, a deployment is in the hands of one call
at most, and the deployments under way are those in somebody's hands.

What a call has written so far is told by its phase (`Call.Told`). So the entries of a call that is
over have one of three forms (`Whole`): it was refused, or its tab was unknown, or it was accepted
and went through all the acts of its restart, published the outcome and gave the deployment back.

**Theorem (`sound_run`).** All of this (`Sound`) holds along every run. There is one lemma for each
kind of step.
-/

namespace TabBoard.Restarts

open Restart (Act Outcome)

/-! ## What a call writes -/

def entriesOf (n : Nat) (log : List Entry) : List Entry := log.filter (·.call = n)

/-- The acts are all that some restart of the deployment does. -/
def Serves (key : DeploymentKey) (as : List Act) : Prop :=
  ∃ limit script time, as = acts key limit script time

/-- What an accepted call wrote until its worker had done some acts. -/
def begun (done : List Act) : List Event := .took :: .accepted :: done.map .did

/-- What an accepted call has written when it is over. -/
def complete (done : List Act) (o : Outcome) : List Event :=
  begun done ++ [.published o, .released]

/-- What a call that holds its deployment has written. -/
def Call.Told (c : Call) (es : List Event) : Prop :=
  match c.phase with
  | .taken => es = [.took]
  | .refused e => es = [.took, .unknown e]
  | .working rest => ∃ done, Serves c.key (done ++ rest) ∧ es = begun done
  | .published => ∃ done o, Serves c.key (done ++ [.publish o]) ∧ es = begun done ++ [.published o]

/-- What a call has written that is over. -/
inductive Whole (key : Option DeploymentKey) : List Event → Prop
  | refused (e : Restart.Error) : Whole key [.refused e]
  | unknown (e : UnknownTab) : Whole key [.took, .unknown e, .released]
  | finished {k : DeploymentKey} {done : List Act} {o : Outcome} (hkey : key = some k)
      (hserves : Serves k (done ++ [.publish o])) :
      Whole key (complete done o)

variable {b : Board} {s s' : Restarts} {log : List Entry} {e : Entry} {c : Call} {n : Nat}

theorem entriesOf_snoc :
    entriesOf n (log ++ [e]) =
      if e.call = n then entriesOf n log ++ [e] else entriesOf n log := by
  unfold entriesOf
  rw [List.filter_append, List.filter_singleton]
  split_ifs <;> simp_all

/-- What a call has written, after one more step of it. -/
theorem entriesOf_extend {tab : Nat} {key : Option DeploymentKey} {es : List Event} {ev : Event}
    (h : entriesOf n log = es.map (Entry.mk n tab key)) :
    entriesOf n (log ++ [⟨n, tab, key, ev⟩]) = (es ++ [ev]).map (Entry.mk n tab key) := by
  rw [entriesOf_snoc, if_pos rfl, h, List.map_append]
  rfl

theorem entriesOf_snoc_of_ne (h : e.call ≠ n) : entriesOf n (log ++ [e]) = entriesOf n log := by
  rw [entriesOf_snoc, if_neg h]

theorem mem_entriesOf : e ∈ entriesOf n log ↔ e ∈ log ∧ e.call = n := by
  simp [entriesOf]

theorem mem_middle {α : Type} {before after : List α} {a a' : α} :
    a' ∈ before ++ a :: after ↔ a' = a ∨ a' ∈ before ++ after :=
  List.perm_middle.mem_iff.trans List.mem_cons

theorem concluded_of_serves {key : DeploymentKey} {as : List Act} (h : Serves key as) :
    Restart.Concluded as := by
  obtain ⟨limit, script, time, rfl⟩ := h
  exact Restart.concluded_timeline _ _ _ _

/-- **A call that goes on tells the story of its new phase.** -/
theorem Call.Told.advance {es : List Event} {ev : Event} {phase : Phase} {b' : Board}
    (h : c.Told es) (hadv : Advance b c ev phase b') :
    { c with phase }.Told (es ++ [ev]) := by
  cases hadv with
  | accept limit script time hphase hemit =>
    simp only [Told, hphase] at h
    subst h
    exact ⟨[], ⟨limit, script, time, rfl⟩, rfl⟩
  | unknown hphase hemit =>
    simp only [Told, hphase] at h
    subst h
    rfl
  | @act a rest hphase hact =>
    simp only [Told, hphase] at h
    obtain ⟨done, hserves, rfl⟩ := h
    refine ⟨done ++ [a], ?_, by simp [begun]⟩
    rwa [List.append_assoc]
  | @publish o rest hphase =>
    simp only [Told, hphase] at h
    obtain ⟨done, hserves, rfl⟩ := h
    -- the outcome is the last act
    have hrest := concluded_of_serves hserves done o rest rfl
    subst hrest
    exact ⟨done, o, hserves, rfl⟩

theorem Call.Told.whole {es : List Event} (h : c.Told es) (hover : c.phase.Over) :
    Whole (some c.key) (es ++ [.released]) := by
  cases hphase : c.phase with
  | taken | working =>
    rw [hphase] at hover
    exact hover.elim
  | refused e =>
    simp only [Told, hphase] at h
    subst h
    exact .unknown e
  | published =>
    simp only [Told, hphase] at h
    obtain ⟨done, o, hserves, rfl⟩ := h
    rw [List.append_assoc]
    exact .finished rfl hserves

/-! ## The invariant -/

/-- One call for each deployment under way, and what every call wrote. -/
structure Sound (log : List Entry) (s : Restarts) : Prop where
  keys : (s.holders.map (·.key)).Nodup
  numbers : (s.holders.map (·.number)).Nodup
  numbered : ∀ c ∈ s.holders, c.number < s.calls
  past : ∀ e ∈ log, e.call < s.calls
  inFlight : ∀ key tab, s.board.inFlight.get? key = some tab ↔
    ∃ c ∈ s.holders, c.key = key ∧ c.tab = tab
  distinct : s.board.inFlight.Distinct
  /-- The tab of a worker is known. -/
  known : ∀ c ∈ s.holders, ∀ rest, c.phase = .working rest → c.tab < s.board.store.size
  held : ∀ c ∈ s.holders, ∃ es, c.Told es ∧ entriesOf c.number log = es.map c.entry
  ended : ∀ n < s.calls, (∀ c ∈ s.holders, c.number ≠ n) →
    ∃ tab key es, Whole key es ∧ entriesOf n log = es.map (Entry.mk n tab key)

theorem sound_start (b : Board) : Sound [] (start b) where
  keys := List.nodup_nil
  numbers := List.nodup_nil
  numbered := by simp [start]
  past := by simp
  inFlight := by simp [start]
  distinct := Table.distinct_empty
  known := by simp [start]
  held := by simp [start]
  ended := by simp [start]

theorem Sound.entriesOf_new (h : Sound log s) (tab : Nat) (key : Option DeploymentKey) :
    entriesOf s.calls log = [].map (Entry.mk s.calls tab key) := by
  refine List.filter_eq_nil_iff.2 ?_
  intro e he
  have := h.past e he
  simp only [decide_eq_true_eq]
  omega

theorem Sound.past_snoc (h : Sound log s) (he : e.call ≤ s.calls) :
    ∀ e' ∈ log ++ [e], e'.call < s.calls + 1 := by
  intro e' he'
  rcases List.mem_append.1 he' with hold | hnew
  · exact Nat.lt_succ_of_lt (h.past e' hold)
  · rw [List.mem_singleton.1 hnew]
    exact Nat.lt_succ_of_le he

/-- No other call has the number or the deployment of a call. -/
theorem Sound.apart {before after : List Call} (h : Sound log s)
    (hholders : s.holders = before ++ c :: after) :
    ∀ c' ∈ before ++ after, c'.number ≠ c.number ∧ c'.key ≠ c.key := by
  have hkeys := h.keys
  have hnumbers := h.numbers
  rw [hholders, List.map_append, List.map_cons, List.nodup_middle, List.nodup_cons,
    ← List.map_append] at hkeys hnumbers
  intro c' hc'
  exact ⟨fun heq => hnumbers.1 (heq ▸ List.mem_map_of_mem hc'),
    fun heq => hkeys.1 (heq ▸ List.mem_map_of_mem hc')⟩

/-! ## Every step keeps it -/

theorem Sound.refuse {tab : Nat} {key : Option DeploymentKey} {x : Restart.Error} (h : Sound log s)
    (hkey : ∀ k, key = some k → s.board.inFlight.contains k = true)
    (hrequest : s.board.requestRestart tab key = (.error x, b)) :
    Sound (log ++ [⟨s.calls, tab, key, .refused x⟩])
      { s with board := b, calls := s.calls + 1 } := by
  obtain ⟨hin, hstore, -⟩ := requestRestart_refused hkey hrequest
  refine ⟨h.keys, h.numbers, fun c hc => Nat.lt_succ_of_lt (h.numbered c hc),
    h.past_snoc (Nat.le_refl _), ?inFlight, ?distinct, ?known, ?held, ?ended⟩
  case inFlight =>
    simpa only [hin] using h.inFlight
  case distinct =>
    simpa only [hin] using h.distinct
  case known =>
    simpa only [hstore] using h.known
  case held =>
    intro c hc
    rw [entriesOf_snoc_of_ne (Nat.ne_of_gt (h.numbered c hc))]
    exact h.held c hc
  case ended =>
    intro n hn hfree
    by_cases hnew : n = s.calls
    · subst hnew
      exact ⟨tab, key, _, .refused x, entriesOf_extend (h.entriesOf_new tab key)⟩
    · rw [entriesOf_snoc_of_ne (Ne.symm hnew)]
      exact h.ended n (by simp only at hn; omega) hfree

theorem Sound.take {tab : Nat} {key : DeploymentKey} (h : Sound log s)
    (hoccupy : s.board.occupy tab key = .ok b) :
    Sound (log ++ [⟨s.calls, tab, some key, .took⟩])
      { board := b, holders := s.holders ++ [⟨s.calls, tab, key, .taken⟩],
        calls := s.calls + 1 } := by
  obtain ⟨hnone, hin, hstore⟩ := occupy_ok hoccupy
  have hfree : ∀ c ∈ s.holders, c.key ≠ key := by
    rintro c hc rfl
    rw [(h.inFlight c.key c.tab).2 ⟨c, hc, rfl, rfl⟩] at hnone
    cases hnone
  refine ⟨?keys, ?numbers, ?numbered, h.past_snoc (Nat.le_refl _), ?inFlight, ?distinct, ?known,
    ?held, ?ended⟩
  case keys =>
    simp only [List.map_append, List.nodup_append, h.keys, true_and]
    simpa using hfree
  case numbers =>
    simp only [List.map_append, List.nodup_append, h.numbers, true_and]
    simpa using fun c hc => Nat.ne_of_lt (h.numbered c hc)
  case numbered =>
    intro c hc
    rcases List.mem_append.1 hc with hold | hnew
    · exact Nat.lt_succ_of_lt (h.numbered c hold)
    · rw [List.mem_singleton.1 hnew]
      exact Nat.lt_succ_self _
  case inFlight =>
    intro k t
    rw [hin, Table.get?_insert]
    by_cases hk : key = k
    · subst hk
      have hnobody : ¬ ∃ c ∈ s.holders, c.key = key ∧ c.tab = t := by
        rintro ⟨c, hc, hck, -⟩
        exact hfree c hc hck
      simp [or_and_right, exists_or, hnobody]
    · simp [or_and_right, exists_or, h.inFlight, hk]
  case distinct =>
    rw [hin]
    exact h.distinct.insert _ _
  case known =>
    intro c hc
    rcases List.mem_append.1 hc with hold | hnew
    · simpa only [hstore] using h.known c hold
    · rw [List.mem_singleton.1 hnew]
      intro rest hphase
      cases hphase
  case held =>
    intro c hc
    rcases List.mem_append.1 hc with hold | hnew
    · rw [entriesOf_snoc_of_ne (Nat.ne_of_gt (h.numbered c hold))]
      exact h.held c hold
    · rw [List.mem_singleton.1 hnew]
      exact ⟨[.took], rfl, entriesOf_extend (h.entriesOf_new tab (some key))⟩
  case ended =>
    intro n hn hnot
    have hnew : n ≠ s.calls := fun heq =>
      hnot ⟨s.calls, tab, key, .taken⟩ (by simp) heq.symm
    rw [entriesOf_snoc_of_ne (Ne.symm hnew)]
    exact h.ended n (by simp only at hn; omega) fun c hc => hnot c (List.mem_append_left _ hc)

/-- What goes on does to the board: the deployments under way are the same, and there are as many
tabs. -/
theorem Advance.board {ev : Event} {phase : Phase} {b' : Board} (h : Advance b c ev phase b') :
    b'.inFlight = b.inFlight ∧ b'.store.size = b.store.size := by
  cases h with
  | accept limit script time hphase hemit =>
    obtain ⟨hin, -, hstatuses⟩ := emit_ok hemit
    exact ⟨hin, by simp [Store.size, Board.measure, hstatuses]⟩
  | unknown | act => exact ⟨rfl, rfl⟩
  | publish =>
    exact ⟨publishOutcome_inFlight _ _ _ _, by simp [Store.size, publishOutcome_statuses]⟩

theorem Advance.known {ev : Event} {phase : Phase} {b' : Board} (h : Advance b c ev phase b')
    (hknown : ∀ rest, c.phase = .working rest → c.tab < b.store.size) :
    ∀ rest, phase = .working rest → c.tab < b.store.size := by
  intro rest hrest
  cases h with
  | accept limit script time hphase hemit => exact (emit_ok hemit).2.1
  | unknown | publish => cases hrest
  | act hphase hact => exact hknown _ hphase

theorem Sound.advance {before after : List Call} {ev : Event} {phase : Phase} (h : Sound log s)
    (hholders : s.holders = before ++ c :: after) (hadv : Advance s.board c ev phase b) :
    Sound (log ++ [c.entry ev])
      { s with board := b, holders := before ++ { c with phase } :: after } := by
  obtain ⟨hin, hsize⟩ := hadv.board
  have hapart := h.apart hholders
  have hmem : ∀ c', c' ∈ s.holders ↔ c' = c ∨ c' ∈ before ++ after := by
    intro c'
    rw [hholders, mem_middle]
  have hself : c ∈ s.holders := (hmem c).2 (.inl rfl)
  refine ⟨?keys, ?numbers, ?numbered, ?past, ?inFlight, ?distinct, ?known, ?held, ?ended⟩
  case keys =>
    simpa [hholders] using h.keys
  case numbers =>
    simpa [hholders] using h.numbers
  case numbered =>
    intro c' hc'
    rcases mem_middle.1 hc' with rfl | hold
    · exact h.numbered c hself
    · exact h.numbered c' ((hmem c').2 (.inr hold))
  case past =>
    intro e he
    rcases List.mem_append.1 he with hold | hnew
    · exact h.past e hold
    · rw [List.mem_singleton.1 hnew]
      exact h.numbered c hself
  case inFlight =>
    intro key tab
    simp only [hin, h.inFlight, hholders, mem_middle, or_and_right, exists_or, exists_eq_left]
  case distinct =>
    simpa only [hin] using h.distinct
  case known =>
    intro c' hc'
    simp only [hsize]
    rcases mem_middle.1 hc' with rfl | hold
    · exact hadv.known (h.known c hself)
    · exact h.known c' ((hmem c').2 (.inr hold))
  case held =>
    intro c' hc'
    rcases mem_middle.1 hc' with rfl | hold
    · obtain ⟨es, htold, hes⟩ := h.held c hself
      exact ⟨es ++ [ev], htold.advance hadv, entriesOf_extend hes⟩
    · rw [entriesOf_snoc_of_ne (hapart c' hold).1.symm]
      exact h.held c' ((hmem c').2 (.inr hold))
  case ended =>
    intro n hn hnot
    have hne : c.number ≠ n := hnot { c with phase } (mem_middle.2 (.inl rfl))
    rw [entriesOf_snoc_of_ne hne]
    refine h.ended n hn ?_
    intro c' hc'
    rcases (hmem c').1 hc' with rfl | hold
    · exact hne
    · exact hnot c' (mem_middle.2 (.inr hold))

theorem Sound.release {before after : List Call} (h : Sound log s)
    (hholders : s.holders = before ++ c :: after) (hover : c.phase.Over) :
    Sound (log ++ [c.entry .released])
      { s with board := s.board.release c.key, holders := before ++ after } := by
  have hapart := h.apart hholders
  have hmem : ∀ c', c' ∈ s.holders ↔ c' = c ∨ c' ∈ before ++ after := by
    intro c'
    rw [hholders, mem_middle]
  have hself : c ∈ s.holders := (hmem c).2 (.inl rfl)
  have hrest : ∀ c' ∈ before ++ after, c' ∈ s.holders := fun c' hc' => (hmem c').2 (.inr hc')
  have hsub : (before ++ after).Sublist s.holders := by
    rw [hholders]
    exact (List.Sublist.refl before).append (List.sublist_cons_self c after)
  refine ⟨h.keys.sublist (hsub.map _), h.numbers.sublist (hsub.map _),
    fun c' hc' => h.numbered c' (hrest c' hc'), ?past, ?inFlight, h.distinct.erase c.key,
    fun c' hc' => h.known c' (hrest c' hc'), ?held, ?ended⟩
  case past =>
    intro e he
    rcases List.mem_append.1 he with hold | hnew
    · exact h.past e hold
    · rw [List.mem_singleton.1 hnew]
      exact h.numbered c hself
  case inFlight =>
    intro key tab
    show (s.board.inFlight.erase c.key).get? key = some tab ↔ _
    rw [Table.get?_erase]
    split_ifs with hk
    · -- the deployment that was given back is nobody's
      simp only [false_iff]
      rintro ⟨c', hc', hkey, -⟩
      exact (hapart c' hc').2 (hkey.trans hk.symm)
    · rw [h.inFlight]
      constructor
      · rintro ⟨c', hc', hkey, htab⟩
        rcases (hmem c').1 hc' with rfl | hold
        · exact absurd hkey hk
        · exact ⟨c', hold, hkey, htab⟩
      · rintro ⟨c', hc', hkey, htab⟩
        exact ⟨c', hrest c' hc', hkey, htab⟩
  case held =>
    intro c' hc'
    rw [entriesOf_snoc_of_ne (hapart c' hc').1.symm]
    exact h.held c' (hrest c' hc')
  case ended =>
    intro n hn hnot
    by_cases hn' : c.number = n
    · subst hn'
      obtain ⟨es, htold, hes⟩ := h.held c hself
      exact ⟨c.tab, some c.key, _, htold.whole hover, entriesOf_extend hes⟩
    · rw [entriesOf_snoc_of_ne hn']
      refine h.ended n hn ?_
      intro c' hc'
      rcases (hmem c').1 hc' with rfl | hold
      · exact hn'
      · exact hnot c' hold

theorem Sound.step (h : Sound log s) (hstep : Step s e s') : Sound (log ++ [e]) s' := by
  cases hstep with
  | refuse hkey hrequest => exact h.refuse hkey hrequest
  | take hoccupy => exact h.take hoccupy
  | advance hholders hadvance => exact h.advance hholders hadvance
  | release hholders hover => exact h.release hholders hover

theorem sound_run (h : Run (start b) log s) : Sound log s := by
  induction h with
  | nil => exact sound_start b
  | snoc hrun hstep ih => exact ih.step hstep

end TabBoard.Restarts
