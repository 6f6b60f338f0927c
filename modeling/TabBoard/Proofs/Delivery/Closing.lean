import TabBoard.Proofs.Delivery.Takeovers
import TabBoard.Proofs.Http.Callback

/-!
# Connections that were replaced are closed

**Theorem (`run_closed_once`).** As long as no token is used twice, the gateway is asked to close
exactly the tokens whose place another connection took, each once, after the observers of that
connect were told, and no token that is registered (`Tidy`). Every connect, and every disconnect
that removed a connection, tells each observer once that there was when it began to tell them
(`audience_run`), and every call returns if it goes on (`exists_returned`).

**Theorem (`connect_moves`).** Connecting in a simulation is some moves of this kind: its own, and
those of agents while the gateway closes the connection that was replaced.
-/

namespace TabBoard

namespace Takeovers

variable {s s' : Takeovers} {c c' : Call} {m : Move} {ms : List Move} {n : Nat}
  {id token url t : String} {os os' : List Observer}

/-! ## Whom a call tells -/

/-- A call was there before a move, or it is begun by it, or it went on. -/
theorem call_of_step (h : (s.step m).calls[n]? = some c) :
    s.calls[n]? = some c ∨ c.phase = .begun ∨
      ∃ c₀, m = .go n ∧ s.calls[n]? = some c₀ ∧ c = c₀.go (s.observers c₀.bus) := by
  have hbegun : ∀ {new : List Call}, (s.calls ++ new)[n]? = some c →
      (∀ c ∈ new, c.phase = .begun) → s.calls[n]? = some c ∨ c.phase = .begun := by
    intro new hn hnew
    rcases Nat.lt_or_ge n s.calls.length with hlt | hge
    · rw [List.getElem?_append_left hlt] at hn
      exact .inl hn
    · rw [List.getElem?_append_right hge] at hn
      exact .inr (hnew c (List.mem_of_getElem? hn))
  cases m with
  | connect id token url =>
    exact (hbegun h (by simp)).imp_right .inl
  | disconnect token =>
    simp only [step] at h
    split at h
    · exact (hbegun h (by simp)).imp_right .inl
    · exact .inl h
  | lost | bind => exact .inl h
  | observe bus o => cases bus <;> exact .inl h
  | go k =>
    cases hk : s.calls[k]? with
    | none =>
      rw [step_go_none hk] at h
      exact .inl h
    | some c₀ =>
      simp only [step, hk, List.getElem?_set] at h
      split_ifs at h with hkn hlt
      · subst hkn
        exact .inr (.inr ⟨c₀, rfl, hk, (Option.some.inj h).symm⟩)
      · exact .inl h

/-- A call that looked whom it has to tell keeps to that. -/
theorem Call.audience_go (h : c.phase ≠ .begun) (os : List Observer) :
    (c.go os).audience = c.audience ∧ (c.go os).phase ≠ .begun := by
  unfold Call.go
  split
  · rename_i hphase
    exact absurd hphase h
  · exact ⟨rfl, by simp⟩
  · refine ⟨rfl, ?_⟩
    cases c.replaced <;> simp
  · exact ⟨rfl, by simp⟩
  · exact ⟨rfl, by simp⟩

/-- **Whom a call tells is who had subscribed when it began to tell them.** -/
theorem audience_run (os os' : List Observer) (ms : List Move)
    (hc : (run os os' ms).calls[n]? = some c) : c.phase = .begun ∨
      ∃ before after c₀, ms = before ++ .go n :: after ∧
        (run os os' before).calls[n]? = some c₀ ∧ c₀.phase = .begun ∧
        c.audience = (run os os' before).observers c.bus := by
  induction ms using List.reverseRecOn generalizing c with
  | nil => simp [run, moves, start] at hc
  | append_singleton ms m ih =>
    rw [run_concat] at hc
    have hlater : ∀ c', (run os os' ms).calls[n]? = some c' → c'.phase ≠ .begun →
        ∃ before after c₀, ms ++ [m] = before ++ .go n :: after ∧
          (run os os' before).calls[n]? = some c₀ ∧ c₀.phase = .begun ∧
          c'.audience = (run os os' before).observers c'.bus := by
      intro c' hc' hphase
      obtain ⟨before, after, c₀, rfl, hrest⟩ := (ih hc').resolve_left hphase
      exact ⟨before, after ++ [m], c₀, by simp, hrest⟩
    rcases call_of_step hc with hold | hbegun | ⟨c₀, rfl, hc₀, rfl⟩
    · by_cases hphase : c.phase = .begun
      · exact .inl hphase
      · exact .inr (hlater c hold hphase)
    · exact .inl hbegun
    · right
      by_cases hphase : c₀.phase = .begun
      · refine ⟨ms, [], c₀, by simp, hc₀, hphase, ?_⟩
        simp only [Call.go, hphase]
      · obtain ⟨haudience, -⟩ := Call.audience_go hphase ((run os os' ms).observers c₀.bus)
        rw [haudience, (Call.go_same _ c₀).1]
        exact hlater c₀ hc₀ hphase

/-! ## All calls return -/

/-- How many steps a call still makes. -/
def Call.left (observers : Bus → List Observer) (c : Call) : Nat :=
  match c.phase with
  | .begun => (observers c.bus).length + 3
  | .telling rest => rest.length + 2
  | .closing => 1
  | .returned => 0

theorem Call.left_go (observers : Bus → List Observer) (h : c.phase ≠ .returned) :
    (c.go (observers c.bus)).left observers < c.left observers := by
  cases hphase : c.phase with
  | begun => simp [Call.go, Call.left, hphase]
  | telling rest =>
    cases rest with
    | nil => cases hreplaced : c.replaced <;> simp [Call.go, Call.left, hphase, hreplaced]
    | cons o rest => simp [Call.go, Call.left, hphase]
  | closing => simp [Call.go, Call.left, hphase]
  | returned => exact absurd hphase h

/-- **Every call can go on until it returns.** -/
theorem exists_returned (s : Takeovers) :
    ∃ ms, (∀ m ∈ ms, ∃ n, m = .go n) ∧ ∀ c ∈ (s.moves ms).calls, c.phase = .returned := by
  generalize hleft : (s.calls.map (·.left s.observers)).sum = left
  induction left using Nat.strongRecOn generalizing s with
  | ind left ih =>
    by_cases hreturned : ∀ c ∈ s.calls, c.phase = .returned
    · exact ⟨[], by simp, hreturned⟩
    · obtain ⟨c, hc, hphase⟩ : ∃ c ∈ s.calls, c.phase ≠ .returned := by simpa using hreturned
      obtain ⟨n, hn⟩ := List.mem_iff_getElem?.1 hc
      obtain ⟨before, after, hcalls, hstep⟩ := step_go hn
      have hless := Call.left_go s.observers hphase
      have hobservers : (s.step (.go n)).observers = s.observers := by
        rw [hstep]
        rfl
      have hsum : ((s.step (.go n)).calls.map (·.left (s.step (.go n)).observers)).sum < left := by
        rw [hobservers, hstep, ← hleft, hcalls]
        simp only [List.map_append, List.map_cons, List.sum_append, List.sum_cons]
        omega
      obtain ⟨ms, hms, hreturned⟩ := ih _ hsum (s.step (.go n)) rfl
      exact ⟨.go n :: ms, by simpa using hms, hreturned⟩

/-! ## Closing -/

/-- What holds of the state `s` that some moves lead to. -/
structure Tidy (os os' : List Observer) (ms : List Move) (s : Takeovers) : Prop where
  /-- The gateway is asked to close only what a connect took the place of, once that connect has
  told its observers, and never what it was asked to close before or what is registered. -/
  closes : ∀ m, (s.step m).closed = s.closed ∨
    ∃ n c t, m = .go n ∧ s.calls[n]? = some c ∧ Displaces s n c t ∧
      c.phase = .telling [] ∧ c.told = c.audience ∧ t ∉ s.closed ∧
      s.registry.tokens.get? t = none ∧ (s.step m).closed = s.closed ++ [t]
  once : s.closed.Nodup
  /-- What was closed is not registered, then and ever after. -/
  spares : ∀ t ∈ s.closed, s.registry.tokens.get? t = none ∧
    ∀ id conn, s.registry.connections.get? id = some conn → conn.token ≠ t
  /-- Once all calls have returned, everything was closed whose place was taken. -/
  all : (∀ c ∈ s.calls, c.phase = .returned) → s.closed.Perm s.displaced ∧
    ∀ t ∈ s.displaced, s.closed.count t = 1
  returns : ∃ ms, (∀ m ∈ ms, ∃ n, m = .go n) ∧ ∀ c ∈ (s.moves ms).calls, c.phase = .returned
  /-- A connect takes the place of the token that its request id has. -/
  displaces : ∀ id token url, token ∉ tokens ms → (s.step (.connect id token url)).calls =
    s.calls ++ [{
      bus := .connects, id, token, replaced := (s.registry.connections.get? id).map (·.token) }]
  /-- There is one call for each connect, and one for each disconnect that removes a connection. -/
  connects : s.connects = ms.filterMap (·.connect?)
  disconnects : ∀ token, (s.step (.disconnect token)).calls = s.calls ++
    (s.registry.tokens.get? token).toList.map fun id => { bus := .disconnects, id, token }
  /-- A call that returned has told its whole audience, each once and in order. -/
  told : ∀ c ∈ s.calls, c.told ++ c.rest = c.audience ∧ (c.phase = .returned → c.told = c.audience)
  /-- The audience is whoever had subscribed when the call began to tell them. -/
  audience : ∀ n c, s.calls[n]? = some c → c.phase = .begun ∨
    ∃ before after c₀, ms = before ++ .go n :: after ∧
      (run os os' before).calls[n]? = some c₀ ∧ c₀.phase = .begun ∧
      c.audience = (run os os' before).observers c.bus

theorem Sound.nodup_closed (h : Sound s) : (s.closed ++ s.unclosed).Nodup :=
  h.closed.nodup_iff.2 h.once

theorem Sound.mem_displaced (h : Sound s) (ht : t ∈ s.closed) : t ∈ s.displaced :=
  h.closed.mem_iff.1 (List.mem_append_left _ ht)

/-- **The gateway is asked to close what was replaced**, each connection once, and no other. -/
theorem Sound.closes (h : Sound s) (m : Move) : (s.step m).closed = s.closed ∨
    ∃ n c t, m = .go n ∧ s.calls[n]? = some c ∧ Displaces s n c t ∧
      c.phase = .telling [] ∧ c.told = c.audience ∧ t ∉ s.closed ∧
      s.registry.tokens.get? t = none ∧ (s.step m).closed = s.closed ++ [t] := by
  cases m with
  | connect | lost | bind => exact .inl rfl
  | disconnect token =>
    left
    simp only [Takeovers.step]
    split <;> rfl
  | observe bus o => cases bus <;> exact .inl rfl
  | go n =>
    cases hc : s.calls[n]? with
    | none => exact .inl (by rw [step_go_none hc])
    | some c =>
      obtain ⟨before, after, -, hstep⟩ := step_go hc
      cases hcloses : c.closes? with
      | none => exact .inl (by simp [hstep, hcloses])
      | some t =>
        obtain ⟨hphase, hreplaced⟩ := Call.of_closes? hcloses
        have hmem := List.mem_of_getElem? hc
        have hdisplaced : t ∈ s.displaced := List.mem_filterMap.2 ⟨c, hmem, hreplaced⟩
        have hunclosed : t ∈ s.unclosed :=
          List.mem_filterMap.2 ⟨c, hmem, by simp [Call.unclosed?, hphase, hreplaced]⟩
        have htold := (h.calls c hmem).told
        simp only [Call.rest, hphase, List.append_nil] at htold
        refine .inr ⟨n, c, t, rfl, hc, h.origin n c t hc hreplaced, hphase, htold, ?_,
          h.vacated t hdisplaced, by simp [hstep, hcloses]⟩
        exact fun hclosed => (List.nodup_append.1 h.nodup_closed).2.2 t hclosed t hunclosed rfl

theorem Sound.all (h : Sound s) (hreturned : ∀ c ∈ s.calls, c.phase = .returned) :
    s.closed.Perm s.displaced ∧ ∀ t ∈ s.displaced, s.closed.count t = 1 := by
  have hnone : s.unclosed = [] :=
    List.filterMap_eq_nil_iff.2 fun c hc => by simp [Call.unclosed?, hreturned c hc]
  have hperm := h.closed
  rw [hnone, List.append_nil] at hperm
  refine ⟨hperm, fun t ht => ?_⟩
  rw [hperm.count_eq]
  exact List.count_eq_one_of_mem h.once ht

/-- **Every connection that was replaced is closed once**, however connects and disconnects come. -/
theorem run_closed_once (os os' : List Observer) {ms : List Move} (hfresh : (tokens ms).Nodup) :
    Tidy os os' ms (run os os' ms) := by
  have h := sound_run os os' hfresh
  refine ⟨h.closes, (List.nodup_append.1 h.nodup_closed).1, ?spares, h.all, exists_returned _,
    ?displaces, connects_run os os' ms, calls_disconnect h, ?told,
    fun n c hc => audience_run os os' ms hc⟩
  case spares =>
    intro t ht
    have hvacated := h.vacated t (h.mem_displaced ht)
    refine ⟨hvacated, ?_⟩
    rintro id conn hconn rfl
    cases hvacated.symm.trans ((h.registry.consistent conn.token id).2 ⟨conn, hconn, rfl⟩)
  case displaces =>
    intro id token url hnew
    rw [tokens, ← connects_run os os'] at hnew
    rw [step_connect h hnew]
    rfl
  case told =>
    intro c hc
    have htold := (h.calls c hc).told
    refine ⟨htold, fun hphase => ?_⟩
    rwa [Call.rest, hphase, List.append_nil] at htold

/-- A client connects three times, and each time before the connect before has closed anything. The
gateway loses the second connection, and the third connect finds nothing to take the place of. -/
theorem run_closed_once_overlapping :
    let ms : List Move := [.connect "r" "t1" "/", .connect "r" "t2" "/", .go 0, .go 1, .go 1,
      .disconnect "t1", .lost "r" "t2", .connect "r" "t3" "/", .go 1, .go 1, .go 0, .go 0, .go 2,
      .go 2, .go 2]
    let s := run [.replay] [] ms
    (tokens ms).Nodup ∧ Tidy [.replay] [] ms s ∧ (∀ c ∈ s.calls, c.phase = .returned) ∧
      s.closed = ["t1"] ∧ s.registry.tokens.get? "t3" = some "r" := by
  intro ms s
  have hfresh : (tokens ms).Nodup := by decide
  exact ⟨hfresh, run_closed_once [.replay] [] hfresh, by decide, by decide, by decide⟩

/-! ## Connecting in a simulation -/

/-- The state has the registry and the observers of the board. -/
structure Agrees (s : Takeovers) (b : Board) : Prop where
  registry : b.registry = some s.registry
  connectObservers : b.connectObservers = s.connectObservers
  disconnectObservers : b.disconnectObservers = s.disconnectObservers

theorem Agrees.of_fixed {b b' : Board} (h : Agrees s b) (hfixed : Board.Fixed b b')
    (hregistry : b'.registry = some s'.registry) (hobservers : s'.observers = s.observers) :
    Agrees s' b' where
  registry := hregistry
  connectObservers := (hfixed.connectObservers.trans h.connectObservers).trans
    (congrFun hobservers .connects).symm
  disconnectObservers := (hfixed.disconnectObservers.trans h.disconnectObservers).trans
    (congrFun hobservers .disconnects).symm

/-- The calls that began since have returned, and nothing was closed. -/
structure Grown (s s' : Takeovers) : Prop where
  calls : ∃ more, s'.calls = s.calls ++ more ∧ ∀ c ∈ more, c.phase = .returned
  closed : s'.closed = s.closed

theorem Grown.of_same (hcalls : s'.calls = s.calls) (hclosed : s'.closed = s.closed) :
    Grown s s' := ⟨⟨[], by simp [hcalls]⟩, hclosed⟩

/-- What one does to a board is some moves, whose calls return. -/
def Follows (act : Board → Board) : Prop :=
  ∀ s b, Agrees s b → ∃ ms, Agrees (s.moves ms) (act b) ∧ Grown s (s.moves ms)

variable {b : Board} {disconnect : String → Board → Board}

/-- What an observer does is some moves, if disconnecting is. -/
theorem follows_tell (hdisconnect : ∀ token, Follows (disconnect token)) (id : String)
    (o : Observer) : Follows fun b => (Board.tell disconnect id o b).2 := by
  intro s b h
  cases o with
  | replay => exact ⟨[], ⟨h.registry, h.connectObservers, h.disconnectObservers⟩, .of_same rfl rfl⟩
  | witness number reaction =>
    have hnoted : Agrees s { b with sightings := b.sightings ++ [b.sight number id] } :=
      ⟨h.registry, h.connectObservers, h.disconnectObservers⟩
    cases reaction with
    | nothing | panic => exact ⟨[], hnoted, .of_same rfl rfl⟩
    | bind subject =>
      exact ⟨[.bind id subject], hnoted.of_fixed (Board.beside_bind _ id subject).toFixed
        (Connects.bind_registry hnoted.registry id subject) rfl, .of_same rfl rfl⟩
    | disconnect token => exact hdisconnect token s _ hnoted

/-- Observers leave nothing that escapes when they break off. -/
theorem disposal?_tell {disconnect : String → Board → Board} {id : String} {o : Observer}
    {p : Panic} (h : (Board.tell disconnect id o b).1 = some p) : p.disposal? = none := by
  cases o with
  | replay => cases h
  | witness number reaction =>
    cases reaction with
    | panic =>
      cases h
      rfl
    | nothing | bind | disconnect => cases h

/-- Whoever breaks off, the next one is told. -/
theorem notify_tell_cons (disconnect : String → Board → Board) (id : String) (pos : Nat)
    (o : Observer) (os : List Observer) (b : Board) :
    (notify (Board.tell disconnect id) (fun _ _ b => b) pos (o :: os) b).2 =
      (notify (Board.tell disconnect id) (fun _ _ b => b) (pos + 1) os
        (Board.tell disconnect id o b).2).2 := by
  rw [notify]
  rcases htold : Board.tell disconnect id o b with ⟨_ | p, b'⟩
  · rfl
  · simp only [disposal?_tell (congrArg Prod.fst htold)]

/-- A call goes on, which is nothing to the board. -/
theorem go_middle (h : Agrees s b) {before after : List Call}
    (hcalls : s.calls = before ++ c :: after) :
    Agrees (s.step (.go before.length)) b ∧
      (s.step (.go before.length)).calls = before ++ c.go (s.observers c.bus) :: after ∧
      (s.step (.go before.length)).closed = s.closed ++ c.closes?.toList := by
  rw [step_go_middle hcalls]
  exact ⟨⟨h.registry, h.connectObservers, h.disconnectObservers⟩, rfl, rfl⟩

theorem go_quiet (h : Agrees s b) {before after : List Call}
    (hcalls : s.calls = before ++ c :: after) (hquiet : c.closes? = none) :
    Agrees (s.step (.go before.length)) b ∧
      (s.step (.go before.length)).calls = before ++ c.go (s.observers c.bus) :: after ∧
      (s.step (.go before.length)).closed = s.closed := by
  obtain ⟨hagrees, hcalls', hclosed⟩ := go_middle h hcalls
  rw [hquiet] at hclosed
  exact ⟨hagrees, hcalls', hclosed.trans (List.append_nil _)⟩

/-- **A call tells the observers one after the other**, whatever each of them does. -/
theorem notify_moves (hdisconnect : ∀ token, Follows (disconnect token)) (id : String)
    (h : Agrees s b) {before after : List Call} (hcalls : s.calls = before ++ c :: after)
    (hphase : c.phase = .telling os) (pos : Nat) :
    ∃ ms more, Agrees (s.moves ms)
        (notify (Board.tell disconnect id) (fun _ _ b => b) pos os b).2 ∧
      (s.moves ms).calls =
        before ++ { c with phase := .telling [], told := c.told ++ os } :: (after ++ more) ∧
      (∀ c ∈ more, c.phase = .returned) ∧ (s.moves ms).closed = s.closed := by
  induction os generalizing s b c after pos with
  | nil =>
    have hsame : { c with phase := .telling [], told := c.told ++ [] } = c := by
      simp [← hphase]
    exact ⟨[], [], h, by rw [hsame, List.append_nil]; exact hcalls, by simp, rfl⟩
  | cons o os ih =>
    have hgo : c.go (s.observers c.bus) =
        { c with phase := .telling os, told := c.told ++ [o] } := by
      simp only [Call.go, hphase]
    obtain ⟨hagrees, hcalls₁, hclosed₁⟩ := go_quiet h hcalls (by simp [Call.closes?, hphase])
    obtain ⟨ms, htold, ⟨more, hmore, hreturned⟩, hclosed₂⟩ :=
      follows_tell hdisconnect id o _ b hagrees
    rw [hcalls₁, List.append_assoc, List.cons_append, hgo] at hmore
    obtain ⟨ms', more', hrest, hcalls₃, hreturned', hclosed₃⟩ := ih htold hmore rfl (pos + 1)
    refine ⟨.go before.length :: (ms ++ ms'), more ++ more', ?_, ?_,
      List.forall_mem_append.2 ⟨hreturned, hreturned'⟩, ?_⟩
    · rw [moves_cons, moves_append, notify_tell_cons]
      exact hrest
    · rw [moves_cons, moves_append, hcalls₃]
      simp
    · rw [moves_cons, moves_append, hclosed₃, hclosed₂, hclosed₁]

/-- **A call that began tells all observers that there are.** -/
theorem publish_moves (hdisconnect : ∀ token, Follows (disconnect token)) (h : Agrees s b)
    {before : List Call} (hcalls : s.calls = before ++ [c]) (hphase : c.phase = .begun)
    (htold : c.told = []) :
    ∃ ms more, Agrees (s.moves ms)
        (notify (Board.tell disconnect c.id) (fun _ _ b => b) 0 (s.observers c.bus) b).2 ∧
      (s.moves ms).calls = before ++
        { c with
          phase := .telling [], audience := s.observers c.bus, told := s.observers c.bus } ::
          more ∧
      (∀ c ∈ more, c.phase = .returned) ∧ (s.moves ms).closed = s.closed := by
  have hgo : c.go (s.observers c.bus) =
      { c with phase := .telling (s.observers c.bus), audience := s.observers c.bus } := by
    simp only [Call.go, hphase]
  obtain ⟨hagrees, hcalls₁, hclosed₁⟩ := go_quiet h hcalls (by simp [Call.closes?, hphase])
  rw [hgo] at hcalls₁
  obtain ⟨ms, more, hrest, hcalls₂, hreturned, hclosed₂⟩ :=
    notify_moves hdisconnect c.id hagrees hcalls₁ rfl 0
  refine ⟨.go before.length :: ms, more, hrest, ?_, hreturned, hclosed₂.trans hclosed₁⟩
  simpa [htold] using hcalls₂

/-- **Disconnecting is some moves**, also where observers disconnect further tokens. -/
theorem follows_disconnectWithin (n : Nat) (token : String) :
    Follows (Board.disconnectWithin n token) := by
  induction n generalizing token with
  | zero => exact fun s b h => ⟨[], h, .of_same rfl rfl⟩
  | succ n ih =>
    intro s b h
    simp only [Board.disconnectWithin, h.registry]
    rcases hremoved : s.registry.disconnect token with ⟨registry, what⟩
    cases what with
    | unknown | stale =>
      have hstep : s.step (.disconnect token) = { s with registry } := by
        simp only [step, hremoved]
      refine ⟨[.disconnect token], ?_, ?_⟩
      · rw [moves_cons, hstep]
        exact ⟨rfl, h.connectObservers, h.disconnectObservers⟩
      · rw [moves_cons, hstep]
        exact .of_same rfl rfl
    | removed id =>
      let call : Call := { bus := .disconnects, id, token }
      have hstep : s.step (.disconnect token) =
          { s with registry, calls := s.calls ++ [call] } := by
        simp only [step, hremoved, call]
      let b' := { b with registry := some registry }.measure (·.disconnected registry.size)
      have hagrees : Agrees (s.step (.disconnect token)) b' := by
        rw [hstep]
        exact ⟨rfl, h.connectObservers, h.disconnectObservers⟩
      have hobservers : b'.disconnectObservers = (s.step (.disconnect token)).observers call.bus :=
        hagrees.disconnectObservers
      have hcalls₁ : (s.step (.disconnect token)).calls = s.calls ++ [call] := by rw [hstep]
      obtain ⟨ms, more, htold, hcalls₂, hreturned, hclosed₂⟩ :=
        publish_moves ih hagrees hcalls₁ rfl rfl
      -- there is nothing to close, so the call returns
      obtain ⟨hagrees₃, hcalls₃, hclosed₃⟩ := go_quiet htold hcalls₂ rfl
      refine ⟨.disconnect token :: (ms ++ [.go s.calls.length]), ?_⟩
      rw [moves_cons, moves_append]
      show Agrees _ (notify (Board.tell _ id) _ 0 b'.disconnectObservers b').2 ∧ _
      rw [hobservers]
      refine ⟨hagrees₃, ⟨_, hcalls₃, List.forall_mem_cons.2 ⟨rfl, hreturned⟩⟩, ?_⟩
      exact hclosed₃.trans (hclosed₂.trans (by rw [hstep]))

theorem follows_disconnect (token : String) : Follows fun b => b.disconnect token :=
  fun s b h => follows_disconnectWithin _ token s b h

/-- **Registering a connection and telling the observers is some moves.** What is left of the call
is to close the connection that was replaced. -/
theorem board_connect_moves (h : Agrees s b) (id token url : String) :
    ∃ ms c more, Agrees (s.moves ms) (b.connect id token url).2 ∧
      (s.moves ms).calls = s.calls ++ c :: more ∧ c.phase = .telling [] ∧
      c.replaced = (b.connect id token url).1 ∧ (∀ c ∈ more, c.phase = .returned) ∧
      (s.moves ms).closed = s.closed := by
  rcases hconnected : s.registry.connect id token url with ⟨registry, replaced⟩
  let call : Call := { bus := .connects, id, token, replaced }
  have hstep : s.step (.connect id token url) =
      { s with registry, calls := s.calls ++ [call] } := by
    simp only [step, hconnected, call]
  let b' := { b with registry := some registry }.measure (·.connected registry.size)
  have hagrees : Agrees (s.step (.connect id token url)) b' := by
    rw [hstep]
    exact ⟨rfl, h.connectObservers, h.disconnectObservers⟩
  have hobservers : b'.connectObservers = (s.step (.connect id token url)).observers call.bus :=
    hagrees.connectObservers
  have hcalls₁ : (s.step (.connect id token url)).calls = s.calls ++ [call] := by rw [hstep]
  obtain ⟨ms, more, htold, hcalls₂, hreturned, hclosed₂⟩ :=
    publish_moves follows_disconnect hagrees hcalls₁ rfl rfl
  have hboard : b.connect id token url =
      (replaced, (notify (Board.tell (fun token b => b.disconnect token) id) (fun _ _ b => b) 0
        b'.connectObservers b').2) := by
    simp only [Board.connect, h.registry, hconnected]
    rfl
  rw [hboard, hobservers]
  exact ⟨.connect id token url :: ms, _, more, htold, hcalls₂, rfl, rfl, hreturned,
    hclosed₂.trans (by rw [hstep])⟩

/-- What agents do to a board is some moves: they forget connections that are lost. -/
theorem byAgents_moves {sim : Simulation} {bms : List Board.Move} (h : Agrees s b)
    (hbms : ∀ m ∈ bms, sim.ByAgents m) :
    ∃ ms, Agrees (s.moves ms) (b.moves bms) ∧ (s.moves ms).calls = s.calls ∧
      (s.moves ms).closed = s.closed := by
  induction bms generalizing s b with
  | nil => exact ⟨[], h, rfl, rfl⟩
  | cons m bms ih =>
    rw [List.forall_mem_cons] at hbms
    have hfixed := Board.fixed_step b m
    by_cases hm : m.OfConnections
    · cases m with
      | sent id token event outcome =>
        cases outcome with
        | notFound =>
          have hlost : Agrees (s.step (.lost id token))
              (b.step (.sent id token event .notFound)) :=
            h.of_fixed hfixed (Simulation.sent_eq b h.registry (id, token) event .notFound).1 rfl
          obtain ⟨ms, hagrees, hcalls, hclosed⟩ := ih hlost hbms.2
          exact ⟨.lost id token :: ms, hagrees, hcalls, hclosed⟩
        | delivered | rejected | unreachable => exact hm.elim
      | connect | disconnect | bind => exact hbms.1.elim
      | _ => exact hm.elim
    · have hregistry := (Board.registry_step b hm).trans h.registry
      obtain ⟨ms, hagrees, hrest⟩ := ih (h.of_fixed hfixed hregistry rfl) hbms.2
      exact ⟨ms, hagrees, hrest⟩

/-- **Connecting in a simulation is some moves**: those of the call, from the registration to its
return, those of what observers do, and those of agents while the gateway is asked to close the
connection that was replaced. -/
theorem connect_moves (sim : Simulation) (h : Agrees s sim.board) (id token url : String) :
    ∃ ms c more, Agrees (s.moves ms) (sim.connect id token url).board ∧
      (s.moves ms).calls = s.calls ++ c :: more ∧ (∀ c' ∈ c :: more, c'.phase = .returned) ∧
      c.replaced = (sim.board.connect id token url).1 ∧
      (s.moves ms).closed = s.closed ++ (sim.board.connect id token url).1.toList := by
  obtain ⟨ms, c, more, hagrees, hcalls, hphase, hreplaced, hreturned, hclosed⟩ :=
    board_connect_moves h id token url
  obtain ⟨bms, hbms, hboard⟩ := (Simulation.works_connect sim id token url).board
  -- the call asks the gateway to close what it replaced, if anything
  have hcloses : c.closes? = c.replaced := by simp [Call.closes?, hphase]
  obtain ⟨hasked, hcalls₁, hclosed₁⟩ := go_middle hagrees hcalls
  obtain ⟨ms', hworked, hcalls₂, hclosed₂⟩ := byAgents_moves hasked hbms
  -- then it returns
  have hwaits : (c.go ((s.moves ms).observers c.bus)).closes? = none ∧
      ∀ os, ((c.go ((s.moves ms).observers c.bus)).go os).phase = .returned := by
    cases hwhom : c.replaced <;> simp [Call.closes?, Call.go, hphase, hwhom]
  obtain ⟨hagrees₃, hcalls₃, hclosed₃⟩ := go_quiet hworked (hcalls₂.trans hcalls₁) hwaits.1
  have hmoves : s.moves (ms ++ .go s.calls.length :: (ms' ++ [.go s.calls.length])) =
      (((s.moves ms).step (.go s.calls.length)).moves ms').step (.go s.calls.length) := by
    rw [moves_append, moves_cons, moves_append]
    rfl
  refine ⟨_, _, more, ?_, (congrArg (·.calls) hmoves).trans hcalls₃,
    List.forall_mem_cons.2 ⟨hwaits.2 _, hreturned⟩,
    (Call.go_same _ _).2.2.2.trans ((Call.go_same _ c).2.2.2.trans hreplaced), ?_⟩
  · rw [hmoves, hboard]
    exact hagrees₃
  · rw [hmoves, ← hreplaced, ← hcloses, ← hclosed]
    exact hclosed₃.trans (hclosed₂.trans hclosed₁)

end Takeovers

end TabBoard
