import TabBoard.Board.Action
import TabBoard.Proofs.Registry
import Mathlib.Data.List.Induction

/-!
# Who is behind a connection

A connect that the gateway reports is worked in by several steps: the connection is registered, the
one it takes the place of is closed, and then the subject that the request shows is bound. The
observers and the close leave the registry alone, so two steps are left of a connect
(`Connects.Move.register`, `Connects.Move.finish`), and between them anything may happen: other
connects, disconnects, connections that turn out to be lost.

The subject is bound to the request id, whatever connection that has by then. So of two connects of
one request id that overlap, the later connection may end up with the subject of the earlier one
(`late_subject_binds`).

**Theorem (`run_subjects`).** The subject of a live connection is shown by the request of the
connect that registered it, or by that of an earlier connect of the same request id which was still
under way at that moment. Without such an earlier connect it can only be its own.
-/

namespace TabBoard

namespace Registry

variable {r : Registry} {id : String} {c : Connection}

/-! ## Where connections come from -/

theorem connections_of_removeIfCurrent {i t : String}
    (hc : (r.removeIfCurrent i t).connections.get? id = some c) :
    r.connections.get? id = some c := by
  unfold removeIfCurrent at hc
  split at hc
  · exact Table.get?_of_erase hc
  · exact hc

theorem connections_of_releaseToken {i t : String}
    (hc : (r.releaseToken i t).connections.get? id = some c) : r.connections.get? id = some c := by
  unfold releaseToken at hc
  split at hc
  · split at hc
    · exact hc
    · exact connections_of_removeIfCurrent hc
  · exact hc

theorem connections_of_disconnect {t : String}
    (hc : (r.disconnect t).1.connections.get? id = some c) : r.connections.get? id = some c := by
  unfold disconnect at hc
  split at hc
  · exact hc
  · split at hc
    · exact connections_of_removeIfCurrent hc
    · exact hc

/-- Binding a subject changes the connection of the request id, if there is one. -/
theorem connections_bind (r : Registry) (i subject : String) :
    (r.apply (.bind i subject)).connections =
      r.connections.modify i ({ · with subject := some subject }) := by
  show ((r.bind? i subject).getD r).connections = _
  unfold bind?
  split_ifs with hin
  · rfl
  · exact (Table.modify_of_not_contains (Bool.eq_false_iff.2 hin) _).symm

end Registry

namespace Connects

/-- A connect that the gateway reported. -/
structure Call where
  id : String
  token : String
  request : Http.Forwarded
  deriving Repr, DecidableEq

inductive Move where
  /-- The connection is registered, without a subject. -/
  | register (call : Call)
  /-- The subject that the request shows at the time `now` is bound, and the connect is over. -/
  | finish (call : Call) (now : Nat)
  | disconnect (token : String)
  /-- The gateway does not know the token of a connection that was picked at some earlier time. -/
  | lost (id token : String)
  deriving Repr, DecidableEq

end Connects

/-- The registry, and the connects that registered and are still to bind a subject. -/
structure Connects where
  registry : Registry := {}
  pending : List Connects.Call := []
  deriving Repr, DecidableEq

namespace Connects

open Registry (Change)

/-- The subject that the request of a connect shows. -/
def Call.subject? (policy : Auth.Policy) (call : Call) (now : Nat) : Option String :=
  policy.subject? now call.request.headers

/-- The registry once a connect bound its subject, if it has one. -/
def bound (r : Registry) (id : String) : Option String → Registry
  | some subject => r.apply (.bind id subject)
  | none => r

/-- What a move leads to. A connect that is not under way cannot finish. -/
def step (policy : Auth.Policy) (s : Connects) : Move → Connects
  | .register call =>
    { registry := s.registry.apply (.connect call.id call.token call.request.url)
      pending := s.pending ++ [call] }
  | .finish call now =>
    if call ∈ s.pending then
      { registry := bound s.registry call.id (call.subject? policy now)
        pending := s.pending.erase call }
    else s
  | .disconnect token => { s with registry := s.registry.apply (.disconnect token) }
  | .lost id token => { s with registry := s.registry.apply (.lost id token) }

def moves (policy : Auth.Policy) (s : Connects) (ms : List Move) : Connects :=
  ms.foldl (step policy) s

def run (policy : Auth.Policy) (ms : List Move) : Connects := moves policy {} ms

variable {policy : Auth.Policy} {s : Connects} {ms : List Move} {call : Call} {id token : String}
  {c : Connection}

theorem run_append (policy : Auth.Policy) (ms ms' : List Move) :
    run policy (ms ++ ms') = moves policy (run policy ms) ms' := List.foldl_append

theorem run_concat (policy : Auth.Policy) (ms : List Move) (m : Move) :
    run policy (ms ++ [m]) = (run policy ms).step policy m := run_append policy ms [m]

/-! ## A connect that nothing comes between -/

theorem bind_registry {b : Board} {r : Registry} (h : b.registry = some r) (id subject : String) :
    (b.bind id subject).registry = some (r.apply (.bind id subject)) := by
  simp only [Board.bind, h, Option.bind_some, Registry.apply]
  cases r.bind? id subject with
  | none => exact h
  | some r' => rfl

/-- **A connect is its two moves.** With nothing between them they leave the registry of a board
that handles the connect. -/
theorem registry_connect_bind {b : Board} (hregistry : b.registry = some s.registry)
    (hobservers : b.connectObservers = [.replay]) (call : Call) (now : Nat) :
    let connected := (b.connect call.id call.token call.request.url).2
    (((call.subject? policy now).map (connected.bind call.id)).getD connected).registry =
      some ((s.step policy (.register call)).step policy (.finish call now)).registry := by
  have hconnected : (b.connect call.id call.token call.request.url).2.registry =
      some (s.registry.apply (.connect call.id call.token call.request.url)) := by
    simp [Board.connect, hregistry, Board.measure, hobservers, notify, Board.tell, Board.replay,
      Registry.apply]
  simp only [step, List.mem_append, List.mem_singleton, or_true, if_true]
  cases call.subject? policy now with
  | none => exact hconnected
  | some subject => exact bind_registry hconnected call.id subject

/-! ## What a move does to a connection -/

/-- Whatever moves, the registry changes in the ways that keep it sound. -/
theorem registry_step (policy : Auth.Policy) (s : Connects) (m : Move) :
    ∃ cs, (s.step policy m).registry = s.registry.applyAll cs := by
  cases m with
  | register call => exact ⟨[.connect call.id call.token call.request.url], rfl⟩
  | disconnect token => exact ⟨[.disconnect token], rfl⟩
  | lost id token => exact ⟨[.lost id token], rfl⟩
  | finish call now =>
    simp only [step]
    split_ifs
    · cases call.subject? policy now with
      | none => exact ⟨[], rfl⟩
      | some subject => exact ⟨[.bind call.id subject], rfl⟩
    · exact ⟨[], rfl⟩

theorem sound_run (policy : Auth.Policy) (ms : List Move) : (run policy ms).registry.Sound := by
  induction ms using List.reverseRecOn with
  | nil => exact Registry.sound_empty
  | append_singleton ms m ih =>
    obtain ⟨cs, hcs⟩ := registry_step policy (run policy ms) m
    rw [run_concat, hcs]
    exact ih.applyAll cs

/-- Registering a connection leaves those of other request ids that have another token. -/
theorem connection_of_register (h : s.registry.Sound) (hne : call.id ≠ id)
    (hc : (s.step policy (.register call)).registry.connections.get? id = some c) :
    s.registry.connections.get? id = some c ∧ call.token ≠ c.token := by
  simp only [step, Registry.apply, Registry.connect_eq, Table.get?_insert, if_neg hne] at hc
  refine ⟨Registry.connections_of_releaseToken hc, ?_⟩
  intro htoken
  have hreleased := h.releaseToken call.id call.token
  exact hne (h.tokens_releaseToken ((hreleased.consistent _ _).2 ⟨c, hc, htoken.symm⟩)).symm

/-- A connection that is there after a move was registered by it, or was there before with the same
token and address. -/
theorem connection_of_step (h : s.registry.Sound) {m : Move}
    (hc : (s.step policy m).registry.connections.get? id = some c) :
    (∃ call, m = .register call ∧ call.id = id ∧
      c = { token := call.token, url := call.request.url }) ∨
      ∃ c₀, s.registry.connections.get? id = some c₀ ∧ c₀.token = c.token ∧ c₀.url = c.url ∧
        (∀ later, m = .register later → later.id ≠ id ∧ later.token ≠ c.token) ∧
        (c.subject = c₀.subject ∨
          ∃ call now, m = .finish call now ∧ call ∈ s.pending ∧ call.id = id ∧
            c.subject = call.subject? policy now) := by
  cases m with
  | register call =>
    by_cases hid : call.id = id
    · left
      simp only [step, Registry.apply, Registry.connect_eq, Table.get?_insert, if_pos hid] at hc
      exact ⟨call, rfl, hid, (Option.some.inj hc).symm⟩
    · obtain ⟨hold, htoken⟩ := connection_of_register h hid hc
      refine .inr ⟨c, hold, rfl, rfl, ?_, .inl rfl⟩
      intro later hlater
      obtain rfl := Move.register.inj hlater
      exact ⟨hid, htoken⟩
  | disconnect token =>
    exact .inr ⟨c, Registry.connections_of_disconnect hc, rfl, rfl, by simp, .inl rfl⟩
  | lost i token =>
    exact .inr ⟨c, Registry.connections_of_removeIfCurrent hc, rfl, rfl, by simp, .inl rfl⟩
  | finish call now =>
    right
    simp only [step] at hc
    split_ifs at hc with hpending
    · cases hsubject : call.subject? policy now with
      | none =>
        rw [hsubject] at hc
        exact ⟨c, hc, rfl, rfl, by simp, .inl rfl⟩
      | some subject =>
        simp only [hsubject, bound, Registry.connections_bind, Table.get?_modify] at hc
        split_ifs at hc with hid
        · obtain ⟨c₀, hc₀, rfl⟩ := Option.map_eq_some_iff.1 hc
          exact ⟨c₀, hc₀, rfl, rfl, by simp, .inr ⟨call, now, rfl, hpending, hid, hsubject.symm⟩⟩
        · exact ⟨c, hc, rfl, rfl, by simp, .inl rfl⟩
    · exact ⟨c, hc, rfl, rfl, by simp, .inl rfl⟩

/-- Only a registration makes a connect one that is under way. -/
theorem mem_pending_step {m : Move} (h : call ∈ (s.step policy m).pending) :
    call ∈ s.pending ∨ m = .register call := by
  cases m with
  | register call' =>
    rcases List.mem_append.1 h with hold | hnew
    · exact .inl hold
    · exact .inr (congrArg Move.register (List.mem_singleton.1 hnew).symm)
  | disconnect | lost => exact .inl h
  | finish call' now =>
    simp only [step] at h
    split_ifs at h
    · exact .inl (List.mem_of_mem_erase h)
    · exact .inl h

/-! ## Who registered a connection -/

/-- **Every live connection was registered by a connect**, the last one with its request id and the
last one with its token. -/
theorem exists_registration (ms : List Move)
    (hc : (run policy ms).registry.connections.get? id = some c) :
    ∃ before call after, ms = before ++ .register call :: after ∧ call.id = id ∧
      ∀ later, .register later ∈ after → later.id ≠ id ∧ later.token ≠ c.token := by
  induction ms using List.reverseRecOn generalizing c with
  | nil => cases hc
  | append_singleton ms m ih =>
    rw [run_concat] at hc
    rcases connection_of_step (sound_run policy ms) hc with
      ⟨call, rfl, hid, -⟩ | ⟨c₀, hc₀, htoken, -, hlater, -⟩
    · exact ⟨ms, call, [], rfl, hid, by simp⟩
    · obtain ⟨before, call, after, rfl, hid, hafter⟩ := ih hc₀
      refine ⟨before, call, after ++ [m], by simp, hid, ?_⟩
      intro later hmem
      rcases List.mem_append.1 hmem with hold | hnew
      · exact htoken ▸ hafter later hold
      · exact hlater later (List.mem_singleton.1 hnew).symm

/-- What is known of the connection that `call` registered while the connects `older` were under
way, as long as no other connect registers one for the request id. -/
structure Owned (policy : Auth.Policy) (older : List Call) (call : Call) (s : Connects) : Prop where
  registry : s.registry.Sound
  address : ∀ c, s.registry.connections.get? call.id = some c →
    c.token = call.token ∧ c.url = call.request.url
  subject : ∀ c, s.registry.connections.get? call.id = some c → c.subject = none ∨
    ∃ p ∈ call :: older, p.id = call.id ∧ ∃ now, c.subject = p.subject? policy now
  pending : ∀ p ∈ s.pending, p.id = call.id → p ∈ call :: older

theorem owned_register (h : s.registry.Sound) (call : Call) :
    Owned policy s.pending call (s.step policy (.register call)) := by
  have hnew : ∀ c, (s.step policy (.register call)).registry.connections.get? call.id = some c →
      c = { token := call.token, url := call.request.url } := by
    intro c hc
    simp only [step, Registry.apply, Registry.connect_eq, Table.get?_insert, if_true] at hc
    exact (Option.some.inj hc).symm
  refine ⟨h.apply (.connect call.id call.token call.request.url), ?_, ?_, ?_⟩
  · intro c hc
    rw [hnew c hc]
    exact ⟨rfl, rfl⟩
  · intro c hc
    rw [hnew c hc]
    exact .inl rfl
  · intro p hp _
    rcases List.mem_append.1 hp with hold | hself
    · exact List.mem_cons_of_mem _ hold
    · exact List.mem_cons.2 (.inl (List.mem_singleton.1 hself))

theorem Owned.step {older : List Call} (h : Owned policy older call s) {m : Move}
    (hother : ∀ later, m = .register later → later.id ≠ call.id) :
    Owned policy older call (s.step policy m) := by
  obtain ⟨cs, hcs⟩ := registry_step policy s m
  refine ⟨hcs ▸ h.registry.applyAll cs, ?address, ?subject, ?pending⟩
  case address =>
    intro c hc
    rcases connection_of_step h.registry hc with ⟨later, rfl, hid, -⟩ | ⟨c₀, hc₀, htoken, hurl, -⟩
    · exact absurd hid (hother later rfl)
    · exact htoken ▸ hurl ▸ h.address c₀ hc₀
  case subject =>
    intro c hc
    rcases connection_of_step h.registry hc with
      ⟨later, rfl, hid, -⟩ | ⟨c₀, hc₀, -, -, -, hsame | ⟨p, now, rfl, hp, hid, hsubject⟩⟩
    · exact absurd hid (hother later rfl)
    · rw [hsame]
      exact h.subject c₀ hc₀
    · exact .inr ⟨p, h.pending p hp hid, hid, now, hsubject⟩
  case pending =>
    intro p hp hid
    rcases mem_pending_step hp with hold | hnew
    · exact h.pending p hold hid
    · exact absurd hid (hother p hnew)

theorem Owned.moves {older : List Call} (h : Owned policy older call s)
    (hother : ∀ later, .register later ∈ ms → later.id ≠ call.id) :
    Owned policy older call (moves policy s ms) := by
  induction ms generalizing s with
  | nil => exact h
  | cons m ms ih =>
    refine ih (h.step ?_) fun later hmem => hother later (List.mem_cons_of_mem _ hmem)
    intro later hm
    exact hother later (hm ▸ List.mem_cons_self)

/-! ## Subjects -/

/-- **A connect that finishes binds its subject** to the connection that the request id has then. -/
theorem connection_of_finish (hpending : call ∈ s.pending) {now : Nat} {subject : String}
    (hsubject : call.subject? policy now = some subject)
    (hc : s.registry.connections.get? call.id = some c) :
    (s.step policy (.finish call now)).registry.connections.get? call.id =
      some { c with subject := some subject } := by
  simp only [step, if_pos hpending, hsubject, bound, Registry.connections_bind, Table.get?_modify,
    if_true, hc, Option.map_some]

/-- **The subject of a connection is its own, or that of an older connect** of the same request id
that was still under way when the connection was registered. -/
theorem run_subjects (policy : Auth.Policy) (ms : List Move) :
    -- who registered a connection, and what its subject can be
    (∀ id c, (run policy ms).registry.connections.get? id = some c →
      ∃ before call after, ms = before ++ .register call :: after ∧
        call.id = id ∧ call.token = c.token ∧ call.request.url = c.url ∧
        (∀ later, .register later ∈ after → later.id ≠ id ∧ later.token ≠ c.token) ∧
        (c.subject = none ∨ (∃ now, c.subject = call.subject? policy now) ∨
          ∃ older ∈ (run policy before).pending, older.id = id ∧
            ∃ now, c.subject = older.subject? policy now) ∧
        -- without another connect of the request id under way, it is its own
        ((∀ older ∈ (run policy before).pending, older.id ≠ id) →
          c.subject = none ∨ ∃ now, c.subject = call.subject? policy now)) ∧
    -- a connect that finishes binds its subject
    ∀ call ∈ (run policy ms).pending, ∀ now subject c, call.subject? policy now = some subject →
      (run policy ms).registry.connections.get? call.id = some c →
      (run policy (ms ++ [.finish call now])).registry.connections.get? call.id =
        some { c with subject := some subject } := by
  refine ⟨?_, ?_⟩
  · intro id c hc
    obtain ⟨before, call, after, hms, hid, hafter⟩ := exists_registration ms hc
    subst hid
    have howned : Owned policy (run policy before).pending call (run policy ms) := by
      rw [hms, run_append]
      exact (owned_register (sound_run policy before) call).moves fun later hmem =>
        (hafter later hmem).1
    obtain ⟨htoken, hurl⟩ := howned.address c hc
    have hsubject : c.subject = none ∨ (∃ now, c.subject = call.subject? policy now) ∨
        ∃ older ∈ (run policy before).pending, older.id = call.id ∧
          ∃ now, c.subject = older.subject? policy now := by
      rcases howned.subject c hc with hnone | ⟨p, hp, hid, hshown⟩
      · exact .inl hnone
      · rcases List.mem_cons.1 hp with rfl | holder
        · exact .inr (.inl hshown)
        · exact .inr (.inr ⟨p, holder, hid, hshown⟩)
    refine ⟨before, call, after, hms, rfl, htoken.symm, hurl.symm, hafter, hsubject, ?_⟩
    intro halone
    rcases hsubject with hnone | hown | ⟨older, hmem, hid, -⟩
    · exact .inl hnone
    · exact .inr hown
    · exact absurd hid (halone older hmem)
  · intro call hpending now subject c hsubject hc
    rw [run_concat]
    exact connection_of_finish hpending hsubject hc

/-- **A connection can get the subject of another one.** While the connect of a client that shows
who it is is under way, another client connects under the same request id and shows nothing. The
subject of the first is bound to the connection of the second. -/
theorem late_subject_binds :
    ¬ ∀ (policy : Auth.Policy) (before : List Move) (call : Call) (after : List Move)
        (c : Connection),
      (run policy (before ++ .register call :: after)).registry.connections.get? call.id = some c →
      call.token = c.token →
      (∀ later, .register later ∈ after → later.id ≠ call.id ∧ later.token ≠ c.token) →
      c.subject = none ∨ ∃ now, c.subject = call.subject? policy now := by
  intro h
  let policy : Auth.Policy := { enabled := true, validator := some (.ofSecret "k") }
  let token := "eyJhbGciOiJIUzI1NiJ9" ++ ".eyJzdWIiOiJvbmUiLCJleHAiOjk5OTk5OTk5OTksImlhdCI6MH0" ++
    ".NcZij7w2LE69dA79q8s5BSm4UHiWsCRX8ZeCtTww714"
  let first : Call := ⟨"r", "t1", "/1", [("authorization", "Bearer " ++ token)]⟩
  let second : Call := ⟨"r", "t2", "/2", []⟩
  have hbound : (run policy [.register first, .register second,
      .finish first 0]).registry.connections.get? "r" = some ⟨"t2", "/2", some "one"⟩ := by
    decide +kernel
  have hnobody : ∀ now, second.subject? policy now = none := fun now => rfl
  rcases h policy [.register first] second [.finish first 0] _ hbound rfl (by simp) with
    hnone | ⟨now, hown⟩
  · cases hnone
  · rw [hnobody now] at hown
    cases hown

end Connects

end TabBoard
