import TabBoard.Board.Basic
import TabBoard.Proofs.Registry
import Mathlib.Data.List.Induction

/-!
# Connections that take the place of others

A connect registers its connection, tells the observers one after the other, asks the gateway to
close the connection that it took the place of, if any, and returns. A disconnect that removed a
connection tells the observers and returns. Between any two of these steps others may make theirs:
other connects and disconnects, also of the same request id, connections that turn out to be lost,
subjects that are bound, observers that subscribe.

**Theorem (`sound_run`).** As long as no token is used twice, a token whose place was taken is not
registered and never will be again, since only a connect brings a token in. What is still to be
closed is remembered by the calls themselves, so what was closed and what they remember are always
the tokens whose place was taken (`Sound`).
-/

namespace TabBoard

namespace Takeovers

/-- Which observers a call tells. -/
inductive Bus where
  | connects
  | disconnects
  deriving Repr, DecidableEq

/-- How far a call is. -/
inductive Phase where
  /-- The registry changed. -/
  | begun
  /-- These observers are still to be told. -/
  | telling (rest : List Observer)
  /-- The gateway was asked to close a connection, and has not answered. -/
  | closing
  | returned
  deriving Repr, DecidableEq

/-- A connect, or a disconnect that removed a connection. -/
structure Call where
  bus : Bus
  id : String
  token : String
  /-- The token that the new connection took the place of. -/
  replaced : Option String := none
  phase : Phase := .begun
  /-- The observers that there were when the call began to tell them. -/
  audience : List Observer := []
  told : List Observer := []
  deriving Repr, DecidableEq

namespace Call

/-- The next step of a call, where these observers are subscribed. -/
def go (observers : List Observer) (c : Call) : Call :=
  match c.phase with
  | .begun => { c with phase := .telling observers, audience := observers }
  | .telling (o :: rest) => { c with phase := .telling rest, told := c.told ++ [o] }
  | .telling [] => { c with phase := if c.replaced.isSome then .closing else .returned }
  | .closing | .returned => { c with phase := .returned }

/-- The token that the gateway is asked to close by the next step. -/
def closes? (c : Call) : Option String :=
  match c.phase with
  | .telling [] => c.replaced
  | _ => none

/-- The token that the gateway is still to be asked to close. -/
def unclosed? (c : Call) : Option String :=
  match c.phase with
  | .begun | .telling _ => c.replaced
  | .closing | .returned => none

end Call

inductive Move where
  | connect (id token url : String)
  | disconnect (token : String)
  /-- The gateway does not know the token of a connection that was picked at some earlier time. -/
  | lost (id token : String)
  | bind (id subject : String)
  | observe (bus : Bus) (o : Observer)
  /-- A call makes its next step. -/
  | go (n : Nat)
  deriving Repr, DecidableEq

end Takeovers

/-- The registry, its observers, and all calls that there were, in the order in which they began. -/
structure Takeovers where
  registry : Registry := {}
  connectObservers : List Observer := []
  disconnectObservers : List Observer := []
  calls : List Takeovers.Call := []
  /-- The tokens that the gateway was asked to close, in order. -/
  closed : List String := []
  deriving Repr, DecidableEq

namespace Takeovers

def start (connectObservers disconnectObservers : List Observer) : Takeovers where
  connectObservers
  disconnectObservers

def observers (s : Takeovers) : Bus → List Observer
  | .connects => s.connectObservers
  | .disconnects => s.disconnectObservers

def step (s : Takeovers) : Move → Takeovers
  | .connect id token url =>
    let (registry, replaced) := s.registry.connect id token url
    { s with registry, calls := s.calls ++ [{ bus := .connects, id, token, replaced }] }
  | .disconnect token =>
    match s.registry.disconnect token with
    | (registry, .removed id) =>
      { s with registry, calls := s.calls ++ [{ bus := .disconnects, id, token }] }
    | (registry, _) => { s with registry }
  | .lost id token => { s with registry := s.registry.removeIfCurrent id token }
  | .bind id subject => { s with registry := s.registry.apply (.bind id subject) }
  | .observe .connects o => { s with connectObservers := s.connectObservers ++ [o] }
  | .observe .disconnects o => { s with disconnectObservers := s.disconnectObservers ++ [o] }
  | .go n =>
    match s.calls[n]? with
    | some c =>
      { s with
        calls := s.calls.set n (c.go (s.observers c.bus))
        closed := s.closed ++ c.closes?.toList }
    | none => s

def moves (s : Takeovers) (ms : List Move) : Takeovers := ms.foldl step s

def run (connectObservers disconnectObservers : List Observer) (ms : List Move) : Takeovers :=
  (start connectObservers disconnectObservers).moves ms

/-- The tokens whose place another connection took. -/
def displaced (s : Takeovers) : List String := s.calls.filterMap (·.replaced)

/-- The tokens among them that the gateway is still to be asked to close. -/
def unclosed (s : Takeovers) : List String := s.calls.filterMap (·.unclosed?)

def Move.connect? : Move → Option (String × String)
  | .connect id token _ => some (id, token)
  | _ => none

/-- The connects among the calls, as request id and token. -/
def connects (s : Takeovers) : List (String × String) :=
  (s.calls.filter (·.bus = .connects)).map fun c => (c.id, c.token)

/-- The tokens of the connects among some moves, in order. -/
def tokens (ms : List Move) : List String := (ms.filterMap (·.connect?)).map (·.2)

variable {s s' : Takeovers} {c c' : Call} {m : Move} {ms : List Move} {n : Nat}
  {id token url t : String} {os os' : List Observer}

theorem moves_append (s : Takeovers) (ms ms' : List Move) :
    s.moves (ms ++ ms') = (s.moves ms).moves ms' := List.foldl_append

@[simp] theorem moves_cons (s : Takeovers) (m : Move) (ms : List Move) :
    s.moves (m :: ms) = (s.step m).moves ms := rfl

theorem run_concat (os os' : List Observer) (ms : List Move) (m : Move) :
    run os os' (ms ++ [m]) = (run os os' ms).step m := List.foldl_append

/-! ## How a call goes on -/

namespace Call

/-- The observers that are still to be told, of those whom the call has looked up. -/
def rest (c : Call) : List Observer :=
  match c.phase with
  | .telling rest => rest
  | .begun | .closing | .returned => []

/-- A call has told those of its audience who are not still to be told. -/
structure Sound (c : Call) : Prop where
  told : c.told ++ c.rest = c.audience
  begun : c.phase = .begun → c.told = []

theorem Sound.go (h : c.Sound) (os : List Observer) : (c.go os).Sound := by
  have htold := h.told
  unfold Call.go
  unfold Call.rest at htold
  split <;> rename_i hphase <;> rw [hphase] at htold
  · exact ⟨by simp [Call.rest, h.begun hphase], by simp⟩
  · exact ⟨by simpa [Call.rest] using htold, by simp⟩
  · refine ⟨?_, ?_⟩
    · rw [← htold]
      cases c.replaced <;> rfl
    · cases c.replaced <;> simp
  · exact ⟨htold, by simp⟩
  · exact ⟨htold, by simp⟩

/-- A call stays what it was begun for. -/
theorem go_same (os : List Observer) (c : Call) :
    (c.go os).bus = c.bus ∧ (c.go os).id = c.id ∧ (c.go os).token = c.token ∧
      (c.go os).replaced = c.replaced := by
  unfold go
  split <;> exact ⟨rfl, rfl, rfl, rfl⟩

/-- What is still to be closed is closed by the next step, or is still to be closed after it. -/
theorem unclosed?_go (os : List Observer) (c : Call) :
    c.unclosed?.toList = c.closes?.toList ++ (c.go os).unclosed?.toList := by
  unfold unclosed? closes? go
  split <;> rename_i hphase
  · simp [hphase]
  · rename_i rest
    cases rest with
    | nil => cases c.replaced <;> simp [hphase]
    | cons o rest => simp [hphase]
  · simp [hphase]
  · simp [hphase]

/-- Only a connect that has told everyone closes. -/
theorem of_closes? (h : c.closes? = some t) : c.phase = .telling [] ∧ c.replaced = some t := by
  unfold closes? at h
  split at h <;> rename_i hphase
  · exact ⟨hphase, h⟩
  · cases h

end Call

/-- **Only the call that goes on changes**, and the gateway is asked to close what it closes. -/
theorem step_go_middle {before after : List Call} (hcalls : s.calls = before ++ c :: after) :
    s.step (.go before.length) = { s with
      calls := before ++ c.go (s.observers c.bus) :: after
      closed := s.closed ++ c.closes?.toList } := by
  simp [step, hcalls]

theorem step_go (h : s.calls[n]? = some c) :
    ∃ before after, s.calls = before ++ c :: after ∧
      s.step (.go n) = { s with
        calls := before ++ c.go (s.observers c.bus) :: after
        closed := s.closed ++ c.closes?.toList } := by
  obtain ⟨hn, hc⟩ := List.getElem?_eq_some_iff.1 h
  obtain ⟨before, after, hcalls, rfl, -⟩ := @List.exists_of_set _ _ c _ hn
  rw [hc] at hcalls
  exact ⟨before, after, hcalls, step_go_middle hcalls⟩

theorem step_go_none (h : s.calls[n]? = none) : s.step (.go n) = s := by
  simp only [step, h]

/-- What a call was begun for. -/
def Call.cause (c : Call) : Bus × String × String × Option String :=
  (c.bus, c.id, c.token, c.replaced)

/-- **Going on changes no call but in how far it is.** -/
theorem causes_go (s : Takeovers) (n : Nat) :
    (s.step (.go n)).calls.map (·.cause) = s.calls.map (·.cause) := by
  cases hc : s.calls[n]? with
  | none => rw [step_go_none hc]
  | some c =>
    obtain ⟨before, after, hcalls, hstep⟩ := step_go hc
    obtain ⟨hbus, hid, htoken, hreplaced⟩ := Call.go_same (s.observers c.bus) c
    rw [hstep, hcalls]
    simp [Call.cause, hbus, hid, htoken, hreplaced]

theorem exists_of_causes (hcauses : s'.calls.map (·.cause) = s.calls.map (·.cause))
    (hc : s.calls[n]? = some c) : ∃ c', s'.calls[n]? = some c' ∧ c'.cause = c.cause := by
  have hn := congrArg (·[n]?) hcauses
  simp only [List.getElem?_map, hc, Option.map_some] at hn
  exact Option.map_eq_some_iff.1 hn

theorem displaced_eq (s : Takeovers) :
    s.displaced = (s.calls.map (·.cause)).filterMap (·.2.2.2) := by
  simp [displaced, Call.cause, List.filterMap_map]

theorem connects_eq (s : Takeovers) :
    s.connects =
      ((s.calls.map (·.cause)).filter (·.1 = .connects)).map fun c => (c.2.1, c.2.2.1) := by
  simp [connects, Call.cause, List.filter_map, Function.comp_def]

/-! ## The invariant -/

/-- A connect took the place of the token that an earlier connect of its request id brought. -/
def Displaces (s : Takeovers) (n : Nat) (c : Call) (t : String) : Prop :=
  c.bus = .connects ∧ c.replaced = some t ∧
    ∃ k < n, ∃ earlier, s.calls[k]? = some earlier ∧
      earlier.bus = .connects ∧ earlier.id = c.id ∧ earlier.token = t

/-- A token whose place was taken is not registered, and the calls remember what is still to be
closed. -/
structure Sound (s : Takeovers) : Prop where
  registry : s.registry.Sound
  registered : ∀ t id, s.registry.tokens.get? t = some id → (id, t) ∈ s.connects
  origin : ∀ n c t, s.calls[n]? = some c → c.replaced = some t → Displaces s n c t
  vacated : ∀ t ∈ s.displaced, s.registry.tokens.get? t = none
  once : s.displaced.Nodup
  closed : (s.closed ++ s.unclosed).Perm s.displaced
  calls : ∀ c ∈ s.calls, c.Sound

theorem sound_start (os os' : List Observer) : Sound (start os os') where
  registry := Registry.sound_empty
  registered := by simp [start]
  origin := by simp [start]
  vacated := by simp [start, displaced]
  once := by simp [start, displaced]
  closed := by simp [start, displaced, unclosed]
  calls := by simp [start]

theorem mem_connects : (id, t) ∈ s.connects ↔
    ∃ c ∈ s.calls, c.bus = .connects ∧ c.id = id ∧ c.token = t := by
  simp [connects, and_assoc]

/-- What holds of a call holds of it when others were begun after it. -/
theorem Displaces.append {more : List Call} (h : Displaces s n c t)
    (hcalls : s'.calls = s.calls ++ more) : Displaces s' n c t := by
  obtain ⟨hbus, hreplaced, k, hk, earlier, hearlier, hrest⟩ := h
  refine ⟨hbus, hreplaced, k, hk, earlier, ?_, hrest⟩
  rw [hcalls, List.getElem?_append_left (List.getElem?_eq_some_iff.1 hearlier).1]
  exact hearlier

theorem Displaces.of_causes (h : Displaces s n c t)
    (hcauses : s'.calls.map (·.cause) = s.calls.map (·.cause)) (hsame : c'.cause = c.cause) :
    Displaces s' n c' t := by
  obtain ⟨hbus, hreplaced, k, hk, earlier, hearlier, hbus', hid', htoken'⟩ := h
  obtain ⟨e, he, hecause⟩ := exists_of_causes hcauses hearlier
  simp only [Call.cause, Prod.mk.injEq] at hsame hecause
  refine ⟨hsame.1.trans hbus, hsame.2.2.2.trans hreplaced, k, hk, e, he, hecause.1.trans hbus', ?_,
    hecause.2.2.1.trans htoken'⟩
  exact hecause.2.1.trans (hid'.trans hsame.2.1.symm)

/-- A call took the place of a token that was brought before. -/
theorem Sound.token_of_displaced (h : Sound s) (ht : t ∈ s.displaced) :
    t ∈ s.connects.map (·.2) := by
  obtain ⟨c, hc, hreplaced⟩ := List.mem_filterMap.1 ht
  obtain ⟨n, hn⟩ := List.mem_iff_getElem?.1 hc
  obtain ⟨-, -, k, -, earlier, hearlier, hbus, -, htoken⟩ := h.origin n c t hn hreplaced
  have hmem : (earlier.id, t) ∈ s.connects :=
    mem_connects.2 ⟨earlier, List.mem_of_getElem? hearlier, hbus, rfl, htoken⟩
  exact List.mem_map_of_mem hmem

/-! ## Calls that begin -/

/-- **Calls that begin keep the invariant**, if each takes the place of a token that its request id
has. -/
theorem Sound.begins {more : List Call} (h : Sound s) (hregistry : s'.registry.Sound)
    (hcalls : s'.calls = s.calls ++ more) (hclosed : s'.closed = s.closed)
    (hmore : ∀ c ∈ more, c.phase = .begun ∧ c.Sound)
    (hhas : ∀ c ∈ more, ∀ t, c.replaced = some t →
      c.bus = .connects ∧ s.registry.tokens.get? t = some c.id)
    (honce : (more.filterMap (·.replaced)).Nodup)
    (hregistered : ∀ t id, s'.registry.tokens.get? t = some id → (id, t) ∈ s'.connects)
    (hvacated : ∀ t ∈ s'.displaced, s'.registry.tokens.get? t = none) : Sound s' := by
  have hdisplaced : s'.displaced = s.displaced ++ more.filterMap (·.replaced) := by
    simp [displaced, hcalls]
  have hunclosed : s'.unclosed = s.unclosed ++ more.filterMap (·.replaced) := by
    have hsame : more.filterMap (·.unclosed?) = more.filterMap (·.replaced) := by
      refine List.filterMap_congr fun c hc => ?_
      simp only [Call.unclosed?, (hmore c hc).1]
    rw [unclosed, hcalls, List.filterMap_append, hsame]
    rfl
  refine ⟨hregistry, hregistered, ?origin, hvacated, ?once, ?closed, ?calls⟩
  case origin =>
    intro n c t hn hreplaced
    rw [hcalls] at hn
    rcases Nat.lt_or_ge n s.calls.length with hlt | hge
    · rw [List.getElem?_append_left hlt] at hn
      exact (h.origin n c t hn hreplaced).append hcalls
    · rw [List.getElem?_append_right hge] at hn
      obtain ⟨hbus, hleads⟩ := hhas c (List.mem_of_getElem? hn) t hreplaced
      obtain ⟨earlier, hmem, hearlier⟩ := mem_connects.1 (h.registered t c.id hleads)
      obtain ⟨k, hk⟩ := List.mem_iff_getElem?.1 hmem
      have hlt := (List.getElem?_eq_some_iff.1 hk).1
      refine ⟨hbus, hreplaced, k, Nat.lt_of_lt_of_le hlt hge, earlier, ?_, hearlier⟩
      rwa [hcalls, List.getElem?_append_left hlt]
  case once =>
    rw [hdisplaced, List.nodup_append]
    refine ⟨h.once, honce, ?_⟩
    rintro t ht t' ht' rfl
    obtain ⟨c, hc, hreplaced⟩ := List.mem_filterMap.1 ht'
    cases (h.vacated t ht).symm.trans (hhas c hc t hreplaced).2
  case closed =>
    rw [hclosed, hunclosed, hdisplaced, ← List.append_assoc]
    exact h.closed.append_right _
  case calls =>
    intro c hc
    rw [hcalls] at hc
    rcases List.mem_append.1 hc with hold | hnew
    · exact h.calls c hold
    · exact (hmore c hnew).2

/-- **A move that brings no token in keeps the invariant**, also if it begins a disconnect. -/
theorem Sound.change {more : List Call} (h : Sound s) (hregistry : s'.registry.Sound)
    (htokens : ∀ t id, s'.registry.tokens.get? t = some id → s.registry.tokens.get? t = some id)
    (hcalls : s'.calls = s.calls ++ more)
    (hmore : ∀ c ∈ more, c.replaced = none ∧ c.phase = .begun ∧ c.Sound)
    (hclosed : s'.closed = s.closed) : Sound s' := by
  have hnone : more.filterMap (·.replaced) = [] :=
    List.filterMap_eq_nil_iff.2 fun c hc => (hmore c hc).1
  have hdisplaced : s'.displaced = s.displaced := by simp [displaced, hcalls, hnone]
  refine h.begins hregistry hcalls hclosed (fun c hc => (hmore c hc).2) ?_ (by simp [hnone]) ?_ ?_
  · intro c hc t hreplaced
    cases (hmore c hc).1.symm.trans hreplaced
  · intro t id ht
    obtain ⟨c, hc, hrest⟩ := mem_connects.1 (h.registered t id (htokens t id ht))
    exact mem_connects.2 ⟨c, hcalls ▸ List.mem_append_left _ hc, hrest⟩
  · intro t ht
    rw [Option.eq_none_iff_forall_ne_some]
    intro id hid
    cases (h.vacated t (hdisplaced ▸ ht)).symm.trans (htokens t id hid)

/-- So does one that begins no call. -/
theorem Sound.change_registry (h : Sound s) (hregistry : s'.registry.Sound)
    (htokens : ∀ t id, s'.registry.tokens.get? t = some id → s.registry.tokens.get? t = some id)
    (hcalls : s'.calls = s.calls) (hclosed : s'.closed = s.closed) : Sound s' := by
  have hnone : s'.calls = s.calls ++ [] := by rw [hcalls, List.append_nil]
  exact h.change hregistry htokens hnone (by simp) hclosed

/-- The registry once a connection with a new token was registered, with the token whose place it
takes. -/
theorem connect_of_new (hregistry : s.registry.Sound)
    (hnew : s.registry.tokens.get? token = none) (id url : String) :
    s.registry.connect id token url =
      (⟨s.registry.connections.insert id { token, url },
        (s.registry.kept id token).insert token id⟩,
        (s.registry.connections.get? id).map (·.token)) := by
  have hkept : s.registry.releaseToken id token = s.registry := by
    unfold Registry.releaseToken
    rw [hnew]
  have hreplaced : s.registry.replaced id token =
      (s.registry.connections.get? id).map (·.token) := by
    unfold Registry.replaced
    cases hc : s.registry.connections.get? id with
    | none => rfl
    | some c =>
      have hne : c.token ≠ token := by
        rintro rfl
        cases hnew.symm.trans ((hregistry.consistent c.token id).2 ⟨c, hc, rfl⟩)
      simp [hne]
  rw [Registry.connect_eq, hkept, hreplaced]

def newCall (s : Takeovers) (id token : String) : Call where
  bus := .connects
  id
  token
  replaced := (s.registry.connections.get? id).map (·.token)

theorem step_connect (h : Sound s) (hnew : token ∉ s.connects.map (·.2)) (id url : String) :
    s.step (.connect id token url) = { s with
      registry := ⟨s.registry.connections.insert id { token, url },
        (s.registry.kept id token).insert token id⟩
      calls := s.calls ++ [s.newCall id token] } := by
  have hfree : s.registry.tokens.get? token = none := by
    rw [Option.eq_none_iff_forall_ne_some]
    intro owner howner
    exact hnew (List.mem_map_of_mem (h.registered token owner howner))
  simp only [step, connect_of_new h.registry hfree]
  rfl

/-- **A connect with a new token keeps the invariant.** -/
theorem Sound.connect (h : Sound s) (hnew : token ∉ s.connects.map (·.2)) (id url : String) :
    Sound (s.step (.connect id token url)) := by
  have hregistry : (s.step (.connect id token url)).registry.Sound :=
    h.registry.connect id token url
  rw [step_connect h hnew] at hregistry ⊢
  -- the token whose place is taken leads to the request id
  have hold : ∀ t, (s.newCall id token).replaced = some t →
      s.registry.tokens.get? t = some id ∧ t ≠ token := by
    intro t ht
    obtain ⟨c, hc, rfl⟩ := Option.map_eq_some_iff.1 ht
    have hleads := (h.registry.consistent c.token id).2 ⟨c, hc, rfl⟩
    refine ⟨hleads, ?_⟩
    rintro rfl
    exact hnew (List.mem_map_of_mem (h.registered _ id hleads))
  have hleft : ∀ t, token ≠ t → ∀ i, ((s.registry.kept id token).insert token id).get? t = some i ↔
      s.registry.tokens.get? t = some i ∧ i ≠ id := by
    intro t ht i
    rw [Table.get?_insert, if_neg ht]
    exact h.registry.get?_kept ht
  refine h.begins hregistry rfl rfl ?begun ?has ?once ?registered ?vacated
  case begun =>
    intro c hc
    rw [List.mem_singleton.1 hc]
    exact ⟨rfl, rfl, fun _ => rfl⟩
  case has =>
    intro c hc t hreplaced
    rw [List.mem_singleton.1 hc] at hreplaced ⊢
    exact ⟨rfl, (hold t hreplaced).1⟩
  case once => cases hreplaced : (s.newCall id token).replaced <;> simp [hreplaced]
  case registered =>
    intro t i hi
    by_cases ht : token = t
    · subst ht
      simp only [Table.get?_insert, if_true, Option.some.injEq] at hi
      exact mem_connects.2 ⟨s.newCall id token, by simp, rfl, hi, rfl⟩
    · obtain ⟨c, hc, hrest⟩ := mem_connects.1 (h.registered t i ((hleft t ht i).1 hi).1)
      exact mem_connects.2 ⟨c, List.mem_append_left _ hc, hrest⟩
  case vacated =>
    intro t ht
    simp only [displaced, List.filterMap_append, List.mem_append] at ht
    rw [Option.eq_none_iff_forall_ne_some]
    intro i hi
    rcases ht with ht | ht
    · have hne : token ≠ t := by
        rintro rfl
        exact hnew (h.token_of_displaced ht)
      cases (h.vacated t ht).symm.trans ((hleft t hne i).1 hi).1
    · have hreplaced : (s.newCall id token).replaced = some t := by simpa using ht
      obtain ⟨hleads, hne⟩ := hold t hreplaced
      obtain ⟨hi, hother⟩ := (hleft t hne.symm i).1 hi
      exact hother (Option.some.inj (hi.symm.trans hleads))

/-- **Going on keeps the invariant.** -/
theorem Sound.go (h : Sound s) (n : Nat) : Sound (s.step (.go n)) := by
  have hcauses := causes_go s n
  cases hc : s.calls[n]? with
  | none => rwa [step_go_none hc]
  | some c =>
    obtain ⟨before, after, hcalls, hstep⟩ := step_go hc
    have hdisplaced : (s.step (.go n)).displaced = s.displaced := by
      rw [displaced_eq, displaced_eq, hcauses]
    have hconnects : (s.step (.go n)).connects = s.connects := by
      rw [connects_eq, connects_eq, hcauses]
    rw [hstep] at hcauses hdisplaced hconnects ⊢
    refine ⟨h.registry, hconnects ▸ h.registered, ?origin, hdisplaced ▸ h.vacated,
      hdisplaced ▸ h.once, ?closed, ?calls⟩
    case origin =>
      intro k c' t hk hreplaced
      obtain ⟨c₀, hc₀, hcause⟩ := exists_of_causes hcauses.symm hk
      have hreplaced₀ : c₀.replaced = some t := (congrArg (·.2.2.2) hcause).trans hreplaced
      exact (h.origin k c₀ t hc₀ hreplaced₀).of_causes hcauses hcause.symm
    case closed =>
      rw [hdisplaced]
      refine .trans ?_ h.closed
      -- what is closed now was still to be closed
      have hgo := Call.unclosed?_go (s.observers c.bus) c
      simp only [unclosed, hcalls, List.filterMap_eq_flatMap_toList, List.flatMap_append,
        List.flatMap_cons, hgo, List.append_assoc]
      refine List.Perm.append_left _ ?_
      simp only [← List.append_assoc]
      refine List.Perm.append_right _ (List.Perm.append_right _ ?_)
      exact List.perm_append_comm
    case calls =>
      intro c' hc'
      rcases List.mem_append.1 hc' with hc' | hc'
      · exact h.calls c' (hcalls ▸ List.mem_append_left _ hc')
      · rcases List.mem_cons.1 hc' with rfl | hc'
        · exact (h.calls c (by simp [hcalls])).go _
        · exact h.calls c' (hcalls ▸ List.mem_append_right _ (List.mem_cons_of_mem _ hc'))

/-! ## Any moves -/

/-- A token that was not brought before is brought by a connect. -/
theorem connects_step (s : Takeovers) (m : Move) :
    (s.step m).connects = s.connects ++ m.connect?.toList := by
  cases m with
  | connect id token url => simp [connects, step, Move.connect?]
  | disconnect token =>
    simp only [step]
    split <;> simp [connects, Move.connect?]
  | lost | bind => simp [connects, step, Move.connect?]
  | observe bus o => cases bus <;> simp [connects, step, Move.connect?]
  | go n => simp [connects_eq, causes_go, Move.connect?]

theorem connects_run (os os' : List Observer) (ms : List Move) :
    (run os os' ms).connects = ms.filterMap (·.connect?) := by
  induction ms using List.reverseRecOn with
  | nil => rfl
  | append_singleton ms m ih =>
    rw [run_concat, connects_step, ih, List.filterMap_append]
    cases h : m.connect? <;> simp [h]

/-- A disconnect begins a call if it removed a connection. -/
theorem calls_disconnect (h : Sound s) (token : String) :
    (s.step (.disconnect token)).calls = s.calls ++
      (s.registry.tokens.get? token).toList.map fun id => { bus := .disconnects, id, token } := by
  simp only [step, h.registry.disconnect_eq]
  cases s.registry.tokens.get? token <;> simp

theorem Sound.step (h : Sound s) {m : Move}
    (hnew : ∀ id token url, m = .connect id token url → token ∉ s.connects.map (·.2)) :
    Sound (s.step m) := by
  -- what a change of the registry without a connect leaves
  have htokens : ∀ (c : Registry.Change), (∀ id token url, c ≠ .connect id token url) →
      ∀ t id, (s.registry.apply c).tokens.get? t = some id →
        s.registry.tokens.get? t = some id := by
    intro c hc t id hid
    rcases Registry.tokens_of_apply hid with hold | ⟨url, rfl⟩
    · exact hold
    · exact absurd rfl (hc id t url)
  cases m with
  | connect id token url => exact h.connect (hnew id token url rfl) id url
  | disconnect token =>
    have hregistry : (s.step (.disconnect token)).registry =
        s.registry.apply (.disconnect token) := by
      simp only [Takeovers.step, Registry.apply]
      split <;> rename_i heq <;> simp [heq]
    refine h.change (hregistry ▸ h.registry.apply _) ?_ (calls_disconnect h token) ?_ ?_
    · rw [hregistry]
      exact htokens _ (by simp)
    · intro c hc
      obtain ⟨id, -, rfl⟩ := List.mem_map.1 hc
      exact ⟨rfl, rfl, rfl, fun _ => rfl⟩
    · simp only [Takeovers.step]
      split <;> rfl
  | lost id token =>
    exact h.change_registry (h.registry.apply (.lost id token))
      (htokens (.lost id token) (by simp)) rfl rfl
  | bind id subject =>
    exact h.change_registry (h.registry.apply (.bind id subject))
      (htokens (.bind id subject) (by simp)) rfl rfl
  | observe bus o =>
    cases bus <;> exact h.change_registry h.registry (fun _ _ ht => ht) rfl rfl
  | go n => exact h.go n

/-- **The invariant holds whatever moves are made**, as long as no token is used twice. -/
theorem sound_run (os os' : List Observer) (hfresh : (tokens ms).Nodup) :
    Sound (run os os' ms) := by
  induction ms using List.reverseRecOn with
  | nil => exact sound_start os os'
  | append_singleton ms m ih =>
    have happend : tokens (ms ++ [m]) = tokens ms ++ m.connect?.toList.map (·.2) := by
      cases h : m.connect? <;> simp [tokens, List.filterMap_append, h]
    rw [happend, List.nodup_append] at hfresh
    rw [run_concat]
    refine (ih hfresh.1).step ?_
    rintro id token url rfl hused
    rw [connects_run] at hused
    exact hfresh.2.2 token hused token (by simp [Move.connect?]) rfl

end Takeovers

end TabBoard
