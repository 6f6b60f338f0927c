import TabBoard.Proofs.Http.Callback

/-!
# Who gets what is sent for a subject

The callbacks of the gateway are handled one after another, and between them anything else may
happen: restarts, deliveries, connections that turn out to be lost (`Handled`). Nothing of that
brings a connection in or changes who is behind one (`Fewer`). So every live connection has the
subject that its own connect showed (`handled_owned`): the last connect of its request id, and the
last one with its token (`Own`).

**Theorem (`broadcast_confined`).** With authentication, an event for a subject goes only to
connections whose own connect carried an access token that was accepted for this subject, or for the
local user, who gets every event. A connection whose connect showed no such token never gets it,
also not while a connect is being worked in.
-/

namespace TabBoard

/-! ## Connections that go -/

namespace Registry

variable {r₀ r r' : Registry} {id token url : String} {subject : Option String}

/-- Some connections may be gone; none came, and none changed. -/
structure Fewer (r r' : Registry) : Prop where
  connections : ∀ id c, r'.connections.get? id = some c → r.connections.get? id = some c
  sound : r.Sound → r'.Sound

theorem Fewer.refl (r : Registry) : Fewer r r := ⟨fun _ _ hc => hc, fun h => h⟩

theorem Fewer.trans {r'' : Registry} (h : Fewer r r') (h' : Fewer r' r'') : Fewer r r'' :=
  ⟨fun id c hc => h.connections id c (h'.connections id c hc), fun hr => h'.sound (h.sound hr)⟩

theorem fewer_removeIfCurrent (r : Registry) (id token : String) :
    Fewer r (r.removeIfCurrent id token) :=
  ⟨fun _ _ => connections_of_removeIfCurrent, fun h => h.removeIfCurrent id token⟩

theorem fewer_disconnect (r : Registry) (token : String) : Fewer r (r.disconnect token).1 :=
  ⟨fun _ _ => connections_of_disconnect, fun h => h.disconnect token⟩

/-- Of the connections that there are, one was registered if it is still there, and the others were
there before and have other tokens. -/
structure Joined (r₀ : Registry) (id token url : String) (subject : Option String)
    (r : Registry) : Prop where
  sound : r.Sound
  only : ∀ id' c, r.connections.get? id' = some c →
    (id' = id ∧ c = { token, url, subject }) ∨
      (id' ≠ id ∧ c.token ≠ token ∧ r₀.connections.get? id' = some c)

theorem joined_connect (h : r₀.Sound) (id token url : String) :
    Joined r₀ id token url none (r₀.connect id token url).1 := by
  have hregistered := r₀.registered_connect id token url
  have hsound := h.connect id token url
  refine ⟨hsound, fun id' c hc => ?_⟩
  by_cases hid : id' = id
  · subst hid
    exact .inl ⟨rfl, Option.some.inj (hc.symm.trans hregistered.connection)⟩
  · have htoken : c.token ≠ token :=
      fun htoken => hid (hsound.eq_of_token hc hregistered.connection htoken)
    exact .inr ⟨hid, htoken, (hregistered.others id' c hid htoken).1 hc⟩

theorem Joined.fewer (h : Joined r₀ id token url subject r) (hfewer : Fewer r r') :
    Joined r₀ id token url subject r' :=
  ⟨hfewer.sound h.sound, fun id' c hc => h.only id' c (hfewer.connections id' c hc)⟩

theorem Joined.bind (h : Joined r₀ id token url none r) (subject : String) :
    Joined r₀ id token url (some subject) (r.apply (.bind id subject)) := by
  refine ⟨h.sound.apply _, fun id' c hc => ?_⟩
  rw [connections_bind, Table.get?_modify] at hc
  split_ifs at hc with hid
  · obtain ⟨c₀, hc₀, rfl⟩ := Option.map_eq_some_iff.1 hc
    obtain ⟨-, rfl⟩ := (h.only id' c₀ hc₀).resolve_right fun hother => hother.1 hid.symm
    exact .inl ⟨hid.symm, rfl⟩
  · exact .inr ((h.only id' c hc).resolve_left fun hself => hid hself.1.symm)

end Registry

namespace Board

open Broadcast (registryOf)

variable {b : Board} {m : Move} {ms ms' : List Move} {id token url : String}

/-- A move that only callbacks make. -/
def Move.OfCallbacks : Move → Prop
  | .connect _ _ _ | .disconnect _ | .bind _ _ => True
  | _ => False

/-- **Without callbacks, connections only go.** -/
theorem fewer_step (b : Board) (hm : ¬ m.OfCallbacks) :
    (registryOf b).Fewer (registryOf (b.step m)) := by
  by_cases hconnections : m.OfConnections
  · cases m with
    | sent id token event outcome =>
      cases outcome with
      | notFound =>
        have hanswer := Broadcast.registryOf_sent b (id, token) event .notFound
        exact hanswer ▸ Registry.fewer_removeIfCurrent _ id token
      | _ => exact hconnections.elim
    | connect | disconnect | bind => exact (hm trivial).elim
    | _ => exact hconnections.elim
  · rw [registryOf, registryOf, registry_step b hconnections]
    exact .refl _

theorem fewer_moves (b : Board) (hms : ∀ m ∈ ms, ¬ m.OfCallbacks) :
    (registryOf b).Fewer (registryOf (b.moves ms)) := by
  induction ms generalizing b with
  | nil => exact .refl _
  | cons m ms ih =>
    rw [List.forall_mem_cons] at hms
    exact (fewer_step b hms.1).trans (ih (b.step m) hms.2)

/-- Whatever happened to a board since it was wired, nobody observes disconnects. -/
theorem disconnectObservers_moves (catalog : Catalog) (settings : Settings) (ms : List Move) :
    ((ofCatalog catalog settings).moves ms).disconnectObservers = [] :=
  (fixed_moves (ofCatalog catalog settings) ms).disconnectObservers

theorem registryOf_disconnect (hobservers : b.disconnectObservers = []) (token : String) :
    registryOf (b.disconnect token) = ((registryOf b).disconnect token).1 := by
  unfold registryOf
  cases hregistry : b.registry with
  | none => simp [disconnect, disconnectWithin, hregistry, Registry.disconnect]
  | some r =>
    simp only [disconnect, disconnectWithin, hregistry]
    split <;> rename_i heq
    · simp [measure, hobservers, notify, heq]
    · simp [heq]

theorem registryOf_bind (b : Board) (id subject : String) :
    registryOf (b.bind id subject) = (registryOf b).apply (.bind id subject) := by
  unfold registryOf
  cases hregistry : b.registry with
  | none =>
    simp only [bind, hregistry, Option.bind_none]
    exact congrArg (·.getD {}) hregistry
  | some r => simp only [Connects.bind_registry hregistry, Option.getD_some]

/-- **A connect brings its own connection in**, with the subject that it shows, and nothing else
does. -/
theorem joined_course (hsome : b.registry ≠ none) (hsound : (registryOf b).Sound)
    (hobservers : ∀ o ∈ b.connectObservers, Passive o) (id token url : String)
    (subject : Option String) (hms : ∀ m ∈ ms ++ ms', ¬ m.OfCallbacks) :
    (registryOf b).Joined id token url subject
      (registryOf (b.moves (course id token url subject ms ms'))) := by
  rw [List.forall_mem_append] at hms
  obtain ⟨r, hregistry⟩ := Option.ne_none_iff_exists'.1 hsome
  have hconnected : registryOf (b.step (.connect id token url)) =
      ((registryOf b).connect id token url).1 := by
    have hstep := registry_connect hregistry hobservers id token url
    simp only [registryOf, hregistry, Option.getD_some]
    exact congrArg (·.getD {}) hstep
  have hjoined : (registryOf b).Joined id token url none
      (registryOf ((b.step (.connect id token url)).moves ms)) :=
    (hconnected ▸ Registry.joined_connect hsound id token url).fewer (fewer_moves _ hms.1)
  simp only [course, moves_cons, moves_append]
  refine .fewer ?_ (fewer_moves _ hms.2)
  cases subject with
  | none => exact hjoined
  | some subject =>
    have hbound := registryOf_bind ((b.step (.connect id token url)).moves ms) id subject
    exact hbound ▸ hjoined.bind subject

/-- While a connect is worked in, its connection has no subject yet. -/
theorem connections_of_begun (hsound : (registryOf b).Sound)
    (hobservers : ∀ o ∈ b.connectObservers, Passive o) (id token url : String)
    (hms : ∀ m ∈ ms, ¬ m.OfCallbacks) :
    let r := registryOf (b.moves (.connect id token url :: ms))
    r.Sound ∧ ∀ id' c, r.connections.get? id' = some c → c.subject ≠ none →
      (registryOf b).connections.get? id' = some c := by
  intro r
  by_cases hnone : b.registry = none
  · -- there is no gateway, and nothing to register
    have hsame : b.step (.connect id token url) = b := by simp only [step, connect, hnone]
    have hfewer : (registryOf b).Fewer r := by
      simpa only [r, moves_cons, hsame] using fewer_moves b hms
    exact ⟨hfewer.sound hsound, fun id' c hc _ => hfewer.connections id' c hc⟩
  · have hjoined : (registryOf b).Joined id token url none r := by
      have hcourse : (registryOf b).Joined id token url none
          (registryOf (b.moves (course id token url none ms []))) :=
        joined_course hnone hsound hobservers id token url none (by simpa using hms)
      simpa only [course, Option.map_none, Option.toList_none, List.append_nil] using hcourse
    refine ⟨hjoined.sound, fun id' c hc hsubject => ?_⟩
    rcases hjoined.only id' c hc with ⟨-, rfl⟩ | ⟨-, -, hold⟩
    · exact absurd rfl hsubject
    · exact hold

end Board

namespace Http

open Board (Move)
open Broadcast (registryOf)

/-! ## Callbacks one after another -/

/-- A callback with the time at which it came and the status that it was answered with. -/
structure Received where
  now : Moment
  request : Request
  status : Nat

variable {catalog : Catalog} {settings : Settings} {xs : List Received} {x y : Received}
  {b : Board} {s : Simulation} {now : Moment} {r : Request} {id token : String} {f f' : Forwarded}

/-- The callback is a connect that was worked in. -/
structure Received.Registers (x : Received) (id token : String) (f : Forwarded) : Prop where
  status : x.status = 200
  body : Callback.ofBody (x.request.header? "content-type") x.request.body =
    .ok (.connect token f)
  id : requestId f.url = .ok id

/-- These callbacks were handled since the board was wired, and anything else happened between
them. -/
inductive Handled (catalog : Catalog) (settings : Settings) : List Received → Board → Prop
  | wired : Handled catalog settings [] (.ofCatalog catalog settings)
  | callback {xs : List Received} {s : Simulation} (h : Handled catalog settings xs s.board)
      (now : Moment) (id : String) {r : Request} (hcallback : IsCallback r) :
      Handled catalog settings (xs ++ [⟨now, r, (s.handle now id r).1.status⟩])
        (s.handle now id r).2.2.board
  | others {xs : List Received} {b : Board} (h : Handled catalog settings xs b) {ms : List Move}
      (hms : ∀ m ∈ ms, ¬ m.OfCallbacks) : Handled catalog settings xs (b.moves ms)

/-- What a callback does to a board, with the status of its answer. -/
inductive Effect (b : Board) (now : Moment) (r : Request) : Nat → Board → Prop
  | refused {status : Nat} (hstatus : status ≠ 200) : Effect b now r status b
  | connect {token id : String} {f : Forwarded} {ms ms' : List Move} (hsome : b.registry ≠ none)
      (hbody : Callback.ofBody (r.header? "content-type") r.body = .ok (.connect token f))
      (hid : requestId f.url = .ok id) (hms : ∀ m ∈ ms ++ ms', ¬ m.OfCallbacks) :
      Effect b now r 200 (b.moves (Board.course id token f.url
        (b.settings.auth.subject? now.seconds f.headers) ms ms'))
  | disconnect {token : String} {reason : Option String} {f : Option Forwarded} {ms : List Move}
      (hbody : Callback.ofBody (r.header? "content-type") r.body =
        .ok (.disconnect token reason f)) (hms : ∀ m ∈ ms, ¬ m.OfCallbacks) :
      Effect b now r 200 (b.moves (.disconnect token :: ms))

theorem not_ofCallbacks {m : Move} (hm : s.ByAgents m) : ¬ m.OfCallbacks := by
  cases m <;> first | exact hm.elim | exact fun h => h

/-- **A callback is refused, or it connects or disconnects**, with moves of agents between its
own. -/
theorem IsCallback.effect (h : IsCallback r) (s : Simulation) (now : Moment) (id : String) :
    Effect s.board now r (s.handle now id r).1.status (s.handle now id r).2.2.board := by
  rcases h.handled s now id with ⟨hstatus, hsame⟩ | ⟨hstatus, supplied, action, -, hjudged, haction⟩
  · rw [hsame]
    refine .refused ?_
    rintro hok
    rw [hok] at hstatus
    exact absurd hstatus (by decide)
  · rw [hstatus]
    cases hjudged with
    | connect hsome _ hbody hid =>
      obtain ⟨ms, ms', hms, hboard⟩ := board_connected s _ _ _ _
      rw [handle_of_connect haction]
      exact hboard ▸ .connect hsome hbody hid fun m hm => not_ofCallbacks (hms m hm)
    | disconnect _ _ hbody =>
      rw [handle_of_disconnect haction]
      obtain ⟨ms, hms, hboard⟩ :=
        (Simulation.works_withBoard s (s.board.disconnect _)).board
      exact hboard ▸ .disconnect hbody fun m hm => not_ofCallbacks (hms m hm)

/-- Whatever was handled, it was some moves. -/
theorem Handled.reached (h : Handled catalog settings xs b) :
    ∃ ms, b = (Board.ofCatalog catalog settings).moves ms := by
  induction h with
  | wired => exact ⟨[], rfl⟩
  | @callback xs s h now id r hcallback ih =>
    obtain ⟨ms, hboard⟩ := ih
    have heffect := hcallback.effect s now id
    generalize (s.handle now id r).1.status = status at heffect
    generalize (s.handle now id r).2.2.board = b at heffect
    rw [hboard] at heffect
    cases heffect with
    | refused => exact ⟨ms, rfl⟩
    | connect | disconnect => exact ⟨ms ++ _, (Board.moves_append _ _ _).symm⟩
  | others h hms ih =>
    obtain ⟨ms, rfl⟩ := ih
    exact ⟨ms ++ _, (Board.moves_append _ _ _).symm⟩

theorem Handled.connect {request token url : String} {subject : Option String}
    (h : Handled catalog settings xs s.board) (hcallback : IsCallback r)
    (haction : s.board.action now r = .connect request token url subject) (id : String) :
    Handled catalog settings (xs ++ [⟨now, r, 200⟩]) (s.handle now id r).2.2.board := by
  have hstatus : (s.handle now id r).1.status = 200 := by
    rw [handle_of_connect haction]
    rfl
  exact hstatus ▸ h.callback now id hcallback

/-! ## The connect of a connection -/

/-- The callback is the connect of the connection: no later one has its request id or its token. -/
def Own (xs : List Received) (id token : String) (x : Received) (f : Forwarded) : Prop :=
  ∃ before after, xs = before ++ x :: after ∧ x.Registers id token f ∧
    ∀ later ∈ after, ∀ id' token' f', later.Registers id' token' f' → id' ≠ id ∧ token' ≠ token

theorem Own.concat (h : Own xs id token x f)
    (hother : ∀ id' token' f', y.Registers id' token' f' → id' ≠ id ∧ token' ≠ token) :
    Own (xs ++ [y]) id token x f := by
  obtain ⟨before, after, rfl, hregisters, hlater⟩ := h
  refine ⟨before, after ++ [y], by simp, hregisters, ?_⟩
  exact List.forall_mem_append.2 ⟨hlater, List.forall_mem_singleton.2 hother⟩

theorem own_last (h : y.Registers id token f) : Own (xs ++ [y]) id token y f :=
  ⟨xs, [], rfl, h, by simp⟩

theorem Received.Registers.unique {id' token' : String} (h : x.Registers id token f)
    (h' : x.Registers id' token' f') : id' = id ∧ token' = token ∧ f' = f := by
  cases h.body.symm.trans h'.body
  cases h.id.symm.trans h'.id
  exact ⟨rfl, rfl, rfl⟩

/-- **A connection has one connect.** -/
theorem Own.unique {x' : Received} (h : Own xs id token x f) (h' : Own xs id token x' f') :
    x = x' ∧ f = f' := by
  obtain ⟨before, after, hxs, hregisters, hlater⟩ := h
  obtain ⟨before', after', hxs', hregisters', hlater'⟩ := h'
  obtain rfl : x = x' := by
    rcases List.append_eq_append_iff.1 (hxs.symm.trans hxs') with
      ⟨between, -, hrest⟩ | ⟨between, -, hrest⟩
    · cases between with
      | nil => exact (List.cons.inj hrest).1
      | cons y between =>
        have hmem : x' ∈ after := by simp [(List.cons.inj hrest).2]
        exact absurd rfl (hlater x' hmem id token f' hregisters').1
    · cases between with
      | nil => exact (List.cons.inj hrest).1.symm
      | cons y between =>
        have hmem : x ∈ after' := by simp [(List.cons.inj hrest).2]
        exact absurd rfl (hlater' x hmem id token f hregisters).1
  exact ⟨rfl, (hregisters.unique hregisters').2.2.symm⟩

/-- Every connection has the subject that its own connect shows. -/
structure Owned (policy : Auth.Policy) (xs : List Received) (r : Registry) : Prop where
  sound : r.Sound
  owner : ∀ id c, r.connections.get? id = some c → ∃ x f, Own xs id c.token x f ∧
    c.url = f.url ∧ c.subject = policy.subject? x.now.seconds f.headers

theorem Owned.fewer {policy : Auth.Policy} {r r' : Registry} (h : Owned policy xs r)
    (hfewer : r.Fewer r') : Owned policy xs r' :=
  ⟨hfewer.sound h.sound, fun id c hc => h.owner id c (hfewer.connections id c hc)⟩

/-- A callback that registers nothing leaves the connects that there were. -/
theorem Owned.concat {policy : Auth.Policy} {r : Registry} (h : Owned policy xs r)
    (hother : ∀ id token f, ¬ y.Registers id token f) : Owned policy (xs ++ [y]) r := by
  refine ⟨h.sound, fun id c hc => ?_⟩
  obtain ⟨x, f, hown, hrest⟩ := h.owner id c hc
  exact ⟨x, f, hown.concat fun id' token' f' hy => (hother id' token' f' hy).elim, hrest⟩

/-- **A connect brings a connection in that is its own**, and leaves that of no other connect under
its request id or with its token. -/
theorem Owned.joined {policy : Auth.Policy} {r r' : Registry} (h : Owned policy xs r)
    (hy : y.Registers id token f)
    (hjoined : r.Joined id token f.url (policy.subject? y.now.seconds f.headers) r') :
    Owned policy (xs ++ [y]) r' := by
  refine ⟨hjoined.sound, fun id' c hc => ?_⟩
  rcases hjoined.only id' c hc with ⟨rfl, rfl⟩ | ⟨hid, htoken, hold⟩
  · exact ⟨y, f, own_last hy, rfl, rfl⟩
  · obtain ⟨x, f', hown, hrest⟩ := h.owner id' c hold
    refine ⟨x, f', hown.concat ?_, hrest⟩
    intro id'' token'' f'' hy'
    obtain ⟨rfl, rfl, -⟩ := hy.unique hy'
    exact ⟨hid.symm, htoken.symm⟩

/-- **Whatever callbacks are handled**, every connection has the subject that its own connect
shows. -/
theorem handled_owned (h : Handled catalog settings xs b) :
    Owned settings.auth xs (registryOf b) := by
  induction h with
  | wired =>
    have hempty : registryOf (Board.ofCatalog catalog settings) = {} := by
      unfold registryOf Board.ofCatalog
      dsimp only
      split_ifs <;> rfl
    rw [hempty]
    exact ⟨Registry.sound_empty, fun id c hc => by cases hc⟩
  | others h hms ih => exact ih.fewer (Board.fewer_moves _ hms)
  | @callback xs s h now id r hcallback ih =>
    obtain ⟨ms₀, hboard⟩ := h.reached
    have hsettings : s.board.settings = settings :=
      hboard ▸ (Board.fixed_moves (Board.ofCatalog catalog settings) ms₀).settings
    have heffect := hcallback.effect s now id
    generalize (s.handle now id r).1.status = status at heffect
    generalize (s.handle now id r).2.2.board = b at heffect
    cases heffect with
    | refused hstatus => exact ih.concat fun _ _ _ hy => hstatus hy.status
    | connect hsome hbody hid hms =>
      rw [hsettings]
      refine ih.joined ⟨rfl, hbody, hid⟩ ?_
      exact Board.joined_course hsome ih.sound
        (hboard ▸ Board.passive_moves catalog settings ms₀) _ _ _ _ hms
    | @disconnect gone reason f ms hbody hms =>
      have hother : ∀ id token f, ¬ (⟨now, r, 200⟩ : Received).Registers id token f :=
        fun _ _ _ hy => by cases hbody.symm.trans hy.body
      have hobservers := Board.disconnectObservers_moves catalog settings ms₀
      rw [← hboard] at hobservers
      have hgone : (registryOf s.board).Fewer (registryOf (s.board.disconnect gone)) :=
        Board.registryOf_disconnect hobservers gone ▸ Registry.fewer_disconnect _ _
      exact (ih.concat hother).fewer (hgone.trans (Board.fewer_moves _ hms))

/-! ## Events for a subject -/

/-- An event for a subject is sent to the connection, whatever else happens during the delivery. -/
def Goes (b : Board) (subject id token : String) : Prop :=
  ∃ order ms, order.Perm (b.targets .all (some subject)) ∧
    ∃ call ∈ ((Broadcast.start (registryOf b) order).moves ms).calls, call.target = (id, token)

/-- It is sent to those who are picked. -/
theorem goes_iff {subject : String} :
    Goes b subject id token ↔ (id, token) ∈ b.targets .all (some subject) := by
  constructor
  · rintro ⟨order, ms, horder, call, hcall, htarget⟩
    have hcalls := (Broadcast.sound_moves (registryOf b) order ms).calls
    rw [← horder.mem_iff, ← hcalls, ← htarget]
    exact List.mem_append_left _ (List.mem_map_of_mem hcall)
  · intro htarget
    obtain ⟨ms, -, -, hcalls⟩ := Broadcast.exists_rest
      (Broadcast.start (registryOf b) (b.targets .all (some subject))) fun _ => .delivered
    refine ⟨_, ms, .refl _, ⟨(id, token), .delivered⟩, ?_, rfl⟩
    rw [hcalls]
    exact List.mem_append_right _ (List.mem_map_of_mem htarget)

/-- These are the connections that have the subject, or belong to the local user. -/
theorem goes_iff_of_sound {subject : String} (hsound : (registryOf b).Sound) :
    Goes b subject id token ↔ ∃ c, (registryOf b).connections.get? id = some c ∧
      c.token = token ∧ (c.subject = some subject ∨ c.subject = some localUser) := by
  rw [goes_iff, Broadcast.targets_eq, Registry.mem_targets_iff hsound.connections]
  simp only [Registry.IsFor, Option.some.injEq, forall_eq']

/-- The request of a connect carries an access token that was accepted for the subject. -/
def Shows (v : Auth.Validator) (cookieName : String) (x : Received) (f : Forwarded)
    (subject : String) : Prop :=
  ∃ access claims, Auth.accessToken f.headers cookieName = .ok access ∧
    v.validate x.now.seconds access = .ok claims ∧ claims.subject = subject

theorem subject?_eq_some_iff {p : Auth.Policy} {v : Auth.Validator} (henabled : p.enabled = true)
    (hvalidator : p.validator = some v) {subject : String} :
    p.subject? x.now.seconds f.headers = some subject ↔ Shows v p.cookieName x f subject := by
  unfold Auth.Policy.subject? Shows
  rw [henabled, hvalidator]
  cases haccess : Auth.accessToken f.headers p.cookieName with
  | error e => simp
  | ok access =>
    cases hvalidate : v.validate x.now.seconds access <;>
      simp [hvalidate, Except.map, Except.toOption]

/-- Whom an event for a subject goes to. -/
structure Confined (settings : Settings) (v : Auth.Validator) (xs : List Received) (b : Board)
    (subject : String) : Prop where
  /-- It goes to connections whose own connect carried a token that was accepted for the subject,
  or for the local user. -/
  shown : ∀ id token, Goes b subject id token → ∃ x f, Own xs id token x f ∧
    (Shows v settings.auth.cookieName x f subject ∨ Shows v settings.auth.cookieName x f localUser)
  /-- Without such a token it goes to nobody. -/
  spares : ∀ id token x f, Own xs id token x f →
    (∀ access claims, Auth.accessToken f.headers settings.auth.cookieName = .ok access →
      v.validate x.now.seconds access = .ok claims →
      claims.subject ≠ subject ∧ claims.subject ≠ localUser) →
    ¬ Goes b subject id token
  /-- While a connect is worked in and has not bound its subject, it goes to nobody new. -/
  underway : ∀ id token url ms, (∀ m ∈ ms, ¬ m.OfCallbacks) → ∀ id' token',
    Goes (b.moves (.connect id token url :: ms)) subject id' token' → Goes b subject id' token'

/-- **An event for a subject goes to nobody who did not show that they are it**, the local user
apart. -/
theorem broadcast_confined {v : Auth.Validator} (h : Handled catalog settings xs b)
    (henabled : settings.auth.enabled = true) (hvalidator : settings.auth.validator = some v)
    (subject : String) : Confined settings v xs b subject := by
  have howned := handled_owned h
  have hshown : ∀ id token, Goes b subject id token → ∃ x f, Own xs id token x f ∧
      (Shows v settings.auth.cookieName x f subject ∨
        Shows v settings.auth.cookieName x f localUser) := by
    intro id token hgoes
    obtain ⟨c, hc, rfl, hsubject⟩ := (goes_iff_of_sound howned.sound).1 hgoes
    obtain ⟨x, f, hown, -, hshows⟩ := howned.owner id c hc
    rw [hshows] at hsubject
    exact ⟨x, f, hown, hsubject.imp (subject?_eq_some_iff henabled hvalidator).1
      (subject?_eq_some_iff henabled hvalidator).1⟩
  refine ⟨hshown, ?spares, ?underway⟩
  case spares =>
    intro id token x f hown hnone hgoes
    obtain ⟨x', f', hown', hshows⟩ := hshown id token hgoes
    obtain ⟨rfl, rfl⟩ := hown.unique hown'
    rcases hshows with ⟨access, claims, haccess, hvalidate, hsubject⟩ |
      ⟨access, claims, haccess, hvalidate, hsubject⟩
    · exact (hnone access claims haccess hvalidate).1 hsubject
    · exact (hnone access claims haccess hvalidate).2 hsubject
  case underway =>
    intro id token url ms hms id' token' hgoes
    obtain ⟨ms₀, rfl⟩ := h.reached
    obtain ⟨hsound, hold⟩ := Board.connections_of_begun howned.sound
      (Board.passive_moves catalog settings ms₀) id token url hms
    obtain ⟨c, hc, htoken, hsubject⟩ := (goes_iff_of_sound hsound).1 hgoes
    have hbound : c.subject ≠ none := by
      rcases hsubject with hsubject | hsubject <;> rw [hsubject] <;> exact Option.some_ne_none _
    exact (goes_iff_of_sound howned.sound).2 ⟨c, hold id' c hc hbound, htoken, hsubject⟩

/-- The connect of a client whose request carries a bearer token. -/
def connectOf (id token bearer : String) : Request where
  method := "POST"
  uri := "/api/sse/callback"
  headers := [("content-type", "application/json")]
  body := "\x7b\"action\":\"connect\",\"token\":\"" ++ token ++
    "\",\"request\":\x7b\"url\":\"/?request_id=" ++ id ++
    "\",\"headers\":\x7b\"authorization\":\"Bearer " ++ bearer ++ "\"\x7d\x7d\x7d"

/-- A client comes with a token for `one`. What is sent for `one` goes to it, and what is sent for
`two` does not. -/
theorem broadcast_confined_one :
    let v : Auth.Validator := .ofSecret "k"
    let settings : Settings :=
      { transport := .gateway, auth := { enabled := true, validator := some v } }
    let r := connectOf "a" "t" ("eyJhbGciOiJIUzI1NiJ9" ++
      ".eyJzdWIiOiJvbmUiLCJleHAiOjk5OTk5OTk5OTksImlhdCI6MH0" ++
      ".NcZij7w2LE69dA79q8s5BSm4UHiWsCRX8ZeCtTww714")
    let s : Simulation := { board := .ofCatalog ⟨[]⟩ settings, limit := ⟨1000⟩ }
    let b := (s.handle ⟨0, 0⟩ "" r).2.2.board
    Handled ⟨[]⟩ settings [⟨⟨0, 0⟩, r, 200⟩] b ∧
      settings.auth.enabled = true ∧ settings.auth.validator = some v ∧
      (∀ subject, Confined settings v [⟨⟨0, 0⟩, r, 200⟩] b subject) ∧
      Goes b "one" "a" "t" ∧ ¬ Goes b "two" "a" "t" := by
  intro v settings r s b
  have haction : s.board.action ⟨0, 0⟩ r = .connect "a" "t" "/?request_id=a" (some "one") := by
    decide +kernel
  have hhandled : Handled ⟨[]⟩ settings [⟨⟨0, 0⟩, r, 200⟩] b :=
    Handled.connect (s := s) .wired ⟨rfl, by decide⟩ haction ""
  have hb : b = (connected s "a" "t" "/?request_id=a" (some "one")).board := by
    simp only [b, handle_of_connect haction]
  refine ⟨hhandled, rfl, rfl, fun subject => broadcast_confined hhandled rfl rfl subject, ?_, ?_⟩
  · rw [goes_iff, hb]
    decide +kernel
  · rw [goes_iff, hb]
    decide +kernel

/-- **Whoever has a token for the local user gets every event**, also those for other subjects. -/
theorem local_user_gets_all :
    ¬ ∀ (catalog : Catalog) (settings : Settings) (xs : List Received) (b : Board)
        (v : Auth.Validator), Handled catalog settings xs b → settings.auth.enabled = true →
      settings.auth.validator = some v → ∀ subject id token, Goes b subject id token →
      ∃ x f, Own xs id token x f ∧ Shows v settings.auth.cookieName x f subject := by
  intro h
  let v : Auth.Validator := .ofSecret "k"
  let settings : Settings :=
    { transport := .gateway, auth := { enabled := true, validator := some v } }
  let r := connectOf "a" "t" ("eyJhbGciOiJIUzI1NiJ9" ++
    ".eyJzdWIiOiJsb2NhbC11c2VyIiwiZXhwIjo5OTk5OTk5OTk5LCJpYXQiOjB9" ++
    ".YFof_kRAMciFczit3GjDySqnkj3pv6ipvlnqzdRGvaI")
  let s : Simulation := { board := .ofCatalog ⟨[]⟩ settings, limit := ⟨1000⟩ }
  have haction : s.board.action ⟨0, 0⟩ r =
      .connect "a" "t" "/?request_id=a" (some "local-user") := by decide +kernel
  have hhandled := Handled.connect (s := s) .wired ⟨rfl, by decide⟩ haction ""
  have howned := handled_owned hhandled
  rw [handle_of_connect haction] at hhandled howned
  have hconnected : (registryOf (connected s "a" "t" "/?request_id=a"
      (some "local-user")).board).connections.get? "a" =
      some ⟨"t", "/?request_id=a", some "local-user"⟩ := by decide +kernel
  have hgoes : Goes (connected s "a" "t" "/?request_id=a" (some "local-user")).board
      "alice" "a" "t" :=
    (goes_iff_of_sound howned.sound).2 ⟨_, hconnected, rfl, .inr rfl⟩
  obtain ⟨x, f, hown, hshows⟩ := h _ settings _ _ v hhandled rfl rfl "alice" "a" "t" hgoes
  -- its own connect shows the local user and nobody else
  obtain ⟨x', f', hown', -, hsubject⟩ := howned.owner "a" _ hconnected
  obtain ⟨rfl, rfl⟩ := hown.unique hown'
  have hsame := hsubject.trans ((subject?_eq_some_iff (p := settings.auth) rfl rfl).2 hshows)
  exact absurd (Option.some.inj hsame) (by decide)

end Http

end TabBoard
