import TabBoard.Proofs.Http.Restart
import TabBoard.Proofs.Identity

/-!
# Callbacks

A callback passes the checks one after the other before it changes anything (`Judged`): the query
can be read, there is a gateway, the secret is right, the body is a report, the address names a
request id.

**Theorem (`callback_answered`).** A callback that is refused changes nothing at all. In production
the secret decides before the body is looked at, so whoever does not have it gets the same answer
whatever they send. A connect that is not refused leaves the connection registered, and those of
others as they were unless they had the token.

Registering takes several steps, and others come between them (`course`). The registry changes only
where a connection is registered, removed or bound to a subject, or turns out to be lost
(`registry_step`); while nobody else does that, the connection stays (`registered_course`).
-/

namespace TabBoard

/-! ## The registry -/

namespace Registry

variable {r₀ r : Registry} {id token url : String} {subject : Option String}

/-- A connection was registered, and perhaps bound to a subject. The connections of others are as
they were, unless they had the token. -/
structure Registered (r₀ : Registry) (id token url : String) (subject : Option String)
    (r : Registry) : Prop where
  connection : r.connections.get? id = some { token, url, subject }
  leads : r.tokens.get? token = some id
  others : ∀ id' c, id' ≠ id → c.token ≠ token →
    (r.connections.get? id' = some c ↔ r₀.connections.get? id' = some c)
  sound : r₀.Sound → r.Sound

/-- A connection that does not have the token is not invalidated by it. -/
theorem get?_releaseToken {id' : String} {c : Connection} (hc : c.token ≠ token) :
    (r.releaseToken id token).connections.get? id' = some c ↔
      r.connections.get? id' = some c := by
  refine ⟨connections_of_releaseToken, fun h => ?_⟩
  unfold releaseToken
  split
  · rename_i owner _
    split_ifs
    · exact h
    · cases hcurrent : r.isCurrent owner token with
      | false => rwa [removeIfCurrent_of_not hcurrent]
      | true =>
        obtain ⟨c', hc', htoken⟩ := isCurrent_iff.1 hcurrent
        have hne : owner ≠ id' := by
          rintro rfl
          exact hc (Option.some.inj (hc'.symm.trans h) ▸ htoken)
        rw [removeIfCurrent_of hcurrent, Table.get?_erase, if_neg hne]
        exact h
  · exact h

theorem registered_connect (r : Registry) (id token url : String) :
    Registered r id token url none (r.connect id token url).1 where
  connection := by rw [connect_eq, Table.get?_insert, if_pos rfl]
  leads := by rw [connect_eq, Table.get?_insert, if_pos rfl]
  others id' c hid hc := by
    rw [connect_eq, Table.get?_insert, if_neg (Ne.symm hid)]
    exact get?_releaseToken hc
  sound h := h.connect id token url

theorem Registered.bind (h : Registered r₀ id token url subject r) (subject' : String) :
    Registered r₀ id token url (some subject') (r.apply (.bind id subject')) where
  connection := by rw [connections_bind, Table.get?_modify, if_pos rfl, h.connection]; rfl
  leads := by
    show ((r.bind? id subject').getD r).tokens.get? token = some id
    unfold bind?
    split_ifs <;> exact h.leads
  others id' c hid hc := by
    rw [connections_bind, Table.get?_modify, if_neg (Ne.symm hid)]
    exact h.others id' c hid hc
  sound h₀ := (h.sound h₀).apply _

end Registry

namespace Board

variable {b : Board} {m : Move} {ms : List Move} {r₀ : Registry} {id token url : String}
  {subject : Option String}

/-- A move that changes which connections there are, or who is behind them. -/
def Move.OfConnections : Move → Prop
  | .connect _ _ _ | .disconnect _ | .bind _ _ | .sent _ _ _ .notFound => True
  | _ => False

/-- **Only such moves change the registry.** -/
theorem registry_step (b : Board) (hm : ¬ m.OfConnections) :
    (b.step m).registry = b.registry := by
  cases m with
  | connect | disconnect | bind => exact (hm trivial).elim
  | sent id token event outcome =>
    cases outcome with
    | notFound => exact (hm trivial).elim
    | _ => rfl
  | emit tab status =>
    simp only [step, Board.emit, Store.emit_eq]
    split_ifs <;> rfl
  | publish tab status label =>
    simp only [step, publishOutcome, Board.emit, Store.emit_eq]
    split_ifs <;> rfl
  | subscribe id tab =>
    simp only [step, Board.subscribe, Store.subscribe]
    cases b.store.statuses[tab]? <;> rfl
  | frames now stream =>
    simp only [step, Board.frames, Board.closeStream]
    split_ifs <;> rfl
  | occupy tab key =>
    simp only [step, Restarts.occupy_eq]
    split_ifs <;> rfl
  | _ => rfl

theorem registry_moves (b : Board) (hms : ∀ m ∈ ms, ¬ m.OfConnections) :
    (b.moves ms).registry = b.registry := by
  induction ms generalizing b with
  | nil => rfl
  | cons m ms ih =>
    rw [List.forall_mem_cons] at hms
    exact (ih (b.step m) hms.2).trans (registry_step b hms.1)

/-! ## Registering a connection -/

/-- An observer that neither disconnects nor binds anyone. -/
def Passive : Observer → Prop
  | .replay | .witness _ .nothing | .witness _ .panic => True
  | .witness _ (.bind _) | .witness _ (.disconnect _) => False

/-- Whatever happened to a board since it was wired, nobody but the replay observes. -/
theorem passive_moves (catalog : Catalog) (settings : Settings) (ms : List Move) :
    ∀ o ∈ ((ofCatalog catalog settings).moves ms).connectObservers, Passive o := by
  rw [(fixed_moves (ofCatalog catalog settings) ms).connectObservers]
  unfold ofCatalog
  dsimp only
  split_ifs <;> simp [Passive]

theorem registry_tell {disconnect : String → Board → Board} {o : Observer} (ho : Passive o)
    (id : String) (b : Board) : (tell disconnect id o b).2.registry = b.registry := by
  cases o with
  | replay => rfl
  | witness number reaction =>
    cases reaction with
    | nothing | panic => rfl
    | bind | disconnect => exact ho.elim

theorem registry_connect (hregistry : b.registry = some r₀)
    (hobservers : ∀ o ∈ b.connectObservers, Passive o) (id token url : String) :
    (b.connect id token url).2.registry = some (r₀.connect id token url).1 := by
  simp only [Board.connect, hregistry]
  exact notify_keeps (fun _ _ _ h => h) 0
    (fun o ho b' h => (registry_tell (hobservers o ho) id b').trans h) rfl

/-- The moves of registering a connection, with those of others between them and behind them. The
subject is bound if there is one. -/
def course (id token url : String) (subject : Option String) (ms ms' : List Move) : List Move :=
  .connect id token url :: (ms ++ (subject.map (.bind id)).toList ++ ms')

/-- **While nobody else changes the connections, a connection stays registered.** -/
theorem registered_course (hregistry : b.registry = some r₀)
    (hobservers : ∀ o ∈ b.connectObservers, Passive o) (id token url : String)
    (subject : Option String) {ms ms' : List Move}
    (hms : ∀ m ∈ ms ++ ms', ¬ m.OfConnections) :
    ∃ r, (b.moves (course id token url subject ms ms')).registry = some r ∧
      r₀.Registered id token url subject r := by
  have hconnected : ((b.step (.connect id token url)).moves ms).registry =
      some (r₀.connect id token url).1 := by
    rw [registry_moves _ fun m hm => hms m (List.mem_append_left _ hm)]
    exact registry_connect hregistry hobservers id token url
  have hregistered := r₀.registered_connect id token url
  simp only [course, moves_cons, moves_append]
  rw [registry_moves _ fun m hm => hms m (List.mem_append_right _ hm)]
  cases subject with
  | none => exact ⟨_, hconnected, hregistered⟩
  | some subject =>
    exact ⟨_, Connects.bind_registry hconnected id subject, hregistered.bind subject⟩

end Board

namespace Http

open Board (Move)

variable {b : Board} {now : Moment} {r : Request} {s : Simulation}

/-! ## The checks -/

theorem status_checkSecret {production : Bool} {configured supplied : Option String} {e : Error}
    (h : checkSecret production configured supplied = .error e) : e.status = 401 := by
  unfold checkSecret at h
  split_ifs at h
  split at h
  · cases h
    rfl
  · split_ifs at h
    cases h
    rfl

theorem status_ofBody {contentType : Option String} {body : Body} {e : Error}
    (h : Callback.ofBody contentType body = .error e) : e.status = 400 := by
  unfold Callback.ofBody at h
  dsimp only at h
  split_ifs at h
  · cases h
    rfl
  · cases h
    rfl
  · split at h
    · cases h
    · cases h
      rfl
    · cases h
      rfl

theorem status_requestId {url : String} {e : Error} (h : requestId url = .error e) :
    e.status = 400 := by
  unfold requestId at h
  split at h
  · cases h
    rfl
  · dsimp only at h
    split_ifs at h
    · cases h
      rfl
    · cases h
      rfl

/-- In production the secret has to be the one that is configured. -/
theorem checkSecret_eq_ok_iff {production : Bool} {configured supplied : Option String} :
    checkSecret production configured supplied = .ok () ↔
      (production = true → ∃ secret, configured = some secret ∧ supplied = some secret) := by
  unfold checkSecret
  cases production with
  | false => simp
  | true =>
    cases configured with
    | none => simp
    | some secret =>
      by_cases hsupplied : supplied = some secret
      · simp [hsupplied]
      · simp [hsupplied]

/-- The check that a report with a readable query fails, if any: the first one in this order. -/
inductive Judged (b : Board) (now : Moment) (r : Request) (supplied : Option String) :
    Except Error Action → Prop
  | disabled (hnone : b.registry = none) :
      Judged b now r supplied (.error (.notFound "Gateway transport is not enabled"))
  | refused {e : Error} (hsome : b.registry ≠ none)
      (hsecret : checkSecret b.settings.production b.settings.callbackSecret supplied = .error e) :
      Judged b now r supplied (.error e)
  | malformed {e : Error} (hsome : b.registry ≠ none)
      (hsecret : checkSecret b.settings.production b.settings.callbackSecret supplied = .ok ())
      (hbody : Callback.ofBody (r.header? "content-type") r.body = .error e) :
      Judged b now r supplied (.error e)
  | nameless {e : Error} {token : String} {f : Forwarded} (hsome : b.registry ≠ none)
      (hsecret : checkSecret b.settings.production b.settings.callbackSecret supplied = .ok ())
      (hbody : Callback.ofBody (r.header? "content-type") r.body = .ok (.connect token f))
      (hid : requestId f.url = .error e) : Judged b now r supplied (.error e)
  | connect {token id : String} {f : Forwarded} (hsome : b.registry ≠ none)
      (hsecret : checkSecret b.settings.production b.settings.callbackSecret supplied = .ok ())
      (hbody : Callback.ofBody (r.header? "content-type") r.body = .ok (.connect token f))
      (hid : requestId f.url = .ok id) :
      Judged b now r supplied
        (.ok (.connect id token f.url (b.settings.auth.subject? now.seconds f.headers)))
  | disconnect {token : String} {reason : Option String} {f : Option Forwarded}
      (hsome : b.registry ≠ none)
      (hsecret : checkSecret b.settings.production b.settings.callbackSecret supplied = .ok ())
      (hbody : Callback.ofBody (r.header? "content-type") r.body =
        .ok (.disconnect token reason f)) :
      Judged b now r supplied (.ok (.disconnect token))

theorem judged (b : Board) (now : Moment) (r : Request) (supplied : Option String) :
    Judged b now r supplied (b.reportAction now r supplied) := by
  unfold Board.reportAction
  cases hregistry : b.registry with
  | none => exact .disabled hregistry
  | some registry =>
    have hsome : b.registry ≠ none := by simp [hregistry]
    cases hsecret : checkSecret b.settings.production b.settings.callbackSecret supplied with
    | error e => exact .refused hsome hsecret
    | ok =>
      cases hbody : Callback.ofBody (r.header? "content-type") r.body with
      | error e => exact .malformed hsome hsecret hbody
      | ok report =>
        cases report with
        | disconnect token reason f => exact .disconnect hsome hsecret hbody
        | connect token f =>
          show Judged b now r supplied ((requestId f.url).bind fun id =>
            .ok (.connect id token f.url (b.settings.auth.subject? now.seconds f.headers)))
          cases hid : requestId f.url with
          | error e => exact .nameless hsome hsecret hbody hid
          | ok id => exact .connect hsome hsecret hbody hid

theorem Judged.status {supplied : Option String} {e : Error}
    (h : Judged b now r supplied (.error e)) : e.status ∈ [400, 401, 404] := by
  cases h with
  | disabled => decide
  | refused _ hsecret => simp [status_checkSecret hsecret]
  | malformed _ _ hbody => simp [status_ofBody hbody]
  | nameless _ _ _ hid => simp [status_requestId hid]

/-- The body is a report, which names a request id if it is that of a connect. -/
def Reads (r : Request) : Prop :=
  ∃ report, Callback.ofBody (r.header? "content-type") r.body = .ok report ∧
    ∀ token f, report = .connect token f → ∃ id, requestId f.url = .ok id

/-- A report is worked in exactly if no check fails. -/
theorem Judged.ok_iff {supplied : Option String} {answer : Except Error Action}
    (h : Judged b now r supplied answer) :
    (∃ action, answer = .ok action) ↔
      b.registry ≠ none ∧
        checkSecret b.settings.production b.settings.callbackSecret supplied = .ok () ∧
        Reads r := by
  cases h with
  | disabled hnone => simp [hnone]
  | refused _ hsecret => simp [hsecret]
  | malformed _ _ hbody => simp [Reads, hbody]
  | nameless _ _ hbody hid => simp [Reads, hbody, hid]
  | connect hsome hsecret hbody hid => simp [Reads, hbody, hid, hsome, hsecret]
  | disconnect hsome hsecret hbody => simp [Reads, hbody, hsome, hsecret]

/-! ## What a callback does -/

structure IsCallback (r : Request) : Prop where
  method : r.method = "POST"
  path : r.path = "/api/sse/callback".toList

theorem IsCallback.action (h : IsCallback r) (b : Board) (now : Moment) :
    b.action now r = b.callbackAction now r := by
  have hroute : Route.ofPath? "/api/sse/callback".toList = some .callback := by decide
  unfold Board.action
  rw [h.path, hroute, h.method]
  simp [Route.methods, Board.routeAction]

/-- What a callback asks for, by the first check that it fails. -/
theorem IsCallback.action_of_query (h : IsCallback r) {supplied : Option String}
    (hquery : suppliedSecret? r.query = some supplied) (b : Board) (now : Moment) :
    ∃ answer, Judged b now r supplied answer ∧ b.action now r = Board.answerOr answer := by
  refine ⟨_, judged b now r supplied, ?_⟩
  rw [h.action, Board.callbackAction, hquery]

/-- Whoever does not have the secret is refused, whatever the body is. -/
theorem IsCallback.action_of_wrong (h : IsCallback r) {supplied : Option String} {e : Error}
    (hsome : b.registry ≠ none) (hquery : suppliedSecret? r.query = some supplied)
    (hwrong : checkSecret b.settings.production b.settings.callbackSecret supplied = .error e) :
    b.action now r = .answer (.ofError e) := by
  obtain ⟨answer, hjudged, haction⟩ := h.action_of_query hquery b now
  rw [haction]
  cases hjudged with
  | disabled hnone => exact absurd hnone hsome
  | refused _ hsecret => rw [Except.error.inj (hsecret.symm.trans hwrong)]; rfl
  | malformed _ hsecret | nameless _ hsecret | connect _ hsecret | disconnect _ hsecret =>
    cases hsecret.symm.trans hwrong

/-- A simulation after a connect was worked in. -/
def connected (s : Simulation) (id token url : String) (subject : Option String) : Simulation :=
  (subject.map (Simulation.bind (s.connect id token url) id)).getD (s.connect id token url)

theorem handle_of_connect {request token url : String} {subject : Option String}
    (h : s.board.action now r = .connect request token url subject) (id : String) :
    s.handle now id r =
      (Board.callbackResponse.sealed r.method, none, connected s request token url subject) := by
  simp only [Simulation.handle, h]
  cases subject <;> rfl

theorem handle_of_disconnect {token : String} (h : s.board.action now r = .disconnect token)
    (id : String) :
    s.handle now id r =
      (Board.callbackResponse.sealed r.method, none, s.disconnect token) := by
  simp only [Simulation.handle, h]

/-- **A connect is worked in by its own moves**, with those of agents between them. -/
theorem board_connected (s : Simulation) (id token url : String) (subject : Option String) :
    ∃ ms ms', (∀ m ∈ ms ++ ms', s.ByAgents m) ∧
      (connected s id token url subject).board =
        s.board.moves (Board.course id token url subject ms ms') := by
  have hconnect := Simulation.works_connect s id token url
  obtain ⟨ms, hms, hboard⟩ := hconnect.board
  have hbefore : ∀ m ∈ ms, s.ByAgents m := hms
  simp only [Board.course, Board.moves_cons, Board.moves_append]
  cases subject with
  | none => exact ⟨ms, [], by simpa using hbefore, hboard⟩
  | some subject =>
    obtain ⟨ms', hms', hbound⟩ := (Simulation.works_withBoard (s.connect id token url)
      ((s.connect id token url).board.bind id subject)).board
    have hlater : ∀ m ∈ ms', s.ByAgents m := fun m hm => hconnect.byAgents_of (hms' m hm)
    refine ⟨ms, ms', List.forall_mem_append.2 ⟨hbefore, hlater⟩, ?_⟩
    rw [← hboard]
    exact hbound

/-- Agents change the connections only if the gateway does not know one. -/
theorem not_ofConnections {m : Move} (hknown : ¬ s.Answers .notFound) (hm : s.ByAgents m) :
    ¬ m.OfConnections := by
  cases m with
  | sent id token event outcome =>
    cases outcome with
    | notFound => exact absurd hm hknown
    | _ => exact fun h => h
  | connect | disconnect | bind => exact hm.elim
  | _ => exact fun h => h

/-- A callback that passed every check is answered with success. -/
theorem Judged.status_handle {supplied : Option String} {action : Action}
    (h : Judged s.board now r supplied (.ok action)) (haction : s.board.action now r = action)
    (id : String) : (s.handle now id r).1.status = 200 := by
  cases h with
  | connect => rw [handle_of_connect haction]; rfl
  | disconnect => rw [handle_of_disconnect haction]; rfl

/-- **A callback is refused and changes nothing, or it passed every check.** -/
theorem IsCallback.handled (h : IsCallback r) (s : Simulation) (now : Moment) (id : String) :
    ((s.handle now id r).1.status ∈ [400, 401, 404] ∧ (s.handle now id r).2 = (none, s)) ∨
      ((s.handle now id r).1.status = 200 ∧ ∃ supplied action,
        suppliedSecret? r.query = some supplied ∧
        Judged s.board now r supplied (.ok action) ∧ s.board.action now r = action) := by
  cases hquery : suppliedSecret? r.query with
  | none =>
    have haction : s.board.action now r =
        .answer (.text 400 "Failed to deserialize query string") := by
      rw [h.action, Board.callbackAction, hquery]
    rw [handle_of_answer haction]
    exact .inl ⟨by simp [Response.text, Response.sealed], rfl⟩
  | some supplied =>
    obtain ⟨answer, hjudged, haction⟩ := h.action_of_query hquery s.board now
    cases answer with
    | error e =>
      rw [handle_of_answer haction]
      exact .inl ⟨hjudged.status, rfl⟩
    | ok action =>
      exact .inr ⟨hjudged.status_handle haction id, supplied, action, rfl, hjudged, haction⟩

/-- What becomes of a callback. -/
structure Reported (s : Simulation) (now : Moment) (id : String) (r : Request) : Prop where
  only : (s.handle now id r).1.status ∈ [200, 400, 401, 404]
  /-- A callback passes if there is a gateway, the secret is right and the body can be read. -/
  ok : (s.handle now id r).1.status = 200 ↔
    ∃ supplied, suppliedSecret? r.query = some supplied ∧ s.board.registry ≠ none ∧
      (s.board.settings.production = true →
        ∃ secret, s.board.settings.callbackSecret = some secret ∧ supplied = some secret) ∧
      Reads r
  /-- A callback that is refused changes nothing. -/
  rejected : (s.handle now id r).1.status ≠ 200 → (s.handle now id r).2 = (none, s)
  /-- In production the secret decides, whatever else was sent. -/
  secret : ∀ supplied, s.board.settings.production = true → s.board.registry ≠ none →
    suppliedSecret? r.query = some supplied →
    (∀ secret, supplied = some secret → s.board.settings.callbackSecret ≠ some secret) →
    (s.handle now id r).1.status = 401 ∧
      ∀ headers body, s.handle now id { r with headers, body } = s.handle now id r
  /-- A connect that is not refused leaves its connection registered. -/
  registered : ∀ token f, Callback.ofBody (r.header? "content-type") r.body =
      .ok (.connect token f) → (s.handle now id r).1.status = 200 →
    ∃ r₀ request, s.board.registry = some r₀ ∧ requestId f.url = .ok request ∧
      -- its own moves, with those of agents between them
      (∃ subject ms ms', (∀ m ∈ ms ++ ms', s.ByAgents m) ∧ (s.handle now id r).2.2.board =
        s.board.moves (Board.course request token f.url subject ms ms')) ∧
      ((∀ o ∈ s.board.connectObservers, Board.Passive o) →
        -- whatever else happens between them and afterwards
        (∀ subject ms ms', (∀ m ∈ ms ++ ms', ¬ m.OfConnections) →
          ∃ r₁, (s.board.moves (Board.course request token f.url subject ms ms')).registry =
            some r₁ ∧ r₀.Registered request token f.url subject r₁) ∧
        -- when it is answered, unless the gateway does not know a connection
        (¬ s.Answers .notFound → ∃ r₁ subject, (s.handle now id r).2.2.board.registry = some r₁ ∧
          r₀.Registered request token f.url subject r₁))

/-- **A callback that is refused changes nothing, the secret comes before the body, and a connection
that is accepted stays registered.** -/
theorem callback_answered (s : Simulation) (now : Moment) (id : String) {r : Request}
    (hcallback : IsCallback r) : Reported s now id r where
  only := by
    rcases hcallback.handled s now id with ⟨hstatus, -⟩ | ⟨hstatus, -⟩
    · exact List.mem_cons_of_mem 200 hstatus
    · simp [hstatus]
  ok := by
    constructor
    · intro hok
      rcases hcallback.handled s now id with
        ⟨hstatus, -⟩ | ⟨-, supplied, action, hquery, hjudged, -⟩
      · rw [hok] at hstatus
        exact absurd hstatus (by decide)
      · obtain ⟨hsome, hsecret, hreads⟩ := hjudged.ok_iff.1 ⟨action, rfl⟩
        exact ⟨supplied, hquery, hsome, checkSecret_eq_ok_iff.1 hsecret, hreads⟩
    · rintro ⟨supplied, hquery, hsome, hsecret, hreads⟩
      obtain ⟨answer, hjudged, haction⟩ := hcallback.action_of_query hquery s.board now
      obtain ⟨action, rfl⟩ :=
        hjudged.ok_iff.2 ⟨hsome, checkSecret_eq_ok_iff.2 hsecret, hreads⟩
      exact hjudged.status_handle haction id
  rejected hne := by
    rcases hcallback.handled s now id with ⟨-, hsame⟩ | ⟨hstatus, -⟩
    · exact hsame
    · exact absurd hstatus hne
  secret supplied hproduction hsome hquery hwrong := by
    obtain ⟨e, he⟩ : ∃ e, checkSecret s.board.settings.production s.board.settings.callbackSecret
        supplied = .error e := by
      cases hcheck : checkSecret s.board.settings.production s.board.settings.callbackSecret
        supplied with
      | error e => exact ⟨e, rfl⟩
      | ok =>
        obtain ⟨secret, hconfigured, hsupplied⟩ := checkSecret_eq_ok_iff.1 hcheck hproduction
        exact absurd hconfigured (hwrong secret hsupplied)
    -- the same for every request with this query
    have hrefused : ∀ r' : Request, IsCallback r' → r'.query = r.query →
        s.handle now id r' = ((Response.ofError e).sealed "POST", none, s) := by
      intro r' hcallback' hsame
      have haction : s.board.action now r' = .answer (.ofError e) :=
        hcallback'.action_of_wrong hsome (hsame ▸ hquery) he
      rw [handle_of_answer haction, hcallback'.method]
    refine ⟨?_, fun headers body => ?_⟩
    · rw [hrefused r hcallback rfl]
      exact status_checkSecret he
    · rw [hrefused r hcallback rfl]
      exact hrefused _ ⟨hcallback.method, hcallback.path⟩ rfl
  registered token f hbody hok := by
    rcases hcallback.handled s now id with ⟨hstatus, -⟩ | ⟨-, supplied, action, -, hjudged, haction⟩
    · rw [hok] at hstatus
      exact absurd hstatus (by decide)
    cases hjudged with
    | disconnect _ _ hbody' => cases hbody'.symm.trans hbody
    | connect hsome _ hbody' hid =>
      cases hbody'.symm.trans hbody
      obtain ⟨r₀, hregistry⟩ := Option.ne_none_iff_exists'.1 hsome
      obtain ⟨ms, ms', hms, hboard⟩ := board_connected s _ token f.url _
      rw [handle_of_connect haction]
      refine ⟨r₀, _, hregistry, hid, ⟨_, ms, ms', hms, hboard⟩, fun hobservers => ⟨?_, ?_⟩⟩
      · exact fun subject _ _ hquiet =>
          Board.registered_course hregistry hobservers _ token f.url subject hquiet
      · intro hknown
        obtain ⟨r₁, hr₁, hregistered⟩ := Board.registered_course hregistry hobservers _ token f.url
          _ fun m hm => not_ofConnections hknown (hms m hm)
        exact ⟨r₁, _, hboard ▸ hr₁, hregistered⟩

/-- A client comes to a dashboard in production, and someone else guesses at the secret. A tab is
restarted before the client's subject is bound; the client stays registered. -/
theorem callback_answered_production :
    let settings : Settings :=
      { transport := .gateway, production := true, callbackSecret := some "s3cret" }
    let tab : Tab := { caption := "web", iconUrl := "/i", frameUrl := "/f" }
    let s : Simulation := { board := .ofCatalog ⟨[tab]⟩ settings, limit := ⟨1000⟩ }
    let url := "/events?request_id=a"
    let report := "\x7b\"action\":\"connect\",\"token\":\"t\",\"request\":\x7b\"url\":\"" ++
      url ++ "\"\x7d\x7d"
    let r (secret : String) : Request :=
      { method := "POST", uri := "/api/sse/callback?secret=" ++ secret
        headers := [("content-type", "application/json")], body := report }
    Reported s ⟨0, 0⟩ "x" (r "s3cret") ∧ Reported s ⟨0, 0⟩ "x" (r "guess") ∧
      (s.handle ⟨0, 0⟩ "x" (r "s3cret")).1.status = 200 ∧
      (s.handle ⟨0, 0⟩ "x" (r "guess")).1.status = 401 ∧
      ∃ r₁, (s.board.moves (Board.course "a" "t" url (some localUser) [.emit 0 .restarting]
          [])).registry = some r₁ ∧ r₁.tokens.get? "t" = some "a" := by
  intro settings tab s url report r
  have hreported : Reported s ⟨0, 0⟩ "x" (r "s3cret") :=
    callback_answered s ⟨0, 0⟩ "x" ⟨rfl, by decide⟩
  have hguess : Reported s ⟨0, 0⟩ "x" (r "guess") :=
    callback_answered s ⟨0, 0⟩ "x" ⟨rfl, by decide⟩
  have hok : (s.handle ⟨0, 0⟩ "x" (r "s3cret")).1.status = 200 := by decide +kernel
  have hquery : suppliedSecret? (r "guess").query = some (some "guess") := by decide +kernel
  have hwrong : ∀ secret, some "guess" = some secret → settings.callbackSecret ≠ some secret := by
    rintro _ ⟨⟩
    decide
  have hbody : Callback.ofBody ((r "s3cret").header? "content-type") (r "s3cret").body =
      .ok (.connect "t" { url }) := by decide +kernel
  have hid : requestId url = .ok "a" := by decide +kernel
  obtain ⟨r₀, request, -, hrequest, -, hregistered⟩ := hreported.registered "t" { url } hbody hok
  cases hrequest.symm.trans hid
  have hobservers : ∀ o ∈ s.board.connectObservers, Board.Passive o :=
    Board.passive_moves ⟨[tab]⟩ settings []
  obtain ⟨r₁, hr₁, hstays⟩ := (hregistered hobservers).1 (some localUser) [.emit 0 .restarting] []
    (by simp [Move.OfConnections])
  refine ⟨hreported, hguess, hok, ?_, r₁, hr₁, hstays.leads⟩
  exact (hguess.secret (some "guess") rfl (by decide) hquery hwrong).1

end Http

end TabBoard
