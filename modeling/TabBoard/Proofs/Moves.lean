import TabBoard.Proofs.Restart.Calls
import TabBoard.Startup.Wiring

/-!
# Everything that can happen to a board

A board is changed by its operations alone, each of which is one indivisible step (`Move`).
Requests, workers, the dispatcher and direct streams make their moves in any order.

* No move changes the tabs, the settings or the observers (`Fixed`). So a board that was wired from
  a catalog stays so (`wired_moves`): the store has one status for each tab of the catalog.
* Only restarts change which deployments are under way (`Beside`).
* When the last deployment is set free, the bell is rung (`Announces`), unless the two steps of
  setting it free are apart.

An operation that calls observers keeps what each of them keeps (`notify_keeps`).
-/

namespace TabBoard

/-- What each handler keeps, all of them keep. -/
theorem notify_keeps {η σ : Type} {keeps : σ → Prop} {run : η → σ → Option Panic × σ}
    {note : Nat → Panic → σ → σ} (hnote : ∀ pos p s, keeps s → keeps (note pos p s)) (pos : Nat)
    {hs : List η} (hrun : ∀ h ∈ hs, ∀ s, keeps s → keeps (run h s).2) {s : σ} (h : keeps s) :
    keeps (notify run note pos hs s).2 := by
  induction hs generalizing pos s with
  | nil => exact h
  | cons η₀ hs ih =>
    rw [List.forall_mem_cons] at hrun
    have hnext := hrun.1 s h
    simp only [notify]
    generalize run η₀ s = answer at hnext
    obtain ⟨_ | p, s'⟩ := answer
    · exact ih (pos + 1) hrun.2 hnext
    · have hnoted := hnote pos p s' hnext
      simp only
      split
      · exact hnoted
      · exact ih (pos + 1) hrun.2 hnoted

namespace Board

/-! ## Moves -/

/-- What can happen to a board in one step. -/
inductive Move where
  | emit (tab : Nat) (status : Status)
  | replay (id : String)
  | subscribe (id : String) (tab : Nat)
  | unsubscribe (id : String)
  | receive (id : String)
  | frames (now : Nat) (stream : EventStream)
  | connect (id token url : String)
  | disconnect (token : String)
  | bind (id subject : String)
  | sent (id token event : String) (outcome : SendOutcome)
  | occupy (tab : Nat) (key : DeploymentKey)
  | publish (tab : Nat) (status : Status) (label : String)
  | remove (key : DeploymentKey)
  | ring (left : Nat)
  /-- The two steps of setting a deployment free, with nothing between them. -/
  | release (key : DeploymentKey)
  | measure (f : Metrics → Metrics)
  | trigger
  | announce
  /-- Someone took what was posted and left this. -/
  | taken (outbox : List (Recipient × Status.Update))
  /-- Someone took what observers noted. -/
  | noted

def step (b : Board) : Move → Board
  | .emit tab status => (b.emit tab status).toOption.getD b
  | .replay id => b.replay id
  | .subscribe id tab => (b.subscribe id tab).toOption.getD b
  | .unsubscribe id => b.unsubscribe id
  | .receive id => (b.receive id).2
  | .frames now stream => (b.frames now stream).2.2
  | .connect id token url => (b.connect id token url).2
  | .disconnect token => b.disconnect token
  | .bind id subject => b.bind id subject
  | .sent id token event outcome => b.sent id token event outcome
  | .occupy tab key => (b.occupy tab key).toOption.getD b
  | .publish tab status label => b.publishOutcome tab status label
  | .remove key => b.remove key
  | .ring left => b.ring left
  | .release key => b.release key
  | .measure f => b.measure f
  | .trigger => { b with shutdown := b.shutdown.trigger.2 }
  | .announce => { b with shutdown := b.shutdown.announce }
  | .taken outbox => { b with store := { b.store with outbox } }
  | .noted => { b with sightings := [] }

def moves (b : Board) (ms : List Move) : Board := ms.foldl step b

variable {b b' b'' : Board} {m : Move} {ms : List Move}

@[simp] theorem moves_nil (b : Board) : b.moves [] = b := rfl

@[simp] theorem moves_cons (b : Board) (m : Move) (ms : List Move) :
    b.moves (m :: ms) = (b.step m).moves ms := rfl

theorem moves_append (b : Board) (ms ms' : List Move) :
    b.moves (ms ++ ms') = (b.moves ms).moves ms' := List.foldl_append

/-! ## What stays -/

/-- What no operation changes. -/
structure Fixed (b b' : Board) : Prop where
  catalog : b'.catalog = b.catalog
  settings : b'.settings = b.settings
  size : b'.store.size = b.store.size
  connectObservers : b'.connectObservers = b.connectObservers
  disconnectObservers : b'.disconnectObservers = b.disconnectObservers

/-- What no operation but those of restarts changes. -/
structure Beside (b b' : Board) : Prop extends Fixed b b' where
  inFlight : b'.inFlight = b.inFlight
  bell : b'.bell = b.bell

theorem Fixed.refl (b : Board) : Fixed b b := ⟨rfl, rfl, rfl, rfl, rfl⟩

theorem Fixed.trans (h : Fixed b b') (h' : Fixed b' b'') : Fixed b b'' :=
  ⟨h'.catalog.trans h.catalog, h'.settings.trans h.settings, h'.size.trans h.size,
    h'.connectObservers.trans h.connectObservers,
    h'.disconnectObservers.trans h.disconnectObservers⟩

theorem Beside.refl (b : Board) : Beside b b := ⟨.refl b, rfl, rfl⟩

theorem Beside.trans (h : Beside b b') (h' : Beside b' b'') : Beside b b'' :=
  ⟨h.toFixed.trans h'.toFixed, h'.inFlight.trans h.inFlight, h'.bell.trans h.bell⟩

/-- Everything else may change, if the store has as many statuses. -/
theorem beside_of (hsize : b'.store.size = b.store.size)
    (h : b' =
      { b with
        store := b'.store, registry := b'.registry, sightings := b'.sightings
        shutdown := b'.shutdown, metrics := b'.metrics }) : Beside b b' := by
  rw [h]
  exact ⟨⟨rfl, rfl, hsize, rfl, rfl⟩, rfl, rfl⟩

theorem beside_emit (b : Board) (tab : Nat) (status : Status) :
    Beside b ((b.emit tab status).toOption.getD b) := by
  unfold Board.emit
  rw [Store.emit_eq]
  split_ifs with htab
  · exact beside_of Store.size_emitted rfl
  · exact .refl b

theorem beside_replay (b : Board) (id : String) : Beside b (b.replay id) :=
  beside_of (congrArg List.length (b.store.statuses_replay id)) rfl

theorem beside_subscribe (b : Board) (id : String) (tab : Nat) :
    Beside b ((b.subscribe id tab).toOption.getD b) := by
  unfold Board.subscribe Store.subscribe
  cases b.store.statuses[tab]? with
  | none => exact .refl b
  | some status => exact beside_of rfl rfl

theorem beside_frames (b : Board) (now : Nat) (stream : EventStream) :
    Beside b (b.frames now stream).2.2 := by
  unfold Board.frames Board.closeStream
  dsimp only
  split_ifs
  · exact beside_of rfl rfl
  · exact beside_of rfl rfl
  · exact beside_of rfl rfl

theorem beside_bind (b : Board) (id subject : String) : Beside b (b.bind id subject) := by
  unfold Board.bind
  split
  · exact beside_of rfl rfl
  · exact beside_of rfl rfl

theorem beside_sent (b : Board) (id token event : String) (outcome : SendOutcome) :
    Beside b (b.sent id token event outcome) := by
  unfold Board.sent
  dsimp only
  split
  · split_ifs
    · exact beside_of rfl rfl
    · exact beside_of rfl rfl
  · exact beside_of rfl rfl

/-- What an observer does, if disconnecting is beside restarts. -/
theorem beside_tell {disconnect : String → Board → Board}
    (hdisconnect : ∀ token b, Beside b (disconnect token b)) (id : String) (o : Observer)
    (b : Board) : Beside b (tell disconnect id o b).2 := by
  cases o with
  | replay => exact beside_replay b id
  | witness number reaction =>
    have hnoted : Beside b { b with sightings := b.sightings ++ [b.sight number id] } :=
      beside_of rfl rfl
    cases reaction with
    | nothing | panic => exact hnoted
    | bind subject => exact hnoted.trans (beside_bind _ id subject)
    | disconnect token => exact hnoted.trans (hdisconnect token _)

theorem beside_notify {disconnect : String → Board → Board}
    (hdisconnect : ∀ token b, Beside b (disconnect token b)) (id : String) (os : List Observer)
    (b : Board) : Beside b (notify (tell disconnect id) (fun _ _ b => b) 0 os b).2 :=
  notify_keeps (fun _ _ _ h => h) 0
    (fun o _ _ h => h.trans (beside_tell hdisconnect id o _)) (.refl b)

theorem beside_disconnectWithin (n : Nat) (token : String) (b : Board) :
    Beside b (disconnectWithin n token b) := by
  induction n generalizing token b with
  | zero => exact .refl b
  | succ n ih =>
    unfold disconnectWithin
    split
    · exact .refl b
    · split
      · refine .trans ?_ (beside_notify ih _ _ _)
        exact beside_of rfl rfl
      · exact beside_of rfl rfl

theorem beside_disconnect (b : Board) (token : String) : Beside b (b.disconnect token) :=
  beside_disconnectWithin _ token b

theorem beside_connect (b : Board) (id token url : String) :
    Beside b (b.connect id token url).2 := by
  unfold Board.connect
  split
  · exact .refl b
  · refine .trans ?_ (beside_notify (fun token b => beside_disconnect b token) _ _ _)
    exact beside_of rfl rfl

theorem beside_publishOutcome (b : Board) (tab : Nat) (status : Status) (label : String) :
    Beside b (b.publishOutcome tab status label) :=
  (beside_emit b tab status).trans (beside_of rfl rfl)

/-! ## Moves of restarts -/

/-- The move changes which deployments are under way, or rings the bell. -/
def Move.OfRestarts : Move → Prop
  | .occupy _ _ | .remove _ | .ring _ | .release _ => True
  | _ => False

/-- **Only restarts change which deployments are under way.** -/
theorem beside_step (b : Board) (hm : ¬ m.OfRestarts) : Beside b (b.step m) := by
  cases m with
  | emit tab status => exact beside_emit b tab status
  | replay id => exact beside_replay b id
  | subscribe id tab => exact beside_subscribe b id tab
  | frames now stream => exact beside_frames b now stream
  | connect id token url => exact beside_connect b id token url
  | disconnect token => exact beside_disconnect b token
  | bind id subject => exact beside_bind b id subject
  | sent id token event outcome => exact beside_sent b id token event outcome
  | publish tab status label => exact beside_publishOutcome b tab status label
  | occupy | remove | ring | release => exact (hm trivial).elim
  | unsubscribe | receive | measure | trigger | announce | taken | noted =>
    exact beside_of rfl rfl

/-- **No move changes the tabs, the settings or the observers.** -/
theorem fixed_step (b : Board) (m : Move) : Fixed b (b.step m) := by
  by_cases hm : m.OfRestarts
  · cases m with
    | occupy tab key =>
      simp only [step, Restarts.occupy_eq]
      split_ifs
      · exact .refl b
      · exact ⟨rfl, rfl, rfl, rfl, rfl⟩
    | remove | ring | release => exact ⟨rfl, rfl, rfl, rfl, rfl⟩
    | _ => exact hm.elim
  · exact (beside_step b hm).toFixed

theorem fixed_moves (b : Board) (ms : List Move) : Fixed b (b.moves ms) := by
  induction ms generalizing b with
  | nil => exact .refl b
  | cons m ms ih => exact (fixed_step b m).trans (ih (b.step m))

/-- The board is wired from a catalog. -/
structure Wired (c : Catalog) (b : Board) : Prop where
  catalog : b.catalog = c
  size : b.store.size = c.size

/-- **A board that was wired from a catalog stays so.** -/
theorem wired_moves (catalog : Catalog) (settings : Settings) (ms : List Move) :
    Wired catalog ((ofCatalog catalog settings).moves ms) := by
  have hfixed := fixed_moves (ofCatalog catalog settings) ms
  refine ⟨hfixed.catalog, hfixed.size.trans ?_⟩
  simp [ofCatalog, Store.ofSize, Store.size]

/-! ## The bell -/

/-- The bell was rung if nothing is under way any more. -/
structure Announces (b b' : Board) : Prop where
  rung : b.bell.rung ≤ b'.bell.rung
  empty : b'.bell.rung = b.bell.rung → b'.inFlight.size = 0 → b.inFlight.size = 0

theorem Announces.refl (b : Board) : Announces b b := ⟨Nat.le_refl _, fun _ h => h⟩

theorem Announces.trans (h : Announces b b') (h' : Announces b' b'') : Announces b b'' := by
  refine ⟨Nat.le_trans h.rung h'.rung, fun hsame hempty => ?_⟩
  have hfirst : b'.bell.rung = b.bell.rung :=
    Nat.le_antisymm (hsame ▸ h'.rung) h.rung
  exact h.empty hfirst (h'.empty (hsame.trans hfirst.symm) hempty)

theorem Beside.announces (h : Beside b b') : Announces b b' :=
  ⟨h.bell ▸ Nat.le_refl _, fun _ hempty => h.inFlight ▸ hempty⟩

/-- **Setting the last deployment free rings the bell**, and nothing else leaves none. -/
theorem announces_step (b : Board) (hm : ∀ key, m ≠ .remove key) : Announces b (b.step m) := by
  by_cases hrestarts : m.OfRestarts
  · cases m with
    | occupy tab key =>
      simp only [step, Restarts.occupy_eq]
      split_ifs
      · exact .refl b
      · exact ⟨Nat.le_refl _, fun _ hempty => absurd hempty (Table.size_insert_ne_zero _ _ _)⟩
    | ring left =>
      refine ⟨?_, fun _ hempty => hempty⟩
      simp only [step, ring, Restart.Bell.after]
      split_ifs
      · exact Nat.le_succ _
      · exact Nat.le_refl _
    | release key =>
      simp only [step, release, ring, Restart.Bell.after]
      split_ifs with hleft
      · exact ⟨Nat.le_succ _, fun hsame => absurd hsame (Nat.succ_ne_self _)⟩
      · exact ⟨Nat.le_refl _, fun _ hempty => absurd hempty hleft⟩
    | remove key => exact absurd rfl (hm key)
    | _ => exact hrestarts.elim
  · exact (beside_step b hrestarts).announces

theorem announces_moves (b : Board) (hms : ∀ m ∈ ms, ∀ key, m ≠ .remove key) :
    Announces b (b.moves ms) := by
  induction ms generalizing b with
  | nil => exact .refl b
  | cons m ms ih =>
    rw [List.forall_mem_cons] at hms
    exact (announces_step b hms.1).trans (ih (b.step m) hms.2)

end Board

end TabBoard
