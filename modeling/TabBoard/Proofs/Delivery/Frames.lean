import TabBoard.Board.Basic
import TabBoard.Proofs.Delivery.Streams
import Mathlib.Data.List.Chain

/-!
# Frames in time

Whoever reads a direct stream looks as soon as there may be something to see: after every frame,
when an update arrives, when a shutdown begins, and when the silence that is counted is over.
Between two looks the reader rests, and only then time passes (`Viewing.resting`). Emissions, the
shutdown and what others do may come at any moment, also between looks at the same moment, and the
reader may look more often than that.

**Theorem (`run_paced`).** The frames that are no heartbeats are the updates of the subscription up
to some point, each once and in order. A heartbeat comes exactly when there was nothing to see for
the whole interval before it, so frames are never further apart than this. From the first look after
a shutdown on there are no more frames (`Paced`).

The stream counts the silence from the last frame (`Kept.clock`): a reader who rests has looked at
that very moment.

**Theorem (`frames_looks`).** The frames of a stream that a board hands out are those of some looks
at one moment.
-/

namespace TabBoard

def Frame.status? : Frame → Option Status
  | .status s => some s
  | .heartbeat => none

namespace Streams

variable {s s' : Streams} {m : Move} {id : String}

/-- Whoever has something waiting receives the first of it. -/
theorem receivedBy_receive (hlive : id ∈ s.live) {u : Status.Update} {us : List Status.Update}
    (hwaiting : s.waiting id = u :: us) :
    (s.step (.receive id)).receivedBy id = s.receivedBy id ++ [u] ∧
      (s.step (.receive id)).waiting id = us := by
  have hmakes := s.makes_step (.receive id)
  generalize s.step (.receive id) = s' at hmakes ⊢
  cases hmakes with
  | nothing hidle =>
    rcases hidle with hgone | hnone
    · exact absurd hlive hgone
    · cases hnone.symm.trans hwaiting
  | receive _ hwaiting' =>
    obtain ⟨rfl, rfl⟩ := List.cons.inj (hwaiting.symm.trans hwaiting')
    exact ⟨by simp [receivedBy], Fanout.queued_withQueue hwaiting us⟩

/-- Only by receiving a subscription receives. -/
theorem Makes.receivedBy_of_ne (h : s.Makes m s') (hm : m ≠ .receive id) :
    s'.receivedBy id = s.receivedBy id := by
  cases h with
  | nothing | emit | subscribe | detach | discard => rfl
  | @receive id' u us hlive hwaiting =>
    have hne : id' ≠ id := fun hid => hm (congrArg Move.receive hid)
    simp [receivedBy, hne]

end Streams

namespace Viewing

inductive Move where
  /-- Something is emitted, or somebody else uses a subscription. -/
  | others (m : Streams.Move)
  | shutdown
  /-- The reader looks at the stream. -/
  | look
  /-- A millisecond passes, if the reader rests. -/
  | tick
  deriving Repr, DecidableEq

end Viewing

/-- A stream that is read, with the store behind it. -/
structure Viewing where
  streams : Streams
  shutdown : Shutdown := {}
  stream : EventStream
  now : Nat := 0
  /-- The frames so far, each with its time. -/
  frames : List (Nat × Frame) := []
  deriving Repr, DecidableEq

namespace Viewing

/-- Someone subscribes to a tab, and reads the stream of this subscription. -/
def opened (streams : Streams) (id : String) (tab heartbeat : Nat) (shutdown : Shutdown)
    (now : Nat) : Viewing where
  streams := streams.step (.subscribe id tab)
  shutdown
  stream := { id, heartbeat, guard := shutdown.guard }
  now

def waiting (v : Viewing) : List Status.Update := v.streams.waiting v.stream.id

/-- There is nothing that the reader has not seen. -/
def resting (v : Viewing) : Bool :=
  v.stream.ended ||
    (!v.shutdown.triggered && v.waiting.isEmpty && v.stream.alarm.any fun due => v.now < due)

/-- What a move leads to. Nobody else uses the subscription while the stream is open. -/
def step (v : Viewing) : Move → Viewing
  | .others m =>
    if m.subscription? = some v.stream.id ∧ v.stream.ended = false then v
    else { v with streams := v.streams.step m }
  | .shutdown => { v with shutdown := v.shutdown.begin }
  | .look =>
    match v.stream.poll v.now v.shutdown v.streams.store.fanout with
    | (.frame (.status status), _, stream) =>
      { v with
        streams := v.streams.step (.receive v.stream.id)
        stream
        frames := v.frames ++ [(v.now, .status status)] }
    | (.frame .heartbeat, _, stream) =>
      { v with stream, frames := v.frames ++ [(v.now, .heartbeat)] }
    | (_, _, stream) => { v with stream }
  | .tick => if v.resting then { v with now := v.now + 1 } else v

def moves (v : Viewing) (ms : List Move) : Viewing := ms.foldl step v

def statuses (v : Viewing) : List Status := v.frames.filterMap (·.2.status?)

def times (v : Viewing) : List Nat := v.frames.map (·.1)

def Move.others? : Move → Option Streams.Move
  | .others m => some m
  | _ => none

/-- What is emitted to a tab by some moves, in order. -/
def emissions (ms : List Move) (tab : Nat) : List Status.Update :=
  Streams.emissions (ms.filterMap (·.others?)) tab

variable {v v' v₀ : Viewing} {m : Move} {ms : List Move} {id : String}
  {tabs tab heartbeat start now : Nat} {external : Bool} {told : List Status.Update}

theorem moves_concat (v : Viewing) (ms : List Move) (m : Move) :
    v.moves (ms ++ [m]) = (v.moves ms).step m := List.foldl_append

theorem emissions_concat (ms : List Move) (m : Move) (tab : Nat) :
    emissions (ms ++ [m]) tab = emissions ms tab ++ emissions [m] tab := by
  simp [emissions, List.filterMap_append, Streams.emissions_append]

theorem resting_iff : v.resting = true ↔ v.stream.ended = true ∨
    (v.shutdown.triggered = false ∧ v.waiting = [] ∧
      ∃ due, v.stream.alarm = some due ∧ v.now < due) := by
  simp [resting, Option.any_eq_true, and_assoc]

/-- Only a look changes the stream, or adds to what was seen. -/
theorem step_of_ne_look (hm : m ≠ .look) :
    (v.step m).stream = v.stream ∧ (v.step m).frames = v.frames := by
  cases m with
  | others m =>
    simp only [step]
    split_ifs <;> exact ⟨rfl, rfl⟩
  | shutdown => exact ⟨rfl, rfl⟩
  | tick =>
    simp only [step]
    split_ifs <;> exact ⟨rfl, rfl⟩
  | look => exact absurd rfl hm

/-! ## Looking -/

/-- What a look makes of a state. -/
inductive Sees (v : Viewing) : Viewing → Prop
  | ended (hended : v.stream.ended = true) : Sees v v
  | shutdown {guard : Shutdown.Guard} (hopen : v.stream.ended = false)
      (hheard : v.stream.guard.poll v.shutdown = (true, guard)) :
      Sees v { v with stream := { v.stream with guard, ended := true } }
  | update {u : Status.Update} {us : List Status.Update} (hopen : v.stream.ended = false)
      (hquiet : (v.stream.guard.poll v.shutdown).1 = false) (hwaiting : v.waiting = u :: us) :
      Sees v { v with
        streams := v.streams.step (.receive v.stream.id)
        stream := { v.stream with alarm := none }
        frames := v.frames ++ [(v.now, .status u.status)] }
  | heartbeat (hopen : v.stream.ended = false)
      (hquiet : (v.stream.guard.poll v.shutdown).1 = false) (hwaiting : v.waiting = [])
      (hdue : v.stream.alarm.getD (v.now + v.stream.heartbeat) ≤ v.now) :
      Sees v { v with
        stream := { v.stream with alarm := none }
        frames := v.frames ++ [(v.now, .heartbeat)] }
  | nothing (hopen : v.stream.ended = false)
      (hquiet : (v.stream.guard.poll v.shutdown).1 = false) (hwaiting : v.waiting = [])
      (hdue : v.now < v.stream.alarm.getD (v.now + v.stream.heartbeat)) :
      Sees v { v with stream :=
        { v.stream with alarm := some (v.stream.alarm.getD (v.now + v.stream.heartbeat)) } }

/-- **Shutdown first, then updates, then the heartbeat.** -/
theorem sees_look (v : Viewing) : v.Sees (v.step .look) := by
  by_cases hended : v.stream.ended = true
  · simp only [step, EventStream.poll, if_pos hended]
    exact .ended hended
  · have hopen : v.stream.ended = false := by simpa using hended
    rcases hguard : v.stream.guard.poll v.shutdown with ⟨_ | _, guard⟩
    · have hquiet : (v.stream.guard.poll v.shutdown).1 = false := by rw [hguard]
      rcases v.streams.store.fanout.take?_cases v.stream.id with ⟨hnone, htake⟩ |
        ⟨u, us, hsome, htake⟩
      · by_cases hdue : v.stream.alarm.getD (v.now + v.stream.heartbeat) ≤ v.now
        · simp only [step, EventStream.poll, if_neg hended, hguard, htake, if_pos hdue]
          exact .heartbeat hopen hquiet hnone hdue
        · simp only [step, EventStream.poll, if_neg hended, hguard, htake, if_neg hdue]
          exact .nothing hopen hquiet hnone (Nat.lt_of_not_le hdue)
      · simp only [step, EventStream.poll, if_neg hended, hguard, htake]
        exact .update hopen hquiet hsome
    · simp only [step, EventStream.poll, if_neg hended, hguard]
      exact .shutdown hopen hguard

theorem id_look (v : Viewing) : (v.step .look).stream.id = v.stream.id := by
  have hsees := sees_look v
  generalize v.step .look = v' at hsees ⊢
  cases hsees <;> rfl

/-! ## Laws of what a look changes -/

/-- When the last frame came, or when the stream was opened. -/
def last (start : Nat) (v : Viewing) : Nat := (start :: v.times).getLast (List.cons_ne_nil _ _)

/-- No two frames that follow each other are further apart than the interval. -/
def Spaced (heartbeat : Nat) (times : List Nat) : Prop :=
  times.IsChain fun a b => a ≤ b ∧ b ≤ a + heartbeat

theorem last_concat {frame : Frame} (h : v'.frames = v.frames ++ [(v.now, frame)]) :
    v'.last start = v.now := by
  simp [last, times, h]

theorem Spaced.concat {frame : Frame} (h : Spaced heartbeat (start :: v.times))
    (hnow : v.last start ≤ v.now ∧ v.now ≤ v.last start + heartbeat)
    (hframes : v'.frames = v.frames ++ [(v.now, frame)]) :
    Spaced heartbeat (start :: v'.times) := by
  have htimes : start :: v'.times = (start :: v.times) ++ [v.now] := by simp [times, hframes]
  rw [htimes]
  refine List.IsChain.append h (List.isChain_singleton _) ?_
  intro a ha b hb
  obtain rfl : v.last start = a := by
    rw [List.getLast?_eq_some_getLast (List.cons_ne_nil _ _)] at ha
    exact Option.some.inj ha
  obtain rfl : v.now = b := by simpa using hb
  exact hnow

theorem statuses_concat {frame : Frame} (h : v'.frames = v.frames ++ [(v.now, frame)]) :
    v'.statuses = v.statuses ++ frame.status?.toList := by
  cases frame <;> simp [statuses, h, Frame.status?]

/-- A guard that missed no announcement hears of the shutdown exactly if it has begun. -/
theorem guard_poll_eq {g : Shutdown.Guard} {s : Shutdown}
    (h : s.triggered = false → s.announced = g.seen) : (g.poll s).1 = s.triggered := by
  unfold Shutdown.Guard.poll
  cases htriggered : s.triggered with
  | true => simp
  | false => simp [h htriggered]

theorem triggered_begin (s : Shutdown) : s.begin.triggered = true := by
  obtain ⟨triggered, announced⟩ := s
  cases triggered <;> rfl

/-! ## What every move keeps -/

/-- What holds of a stream that was opened at the time `start` and was told so much since. -/
structure Kept (tabs : Nat) (id : String) (tab heartbeat start : Nat)
    (told : List Status.Update) (v : Viewing) : Prop where
  streams : v.streams.Sound tabs
  stream : v.stream.id = id ∧ v.stream.heartbeat = heartbeat
  follows : v.stream.ended = false → Streams.Follows id tab told v.streams ∧
    v.statuses = (v.streams.receivedBy id).map (·.status)
  shown : v.statuses <+: told.map (·.status)
  guard : v.shutdown.triggered = false → v.shutdown.announced = v.stream.guard.seen
  ended : v.stream.ended = true → v.shutdown.triggered = true
  /-- The silence is counted from the last frame, and no longer than the interval. -/
  clock : v.stream.ended = false → (v.last start ≤ v.now ∧ v.now ≤ v.last start + heartbeat) ∧
    v.stream.alarm.getD (v.now + heartbeat) = v.last start + heartbeat
  times : Spaced heartbeat (start :: v.times)

theorem Kept.quiet (h : Kept tabs id tab heartbeat start told v) :
    (v.stream.guard.poll v.shutdown).1 = v.shutdown.triggered := guard_poll_eq h.guard

/-- **A frame keeps it**, if it shows what was received. The silence is counted anew. -/
theorem Kept.frame {streams : Streams} {frame : Frame}
    (h : Kept tabs id tab heartbeat start told v) (hopen : v.stream.ended = false)
    (hsound : streams.Sound tabs) (hfollows : Streams.Follows id tab told streams)
    (hreceived : v.statuses ++ frame.status?.toList =
      (streams.receivedBy id).map (·.status)) :
    Kept tabs id tab heartbeat start told { v with
      streams
      stream := { v.stream with alarm := none }
      frames := v.frames ++ [(v.now, frame)] } := by
  let v' : Viewing := { v with
    streams, stream := { v.stream with alarm := none }, frames := v.frames ++ [(v.now, frame)] }
  have hstatuses : v'.statuses = (streams.receivedBy id).map (·.status) :=
    (statuses_concat rfl).trans hreceived
  have hlast : v'.last start = v.now := last_concat rfl
  refine ⟨hsound, h.stream, fun _ => ⟨hfollows, hstatuses⟩, ?shown, h.guard, h.ended, ?clock,
    h.times.concat (h.clock hopen).1 rfl⟩
  case shown =>
    refine hstatuses ▸ ⟨(streams.waiting id).map (·.status), ?_⟩
    rw [← hfollows.told, List.map_append]
  case clock =>
    intro _
    show (v'.last start ≤ v.now ∧ v.now ≤ v'.last start + heartbeat) ∧ _ = v'.last start + heartbeat
    rw [hlast]
    exact ⟨⟨Nat.le_refl _, Nat.le_add_right _ _⟩, rfl⟩

theorem Kept.look (h : Kept tabs id tab heartbeat start told v) (htab : tab < tabs) :
    Kept tabs id tab heartbeat start told (v.step .look) := by
  obtain ⟨hid, hheartbeat⟩ := h.stream
  have hsees := sees_look v
  generalize v.step .look = v' at hsees ⊢
  cases hsees with
  | ended => exact h
  | shutdown hopen hheard =>
    have htriggered : v.shutdown.triggered = true := by rw [← h.quiet, hheard]
    refine ⟨h.streams, h.stream, by simp, h.shown, ?_, fun _ => htriggered, by simp, h.times⟩
    intro huntriggered
    cases htriggered.symm.trans huntriggered
  | @update u us hopen hquiet hwaiting =>
    obtain ⟨hfollows, hstatuses⟩ := h.follows hopen
    have hfirst : v.streams.waiting id = u :: us := by
      rw [← hid]
      exact hwaiting
    obtain ⟨hreceived, -⟩ := Streams.receivedBy_receive (hfollows.live h.streams) hfirst
    have hmakes := hfollows.makes h.streams htab
      (v.streams.makes_step (.receive id)) Streams.Move.noConfusion
    rw [hid]
    refine h.frame hopen (h.streams.step _) ?_ ?_
    · rwa [show Streams.emissions [.receive id] tab = [] from rfl, List.append_nil] at hmakes
    · rw [hreceived, hstatuses, List.map_append]
      rfl
  | heartbeat hopen =>
    obtain ⟨hfollows, hstatuses⟩ := h.follows hopen
    exact h.frame hopen h.streams hfollows (by simpa [Frame.status?] using hstatuses)
  | nothing hopen hquiet hwaiting hdue =>
    refine ⟨h.streams, h.stream, h.follows, h.shown, h.guard, h.ended, fun _ => ?_, h.times⟩
    rw [hheartbeat]
    exact h.clock hopen

/-- **What others do keeps it**, and adds to what the subscription is told. -/
theorem Kept.others (h : Kept tabs id tab heartbeat start told v) (htab : tab < tabs)
    (m : Streams.Move) :
    Kept tabs id tab heartbeat start (told ++ Streams.emissions [m] tab) (v.step (.others m)) := by
  simp only [step, h.stream.1]
  split_ifs with hown
  · have hnone : Streams.emissions [m] tab = [] := by
      cases m with
      | emit => cases hown.1
      | subscribe | receive | detach | discard => rfl
    rwa [hnone, List.append_nil]
  · have hshown : v.statuses <+: (told ++ Streams.emissions [m] tab).map (·.status) := by
      rw [List.map_append]
      exact h.shown.trans (List.prefix_append _ _)
    refine ⟨h.streams.step m, h.stream, fun hopen => ?_, hshown, h.guard, h.ended, h.clock,
      h.times⟩
    obtain ⟨hfollows, hstatuses⟩ := h.follows hopen
    have hother : m.subscription? ≠ some id := fun hm => hown ⟨hm, hopen⟩
    have hmakes := v.streams.makes_step m
    refine ⟨hfollows.makes h.streams htab hmakes fun hm => hother (hm ▸ rfl), ?_⟩
    rw [hmakes.receivedBy_of_ne fun hm => hother (hm ▸ rfl)]
    exact hstatuses

theorem Kept.step (h : Kept tabs id tab heartbeat start told v) (htab : tab < tabs) (m : Move) :
    Kept tabs id tab heartbeat start (told ++ emissions [m] tab) (v.step m) := by
  have hnone : m.others? = none → told ++ emissions [m] tab = told := by
    intro hm
    simp [emissions, hm, Streams.emissions]
  cases m with
  | others m => exact h.others htab m
  | look =>
    rw [hnone rfl]
    exact h.look htab
  | shutdown =>
    rw [hnone rfl]
    have htriggered := triggered_begin v.shutdown
    refine ⟨h.streams, h.stream, h.follows, h.shown, fun huntriggered => ?_, fun _ => htriggered,
      h.clock, h.times⟩
    cases htriggered.symm.trans huntriggered
  | tick =>
    rw [hnone rfl]
    simp only [Viewing.step]
    split_ifs with hresting
    · refine ⟨h.streams, h.stream, h.follows, h.shown, h.guard, h.ended, fun hopen => ?_, h.times⟩
      obtain ⟨⟨hle, hnow⟩, hdue⟩ := h.clock hopen
      have hended : v.stream.ended ≠ true := Bool.eq_false_iff.1 hopen
      obtain ⟨-, -, due, halarm, hbefore⟩ := (resting_iff.1 hresting).resolve_left hended
      rw [halarm, Option.getD_some] at hdue
      show (v.last start ≤ v.now + 1 ∧ v.now + 1 ≤ v.last start + heartbeat) ∧
        v.stream.alarm.getD (v.now + 1 + heartbeat) = v.last start + heartbeat
      rw [halarm, Option.getD_some]
      omega
    · exact h

/-- **A stream that was opened keeps to its tab and its interval**, whatever happens. -/
theorem kept_moves {s : Streams} (hs : s.Sound tabs) (hnew : id ∉ s.used) {first : Status}
    (hfirst : s.store.statuses[tab]? = some first) (heartbeat : Nat) (shutdown : Shutdown)
    (now : Nat) (ms : List Move) :
    Kept tabs id tab heartbeat now (⟨tab, first⟩ :: emissions ms tab)
      ((opened s id tab heartbeat shutdown now).moves ms) := by
  have htab : tab < tabs := hs.size ▸ (List.getElem?_eq_some_iff.1 hfirst).1
  induction ms using List.reverseRecOn with
  | nil =>
    have hfollows := Streams.follows_subscribe hs hnew hfirst
    have hnothing : (s.step (.subscribe id tab)).receivedBy id = [] :=
      ((s.makes_step _).receivedBy_of_ne Streams.Move.noConfusion).trans (hs.receivedBy_unused hnew)
    refine ⟨hs.step (.subscribe id tab), ⟨rfl, rfl⟩, fun _ => ⟨hfollows, ?_⟩, List.nil_prefix,
      fun _ => rfl, by simp [opened, moves], ?_, List.isChain_singleton _⟩
    · exact (congrArg (List.map (·.status)) hnothing).symm
    · exact fun _ => ⟨⟨Nat.le_refl _, Nat.le_add_right _ _⟩, rfl⟩
  | append_singleton ms m ih =>
    rw [moves_concat, emissions_concat, ← List.cons_append]
    exact ih.step htab m

/-! ## Silence -/

/-- Nothing waited and no frame came since a moment that was the whole interval before `due`. -/
def Silent (v₀ : Viewing) (ms : List Move) (due : Nat) : Prop :=
  ∃ before between, ms = before ++ between ∧
    (v₀.moves before).now + v₀.stream.heartbeat = due ∧
    ∀ done rest, between = done ++ rest → (v₀.moves (before ++ done)).waiting = [] ∧
      (v₀.moves (before ++ done)).frames = (v₀.moves ms).frames

theorem silent_now (hwaiting : (v₀.moves ms).waiting = []) :
    Silent v₀ ms ((v₀.moves ms).now + v₀.stream.heartbeat) := by
  refine ⟨ms, [], (List.append_nil ms).symm, rfl, fun done rest hsplit => ?_⟩
  obtain ⟨rfl, -⟩ := List.append_eq_nil_iff.1 hsplit.symm
  rw [List.append_nil]
  exact ⟨hwaiting, rfl⟩

theorem Silent.concat {due : Nat} (h : Silent v₀ ms due)
    (hwaiting : (v₀.moves (ms ++ [m])).waiting = [])
    (hframes : (v₀.moves (ms ++ [m])).frames = (v₀.moves ms).frames) :
    Silent v₀ (ms ++ [m]) due := by
  obtain ⟨before, between, rfl, hdue, hsilent⟩ := h
  refine ⟨before, between ++ [m], List.append_assoc _ _ _, hdue, fun done rest hsplit => ?_⟩
  rw [hframes]
  rcases List.append_eq_append_iff.1 hsplit with ⟨more, rfl, hlast⟩ | ⟨more, rfl, -⟩
  · cases more with
    | nil =>
      rw [List.append_nil]
      exact hsilent between [] (List.append_nil _).symm
    | cons m' more =>
      obtain ⟨rfl, hnil⟩ := List.cons.inj hlast
      obtain ⟨rfl, -⟩ := List.append_eq_nil_iff.1 hnil.symm
      rw [← List.append_assoc]
      exact ⟨hwaiting, hframes⟩
  · exact hsilent done more rfl

/-- What others do takes nothing away that waits. -/
theorem Kept.waiting_others (h : Kept tabs id tab heartbeat start told v) (htab : tab < tabs)
    (hopen : v.stream.ended = false) (m : Streams.Move)
    (hnone : (v.step (.others m)).waiting = []) : v.waiting = [] := by
  have hnext := h.others htab m
  have hwaiting : (v.step (.others m)).waiting = (v.step (.others m)).streams.waiting id := by
    rw [waiting, hnext.stream.1]
  obtain ⟨hstream, hframes⟩ :=
    step_of_ne_look (v := v) (m := .others m) Move.noConfusion
  have hshown : (v.step (.others m)).statuses = v.statuses := by rw [statuses, hframes, statuses]
  obtain ⟨hfollows, hstatuses⟩ := h.follows hopen
  obtain ⟨hfollows', hstatuses'⟩ := hnext.follows (hstream ▸ hopen)
  have hreceived := congrArg List.length (hstatuses'.symm.trans (hshown.trans hstatuses))
  have htold := congrArg List.length hfollows'.told
  rw [← hfollows.told, ← hwaiting, hnone] at htold
  rw [waiting, h.stream.1]
  simp only [List.length_map, List.length_append, List.length_nil] at hreceived htold
  exact List.eq_nil_of_length_eq_zero (by omega)

/-- A look that leaves the alarm set saw nothing. If the alarm was not set before, the silence
begins with this look. -/
theorem of_alarm {due : Nat} (hopen : (v.step .look).stream.ended = false)
    (halarm : (v.step .look).stream.alarm = some due) :
    v.waiting = [] ∧ (v.step .look).frames = v.frames ∧
      ((v.step .look).stream = v.stream ∨ due = (v.step .look).now + v.stream.heartbeat) := by
  have hsees := sees_look v
  generalize v.step .look = v' at hsees hopen halarm ⊢
  cases hsees with
  | ended hended => cases hended.symm.trans hopen
  | shutdown => cases hopen
  | update | heartbeat => cases halarm
  | nothing hopen' hquiet hwaiting hdue =>
    refine ⟨hwaiting, rfl, ?_⟩
    cases hset : v.stream.alarm with
    | some due' => exact .inl (congrArg (fun alarm => { v.stream with alarm }) hset.symm)
    | none =>
      rw [hset] at halarm
      exact .inr (Option.some.inj halarm).symm

/-- **While the alarm is set and nothing waits, it has been silent** since the alarm was set. -/
theorem silent_moves {s : Streams} (hs : s.Sound tabs) (hnew : id ∉ s.used) {first : Status}
    (hfirst : s.store.statuses[tab]? = some first) (heartbeat : Nat) (shutdown : Shutdown)
    (now : Nat) (ms : List Move) {due : Nat} :
    let v₀ := opened s id tab heartbeat shutdown now
    (v₀.moves ms).stream.ended = false → (v₀.moves ms).stream.alarm = some due →
      (v₀.moves ms).waiting = [] → Silent v₀ ms due := by
  intro v₀
  have htab : tab < tabs := hs.size ▸ (List.getElem?_eq_some_iff.1 hfirst).1
  induction ms using List.reverseRecOn generalizing due with
  | nil =>
    intro _ halarm _
    cases halarm
  | append_singleton ms m ih =>
    intro hopen halarm hwaiting
    have hkept : Kept tabs id tab heartbeat now _ (v₀.moves ms) :=
      kept_moves hs hnew hfirst heartbeat shutdown now ms
    have hnow : (v₀.moves (ms ++ [m])).waiting = [] := hwaiting
    -- a move that leaves the stream and its frames as they are goes on with the silence
    have hsame : ((v₀.moves ms).step m).stream = (v₀.moves ms).stream →
        ((v₀.moves ms).step m).frames = (v₀.moves ms).frames →
        (v₀.moves ms).waiting = [] → Silent v₀ (ms ++ [m]) due := by
      intro hstream hframes hbefore
      rw [moves_concat, hstream] at hopen halarm
      exact (ih hopen halarm hbefore).concat hnow (moves_concat v₀ ms m ▸ hframes)
    rw [moves_concat] at hopen halarm hwaiting
    by_cases hm : m = .look
    · subst hm
      obtain ⟨hbefore, hframes, hstream | hdue⟩ := of_alarm hopen halarm
      · exact hsame hstream hframes hbefore
      · rw [hdue, hkept.stream.2, ← moves_concat]
        exact silent_now hnow
    · obtain ⟨hstream, hframes⟩ := step_of_ne_look (v := v₀.moves ms) hm
      refine hsame hstream hframes ?_
      cases m with
      | others m => exact hkept.waiting_others htab (hstream ▸ hopen) m hwaiting
      | shutdown => exact hwaiting
      | tick =>
        simp only [step] at hwaiting
        split_ifs at hwaiting <;> exact hwaiting
      | look => exact absurd rfl hm

/-! ## Frames in time -/

/-- What holds of the state `v` that some moves lead to from the opening `v₀` of a stream. -/
structure Paced (v₀ : Viewing) (tab : Nat) (first : Status) (ms : List Move) (v : Viewing) :
    Prop where
  /-- What was shown is the status that the tab had and what was emitted to it since, up to some
  point; while the stream is open, the rest waits. -/
  shown : v.statuses <+: first :: (emissions ms tab).map (·.status)
  followed : v.stream.ended = false →
    v.statuses ++ v.waiting.map (·.status) = first :: (emissions ms tab).map (·.status)
  /-- A heartbeat comes after an interval in which nothing waited and no frame came. -/
  silent : (v.step .look).frames = v.frames ++ [(v.now, .heartbeat)] → Silent v₀ ms v.now
  /-- Frames come no further apart than the interval, nor has the last one been longer ago. -/
  spaced : Spaced v₀.stream.heartbeat (v₀.now :: v.times)
  recent : v.stream.ended = false → v.now ≤ v.last v₀.now + v₀.stream.heartbeat
  /-- The stream ends at the first look after a shutdown, and not before. -/
  ends : v.shutdown.triggered = true → (v.step .look).stream.ended = true ∧
    ∀ ms', ((v.step .look).moves ms').frames = v.frames
  lasts : v.shutdown.triggered = false → v.stream.ended = false
  /-- The reader rests after some looks, so time does pass. -/
  rests : 0 < v₀.stream.heartbeat →
    ∃ n, (v.moves (List.replicate n .look)).resting = true

/-- A stream that ended shows nothing any more. -/
theorem frames_of_ended (hended : v.stream.ended = true) (ms : List Move) :
    (v.moves ms).frames = v.frames := by
  induction ms generalizing v with
  | nil => rfl
  | cons m ms ih =>
    have hstep : (v.step m).stream.ended = true ∧ (v.step m).frames = v.frames := by
      by_cases hm : m = .look
      · subst hm
        have hsees := sees_look v
        generalize v.step .look = v' at hsees ⊢
        cases hsees with
        | ended => exact ⟨hended, rfl⟩
        | shutdown hopen | update hopen | heartbeat hopen | nothing hopen =>
          cases hended.symm.trans hopen
      · obtain ⟨hstream, hframes⟩ := step_of_ne_look (v := v) hm
        exact ⟨hstream ▸ hended, hframes⟩
    exact (ih hstep.1).trans hstep.2

/-- **A look after the shutdown ends the stream**, whatever waits. -/
theorem Kept.ends (h : Kept tabs id tab heartbeat start told v)
    (htriggered : v.shutdown.triggered = true) :
    (v.step .look).stream.ended = true ∧ (v.step .look).frames = v.frames := by
  have hsees := sees_look v
  have hheard := h.quiet.trans htriggered
  generalize v.step .look = v' at hsees ⊢
  cases hsees with
  | ended hended => exact ⟨hended, rfl⟩
  | shutdown => exact ⟨rfl, rfl⟩
  | update _ hquiet | heartbeat _ hquiet | nothing _ hquiet => cases hheard.symm.trans hquiet

/-- A heartbeat comes when nothing waits and the alarm is due. -/
theorem of_heartbeat (h : (v.step .look).frames = v.frames ++ [(v.now, .heartbeat)]) :
    v.stream.ended = false ∧ v.waiting = [] ∧
      v.stream.alarm.getD (v.now + v.stream.heartbeat) ≤ v.now := by
  have hsees := sees_look v
  generalize v.step .look = v' at hsees h
  cases hsees with
  | ended | shutdown | nothing => simp at h
  | update => simp at h
  | heartbeat hopen _ hwaiting hdue => exact ⟨hopen, hwaiting, hdue⟩

theorem resting_of_ended (hended : v.stream.ended = true) : v.resting = true :=
  resting_iff.2 (.inl hended)

/-- Whoever has seen everything rests after a look, or sees a heartbeat. -/
theorem Kept.resting_look (h : Kept tabs id tab heartbeat start told v)
    (hwaiting : v.waiting = []) :
    (v.step .look).resting = true ∨
      ((v.step .look).stream.alarm = none ∧ (v.step .look).waiting = [] ∧
        v.stream.alarm.getD (v.now + heartbeat) ≤ v.now) := by
  have hsees := sees_look v
  generalize v.step .look = v' at hsees ⊢
  cases hsees with
  | ended hended => exact .inl (resting_of_ended hended)
  | shutdown => exact .inl (resting_of_ended rfl)
  | update _ _ hsome => cases hwaiting.symm.trans hsome
  | heartbeat _ _ _ hdue => exact .inr ⟨rfl, hwaiting, h.stream.2 ▸ hdue⟩
  | nothing _ hquiet _ hdue =>
    exact .inl (resting_iff.2 (.inr ⟨h.quiet.symm.trans hquiet, hwaiting, _, rfl, hdue⟩))

/-- **A reader rests after some looks**, since each takes something that waits, or is a heartbeat
that is followed by none at the same moment. -/
theorem Kept.exists_resting (h : Kept tabs id tab heartbeat start told v) (htab : tab < tabs)
    (hheartbeat : 0 < heartbeat) : ∃ n, (v.moves (List.replicate n .look)).resting = true := by
  generalize hleft : v.waiting = left
  induction left generalizing v with
  | nil =>
    rcases h.resting_look hleft with hresting | ⟨halarm, hwaiting, -⟩
    · exact ⟨1, hresting⟩
    · rcases (h.look htab).resting_look hwaiting with hresting | ⟨-, -, hdue⟩
      · exact ⟨2, hresting⟩
      · rw [halarm, Option.getD_none] at hdue
        omega
  | cons u us ih =>
    have hkept := h.look htab
    have hsees := sees_look v
    generalize hlook : v.step .look = v' at hsees hkept
    have hnext : (∃ n, (v'.moves (List.replicate n .look)).resting = true) →
        ∃ n, (v.moves (List.replicate n .look)).resting = true := by
      rintro ⟨n, hresting⟩
      exact ⟨n + 1, by rwa [List.replicate_succ, moves, List.foldl_cons, hlook]⟩
    cases hsees with
    | ended hended => exact ⟨0, resting_of_ended hended⟩
    | shutdown => exact hnext ⟨0, resting_of_ended rfl⟩
    | @update _ us' hopen hquiet hwaiting =>
      refine hnext (ih hkept ?_)
      obtain ⟨hfollows, -⟩ := h.follows hopen
      obtain ⟨rfl, rfl⟩ := List.cons.inj (hwaiting.symm.trans hleft)
      have hlive : v.stream.id ∈ v.streams.live := h.stream.1 ▸ hfollows.live h.streams
      exact (Streams.receivedBy_receive hlive hwaiting).2
    | heartbeat _ _ hnone | nothing _ _ hnone => cases hnone.symm.trans hleft

/-- **The frames of a stream are paced**, whatever is emitted and whenever the shutdown comes. -/
theorem run_paced (tabs : Nat) (external : Bool) (before : List Streams.Move) {id : String}
    {tab : Nat} (heartbeat : Nat) (shutdown : Shutdown) (now : Nat) (ms : List Move)
    (hnew : id ∉ (Streams.run tabs external before).used) (htab : tab < tabs) :
    let s := Streams.run tabs external before
    let v₀ := opened s id tab heartbeat shutdown now
    ∃ first, s.store.current tab = .ok first ∧ Paced v₀ tab first ms (v₀.moves ms) := by
  intro s v₀
  have hs : s.Sound tabs := Streams.sound_run tabs external before
  have hfirst := Streams.statuses_run tabs external before htab
  have hkept : Kept tabs id tab heartbeat now _ (v₀.moves ms) :=
    kept_moves hs hnew hfirst heartbeat shutdown now ms
  refine ⟨_, Store.current_eq_ok_iff.2 hfirst, hkept.shown, ?followed, ?silent, hkept.times,
    fun hopen => (hkept.clock hopen).1.2, ?ends, ?lasts, hkept.exists_resting htab⟩
  case followed =>
    intro hopen
    obtain ⟨hfollows, hstatuses⟩ := hkept.follows hopen
    rw [hstatuses, waiting, hkept.stream.1, ← List.map_append, hfollows.told]
    rfl
  case silent =>
    intro hframes
    obtain ⟨hopen, hwaiting, hdue⟩ := of_heartbeat hframes
    rw [hkept.stream.2] at hdue
    obtain ⟨⟨-, hnow⟩, halarm⟩ := hkept.clock hopen
    have hsame : (v₀.moves ms).stream.alarm.getD ((v₀.moves ms).now + heartbeat) =
        (v₀.moves ms).now := by omega
    cases hset : (v₀.moves ms).stream.alarm with
    | some due =>
      rw [hset, Option.getD_some] at hsame
      exact silent_moves hs hnew hfirst heartbeat shutdown now ms hopen (hsame ▸ hset) hwaiting
    | none =>
      rw [hset, Option.getD_none] at hsame
      have hsilent := silent_now hwaiting
      rwa [show v₀.stream.heartbeat = heartbeat from rfl, hsame] at hsilent
  case ends =>
    intro htriggered
    obtain ⟨hended, hframes⟩ := hkept.ends htriggered
    exact ⟨hended, fun ms' => (frames_of_ended hended ms').trans hframes⟩
  case lasts =>
    intro huntriggered
    rw [← Bool.not_eq_true]
    intro hended
    cases (hkept.ended hended).symm.trans huntriggered

/-- A tab is watched from 5 ms on. It goes on to run after a millisecond, and the silence of two
more ends with a heartbeat. When the shutdown begins, something still waits. -/
theorem run_paced_shutdown :
    let s := Streams.run 1 false [.emit 0 .restarting]
    let v₀ := opened s "a" 0 2 {} 5
    let ms : List Move := [.look, .look, .tick, .others (.emit 0 .running), .look, .look, .tick,
      .tick, .tick, .look, .look, .others (.emit 0 (.error "x")), .shutdown, .look, .tick]
    let v := v₀.moves ms
    "a" ∉ s.used ∧ 0 < 1 ∧ (∃ first, s.store.current 0 = .ok first ∧ Paced v₀ 0 first ms v) ∧
      v.frames = [(5, .status .restarting), (6, .status .running), (8, .heartbeat)] ∧
      v.waiting = [⟨0, .error "x"⟩] ∧ v.stream.ended = true := by
  intro s v₀ ms v
  have hnew : "a" ∉ s.used := by decide
  exact ⟨hnew, by decide,
    run_paced 1 false [.emit 0 .restarting] 2 {} 5 ms hnew (by decide), by decide⟩

/-! ## Streams of a board -/

/-- A poll takes out what it shows, and nothing else. -/
theorem fanout_poll {shutdown : Shutdown} {f f' : Fanout} {s s' : EventStream}
    {glance : EventStream.Glance} (h : s.poll now shutdown f = (glance, f', s')) :
    (∃ status u, glance = .frame (.status status) ∧ f.take? s.id = (some u, f')) ∨
      ((∀ status, glance ≠ .frame (.status status)) ∧ f' = f) := by
  unfold EventStream.poll at h
  split_ifs at h
  · cases h
    exact .inr ⟨by simp, rfl⟩
  · split at h
    · cases h
      exact .inr ⟨by simp, rfl⟩
    · split at h
      · rename_i u fanout htake
        cases h
        exact .inl ⟨u.status, u, rfl, htake⟩
      · dsimp only at h
        split_ifs at h
        · cases h
          exact .inr ⟨by simp, rfl⟩
        · cases h
          exact .inr ⟨by simp, rfl⟩

/-- The reader is as far as someone who did the same to the stream. -/
structure Meets (v : Viewing) (fanout : Fanout) (stream : EventStream) (v' : Viewing) : Prop where
  stream : v'.stream = stream
  fanout : v'.streams.store.fanout = fanout
  live : v'.streams.live = v.streams.live
  now : v'.now = v.now
  shutdown : v'.shutdown = v.shutdown

/-- What a look that found this adds to the frames. -/
def seen (now : Nat) : EventStream.Glance → List (Nat × Frame)
  | .frame f => [(now, f)]
  | .nothing | .ended => []

/-- **A look is a poll of the stream.** -/
theorem meets_look (hlive : v.stream.id ∈ v.streams.live) {glance : EventStream.Glance}
    {fanout : Fanout} {stream : EventStream}
    (hpoll : v.stream.poll v.now v.shutdown v.streams.store.fanout = (glance, fanout, stream)) :
    Meets v fanout stream (v.step .look) ∧
      (v.step .look).frames = v.frames ++ seen v.now glance := by
  rcases fanout_poll hpoll with ⟨status, u, rfl, htake⟩ | ⟨hglance, rfl⟩
  · simp only [step, hpoll, Streams.step, if_pos hlive, htake]
    exact ⟨⟨rfl, rfl, rfl, rfl, rfl⟩, rfl⟩
  · simp only [step, hpoll]
    cases glance with
    | frame f =>
      cases f with
      | status status => exact absurd rfl (hglance status)
      | heartbeat => exact ⟨⟨rfl, rfl, rfl, rfl, rfl⟩, rfl⟩
    | nothing | ended => exact ⟨⟨rfl, rfl, rfl, rfl, rfl⟩, (List.append_nil _).symm⟩

/-- Looking until there is nothing more to see is some looks. -/
theorem drain_looks (looks : Nat) (v : Viewing) (hlive : v.stream.id ∈ v.streams.live)
    {fs : List Frame} {fanout : Fanout} {stream : EventStream}
    (hdrain : v.stream.drain v.now v.shutdown looks v.streams.store.fanout =
      (fs, fanout, stream)) :
    ∃ n, Meets v fanout stream (v.moves (List.replicate n .look)) ∧
      (v.moves (List.replicate n .look)).frames = v.frames ++ fs.map fun f => (v.now, f) := by
  induction looks generalizing v fs with
  | zero =>
    cases hdrain
    exact ⟨0, ⟨rfl, rfl, rfl, rfl, rfl⟩, (List.append_nil _).symm⟩
  | succ looks ih =>
    simp only [EventStream.drain] at hdrain
    rcases hpoll : v.stream.poll v.now v.shutdown v.streams.store.fanout with ⟨glance, f', s'⟩
    obtain ⟨hmeets, hframes⟩ := meets_look hlive hpoll
    rw [hpoll] at hdrain
    cases glance with
    | nothing | ended =>
      cases hdrain
      exact ⟨1, hmeets, hframes⟩
    | frame f =>
      dsimp only at hdrain
      rcases hrest : s'.drain v.now v.shutdown looks f' with ⟨fs', fanout', stream'⟩
      rw [hrest] at hdrain
      cases hdrain
      -- the rest is drained from where the look got to
      have hlive' : (v.step .look).stream.id ∈ (v.step .look).streams.live := by
        rw [hmeets.live, id_look]
        exact hlive
      rw [← hmeets.stream, ← hmeets.fanout, ← hmeets.now, ← hmeets.shutdown] at hrest
      obtain ⟨n, hmeets', hframes'⟩ := ih (v.step .look) hlive' hrest
      refine ⟨n + 1, ⟨hmeets'.stream, hmeets'.fanout, hmeets'.live.trans hmeets.live,
        hmeets'.now.trans hmeets.now, hmeets'.shutdown.trans hmeets.shutdown⟩, ?_⟩
      refine hframes'.trans ?_
      rw [hframes, hmeets.now, List.append_assoc]
      rfl

/-- **What a board hands out of a stream is what some looks see.** -/
theorem frames_looks {b : Board} (hlive : v.stream.id ∈ v.streams.live)
    (hfanout : b.store.fanout = v.streams.store.fanout) (hshutdown : b.shutdown = v.shutdown) :
    ∃ n, (v.moves (List.replicate n .look)).frames =
        v.frames ++ (b.frames v.now v.stream).1.map (fun f => (v.now, f)) ∧
      (v.moves (List.replicate n .look)).stream = (b.frames v.now v.stream).2.1 := by
  let waiting := ((b.store.fanout.inbox? v.stream.id).map (·.queue.length)).getD 0
  rcases hdrain : v.stream.drain v.now b.shutdown (waiting + 2) b.store.fanout with
    ⟨fs, fanout, stream⟩
  have hframes : (b.frames v.now v.stream).1 = fs ∧ (b.frames v.now v.stream).2.1 = stream := by
    simp only [Board.frames]
    rw [hdrain]
    exact ⟨rfl, rfl⟩
  rw [hfanout, hshutdown] at hdrain
  obtain ⟨n, hmeets, hseen⟩ := drain_looks (waiting + 2) v hlive hdrain
  exact ⟨n, hframes.1 ▸ hseen, hmeets.stream.trans hframes.2.symm⟩

end Viewing

end TabBoard
