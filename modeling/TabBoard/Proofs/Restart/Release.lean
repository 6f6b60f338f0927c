import TabBoard.Proofs.Restart.Exclusion
import TabBoard.Restart.WatchGuard

/-!
# Watches are released once

**Theorem (`releases_once`).** Every watch that is opened is released exactly once, on every path:

* a guard releases its watch once, whatever its owner does with it, and once it is stopped there are
  no more events, whatever the watch has yet to answer (`WatchGuard.StopsOnce`);
* a restart that opened a watch asks it for events, releases it and publishes its outcome, in this
  order, and one that did not open a watch releases none (`Releases`);
* however the steps of any number of restarts come, the watch of each is released before its outcome
  is published and before its deployment is given back (`Restarts.ReleasesOnce`).

A restart that follows a watch asks it and releases it through a guard. It tells the guard to stop
unless it panics, and the guard is dropped in both cases; what the watch is told is the same
(`WatchGuard.touches_eq`).
-/

namespace TabBoard.Restart

open Cluster (Event)

/-! ## Guards -/

namespace WatchGuard

/-- What the owner of a guard can do with it. -/
inductive Use where
  | next
  | stop
  | isStopped
  deriving DecidableEq

def use (g : WatchGuard) : Use → WatchGuard
  | .next => g.next.2
  | .stop => g.stop
  | .isStopped => g

def after (g : WatchGuard) (us : List Use) : WatchGuard := us.foldl use g

/-- What the watch is told by some uses and by the end of the guard. -/
def touches (g : WatchGuard) (us : List Use) : List Act := g.toldUntil (g.after us).drop

variable {g : WatchGuard}

theorem next_of_not_held (h : g.held = false) : g.next = (.value none, g) := by
  simp only [next, h, Bool.false_eq_true, if_false]

@[simp] theorem held_next (g : WatchGuard) : g.next.2.held = g.held := by
  unfold next
  split
  · split <;> rfl
  · rfl

theorem told_next (h : g.held = true) : g.next.2.told = g.told ++ [.ask] := by
  rw [next, if_pos h]
  dsimp only
  split <;> rfl

theorem stop_of_not_held (h : g.held = false) : g.stop = g := by
  simp only [stop, h, Bool.false_eq_true, if_false]

theorem held_stop (g : WatchGuard) : g.stop.held = false := by
  unfold stop
  split
  · rfl
  · exact Bool.eq_false_iff.2 ‹_›

theorem told_stop (h : g.held = true) : g.stop.told = g.told ++ [.stop] := by
  rw [stop, if_pos h]
  rfl

theorem held_after (g : WatchGuard) (us : List Use) :
    (g.after us).held = true ↔ g.held = true ∧ .stop ∉ us := by
  induction us generalizing g with
  | nil => simp [after]
  | cons u us ih =>
    refine (ih (g.use u)).trans ?_
    cases u <;> simp [use, held_stop]

/-- A guard that was stopped tells the watch nothing more. -/
theorem drop_after_of_not_held (h : g.held = false) (us : List Use) : (g.after us).drop = g := by
  induction us generalizing g with
  | nil => exact stop_of_not_held h
  | cons u us ih =>
    have huse : g.use u = g := by
      cases u with
      | next => rw [use, next_of_not_held h]
      | stop => exact stop_of_not_held h
      | isStopped => rfl
    show ((g.use u).after us).drop = g
    rw [huse, ih h]

/-- **The watch is asked until the guard is first told to stop, and released once.** -/
theorem told_drop_after (h : g.held = true) (us : List Use) : (g.after us).drop.told =
    g.told ++ (List.replicate ((us.takeWhile (· ≠ .stop)).count .next) .ask ++ [.stop]) := by
  induction us generalizing g with
  | nil => exact told_stop h
  | cons u us ih =>
    show ((g.use u).after us).drop.told = _
    cases u with
    | next =>
      rw [use, ih ((held_next g).trans h), told_next h]
      simp [List.replicate_succ]
    | stop =>
      rw [use, drop_after_of_not_held (held_stop g), told_stop h]
      simp
    | isStopped =>
      rw [use, ih h]
      simp

theorem touches_eq (h : g.held = true) (us : List Use) :
    touches g us = List.replicate ((us.takeWhile (· ≠ .stop)).count .next) .ask ++ [.stop] := by
  rw [touches, toldUntil, told_drop_after h, List.drop_left]

/-- What holds of a guard, whatever its owner did with it. -/
structure StopsOnce (asks : List (Behaviour (Option Event))) (us : List Use) : Prop where
  /-- When the guard is dropped its watch has been released once. -/
  stops : (after { asks } us).drop.stops = 1
  /-- The watch is asked for events until the guard is first told to stop, and then released. -/
  touches : touches { asks } us =
    List.replicate ((us.takeWhile (· ≠ .stop)).count .next) .ask ++ [.stop]
  isStopped : (after { asks } us).isStopped = true ↔ .stop ∈ us
  /-- Once the guard is stopped there are no events, whatever the watch would answer. -/
  next : .stop ∈ us → ∀ asks',
    next { after { asks } us with asks := asks' } =
      (.value none, { after { asks } us with asks := asks' })

theorem stopsOnce (asks : List (Behaviour (Option Event))) (us : List Use) : StopsOnce asks us := by
  have hstopped : (after { asks } us).held = false ↔ .stop ∈ us := by
    rw [← Bool.not_eq_true, held_after]
    simp
  refine ⟨?_, touches_eq rfl us, ?_, fun hstop asks' => next_of_not_held (hstopped.2 hstop)⟩
  · rw [stops, told_drop_after rfl]
    simp [List.count_replicate]
  · rw [isStopped, Bool.not_eq_true', hstopped]

end WatchGuard

/-! ## One restart -/

/-- A restart of this script that begins at `start` opens its watch. -/
def Script.Opens (limit : Duration) (s : Script) (start : Nat) : Prop :=
  ∃ t₁ t₂ t₃ d target, s.patch.answer start = some (t₁, .value ()) ∧
    s.read.answer t₁ = some (t₂, .value d) ∧ d.generation = some target ∧
      s.watch.answerBy t₂ (start + limit.millis) = (t₃, .value ())

/-- What a restart does that asks its watch so often and publishes the outcome. -/
def watched (remaining n : Nat) (o : Outcome) : List Act :=
  [.patch, .read, .watch remaining] ++ List.replicate n .ask ++ [.stop, .publish o]

/-- How a restart uses the guard of its watch: it does not tell the guard to stop if it panics. -/
def owner (n : Nat) (o : Outcome) : List WatchGuard.Use :=
  List.replicate n .next ++ if o = .panicked then [] else [.stop]

/-- What holds of what a restart does. -/
structure Releases (limit : Duration) (s : Script) (start : Nat) (as : List Act) : Prop where
  /-- If the watch is opened it is asked for events, released and not asked any more; then the
  outcome is published. That is what the guard of the watch makes of how the restart uses it. -/
  opened : s.Opens limit start → ∃ remaining n o, 0 < n ∧ as = watched remaining n o ∧
    as = [.patch, .read, .watch remaining] ++
      WatchGuard.touches { asks := s.asks } (owner n o) ++ [.publish o]
  /-- Otherwise nothing is asked and nothing is released. -/
  closed : ¬ s.Opens limit start → .ask ∉ as ∧ .stop ∉ as

variable {α : Type} {key : DeploymentKey} {limit : Duration} {s : Script} {start : Nat}

theorem touches_owner (asks : List (Behaviour (Option Event))) (n : Nat) (o : Outcome) :
    WatchGuard.touches { asks } (owner n o) = List.replicate n .ask ++ [.stop] := by
  rw [WatchGuard.touches_eq rfl]
  have hnext : ((owner n o).takeWhile (· ≠ .stop)).count .next = n := by
    unfold owner
    rw [List.takeWhile_append_of_pos (by simp)]
    split <;> simp
  rw [hnext]

/-- A watch is asked for events, and released before the outcome is published. -/
theorem acts_follow (key : DeploymentKey) (limit : Duration) (target : Int) (deadline now : Nat)
    (b : Behaviour (Option Event)) (asks : List (Behaviour (Option Event))) :
    ∃ n o, (follow key limit target deadline now (b :: asks)).map (·.2) =
      List.replicate (n + 1) .ask ++ [.stop, .publish o] := by
  induction asks generalizing b now with
  | nil =>
    refine ⟨0, ?_⟩
    rw [follow_cons]
    split
    · exact ⟨_, rfl⟩
    · exact ⟨_, rfl⟩
  | cons b' asks ih =>
    rw [follow_cons]
    split
    · exact ⟨0, _, rfl⟩
    · obtain ⟨n, o, hacts⟩ := ih (b.answerBy now deadline).1 b'
      refine ⟨n + 1, o, ?_⟩
      rw [List.map_cons, hacts]
      rfl

/-- What is done when a call is answered is done after its value, or publishes the outcome. -/
theorem mem_onward {answer : Option (Nat × Reply α)} {next : Nat → α → List (Nat × Act)} {a : Act}
    (h : a ∈ (onward key limit answer next).map (·.2)) :
    (∃ o, a = .publish o) ∨
      ∃ time v, answer = some (time, .value v) ∧ a ∈ (next time v).map (·.2) := by
  rcases answer with _ | ⟨time, reply⟩
  · simp [onward] at h
  cases reply with
  | value v => exact .inr ⟨time, v, rfl, h⟩
  | failed | panicked | late => exact .inl ⟨_, by simpa [onward] using h⟩

/-- Only a restart that opened its watch asks it for events or releases it. -/
theorem opens_of_mem {a : Act} (ha : a ∈ (timeline key limit s start).map (·.2))
    (hwatch : a = .ask ∨ a = .stop) : s.Opens limit start := by
  have hcall : ∀ {a' : Act}, a' = .patch ∨ a' = .read ∨ (∃ r, a' = .watch r) ∨
      (∃ o, a' = .publish o) → a ≠ a' := by
    rintro a' h rfl
    rcases hwatch with rfl | rfl <;> simp at h
  rw [timeline_eq, List.map_cons, List.mem_cons] at ha
  rcases mem_onward (ha.resolve_left (hcall (by simp))) with ⟨o, rfl⟩ | ⟨t₁, u, hpatch, ha⟩
  · exact absurd rfl (hcall (by simp))
  rw [List.map_cons, List.mem_cons] at ha
  rcases mem_onward (ha.resolve_left (hcall (by simp))) with ⟨o, rfl⟩ | ⟨t₂, d, hread, ha⟩
  · exact absurd rfl (hcall (by simp))
  cases hd : d.generation with
  | none =>
    simp only [hd, List.map_cons, List.map_nil, List.mem_singleton] at ha
    exact absurd ha (hcall (by simp))
  | some target =>
    simp only [hd, List.map_cons, List.mem_cons] at ha
    rcases mem_onward (ha.resolve_left (hcall (by simp))) with ⟨o, rfl⟩ | ⟨t₃, u', hopened, -⟩
    · exact absurd rfl (hcall (by simp))
    · exact ⟨t₁, t₂, t₃, d, target, hpatch, hread, hd, Option.some.inj hopened⟩

/-- **A restart releases its watch once**, and before its outcome is published. -/
theorem releases_timeline (key : DeploymentKey) (limit : Duration) (s : Script) (start : Nat) :
    Releases limit s start ((timeline key limit s start).map (·.2)) := by
  constructor
  case closed =>
    intro hclosed
    exact ⟨fun hask => hclosed (opens_of_mem hask (.inl rfl)),
      fun hstop => hclosed (opens_of_mem hstop (.inr rfl))⟩
  case opened =>
    rintro ⟨t₁, t₂, t₃, d, target, hpatch, hread, hgeneration, hwatch⟩
    obtain ⟨b, asks, hasks⟩ : ∃ b asks, s.asks = b :: asks :=
      List.exists_cons_of_ne_nil (by simp [Script.asks])
    obtain ⟨n, o, hacts⟩ :=
      acts_follow key limit target (start + limit.millis) t₃ b asks
    have hall : (timeline key limit s start).map (·.2) =
        watched (start + limit.millis - t₂) (n + 1) o := by
      simp only [timeline_eq, hpatch, hread, hgeneration, hwatch, onward, hasks, List.map_cons,
        hacts]
      rfl
    refine ⟨start + limit.millis - t₂, n + 1, o, Nat.succ_pos n, hall, hall.trans ?_⟩
    rw [touches_owner]
    simp [watched]

end TabBoard.Restart

namespace TabBoard.Restarts

open Restart (Act Outcome)

/-! ## Any number of restarts -/

def eventsOf (n : Nat) (log : List Entry) : List Event := (entriesOf n log).map (·.event)

/-- The event ends the restart: its outcome is published, or the deployment is given back. -/
def Event.Ends : Event → Prop
  | .published _ | .released => True
  | _ => False

/-- What holds of the events of one call. -/
structure ReleasesOnce (es : List Event) : Prop where
  /-- A watch is released once at most, and not asked any more. -/
  once : es.Pairwise fun x y => x = .did .stop → y ≠ .did .stop ∧ y ≠ .did .ask
  /-- It is not released when the outcome is published or the deployment is given back. -/
  ahead : es.Pairwise fun x y => x.Ends → y ≠ .did .stop
  /-- Only a watch that was opened is released. -/
  opened : .did .stop ∈ es → .did .ask ∈ es
  /-- It is released by the time that the outcome is published or the deployment is given back. -/
  stopped : .did .ask ∈ es → (∃ x ∈ es, x.Ends) → .did .stop ∈ es

variable {b : Board} {s : Restarts} {log : List Entry} {key : DeploymentKey}
  {as done rest : List Act} {es tail : List Event} {n : Nat}

theorem Serves.cases (h : Serves key as) :
    (∃ remaining n o, 0 < n ∧ as = Restart.watched remaining n o) ∨ .ask ∉ as ∧ .stop ∉ as := by
  obtain ⟨limit, script, time, rfl⟩ := h
  have hreleases := Restart.releases_timeline key limit script time
  by_cases hopens : script.Opens limit time
  · obtain ⟨remaining, n, o, hpos, has, -⟩ := hreleases.opened hopens
    exact .inl ⟨remaining, n, o, hpos, has⟩
  · exact .inr (hreleases.closed hopens)

theorem Serves.once (h : Serves key (done ++ rest)) :
    done.Pairwise fun x y => x = .stop → y ≠ .stop ∧ y ≠ .ask := by
  refine List.Pairwise.sublist (List.sublist_append_left done rest) ?_
  rcases h.cases with ⟨remaining, n, o, -, has⟩ | ⟨-, hstop⟩
  · rw [has]
    simp [Restart.watched, List.pairwise_append, List.pairwise_replicate]
  · refine List.pairwise_of_forall_mem_list ?_
    rintro x hx y - rfl
    exact absurd hx hstop

theorem Serves.ask_of_stop (h : Serves key (done ++ rest)) (hstop : .stop ∈ done) :
    .ask ∈ done := by
  rcases h.cases with ⟨remaining, n, o, hpos, has⟩ | ⟨-, hnone⟩
  · -- the watch is asked before it is released
    have hbegins : done <+: Restart.watched remaining n o := ⟨rest, has⟩
    have hasked : [.patch, .read, .watch remaining] ++ List.replicate n .ask <+:
        Restart.watched remaining n o := List.prefix_append _ _
    rcases List.prefix_or_prefix_of_prefix hasked hbegins with hearlier | hlater
    · refine hearlier.subset (List.mem_append_right _ ?_)
      exact List.mem_replicate.2 ⟨Nat.ne_of_gt hpos, rfl⟩
    · have := hlater.subset hstop
      simp at this
  · exact absurd (List.mem_append_left rest hstop) hnone

theorem Serves.stop_of_ask {o : Outcome} (h : Serves key (done ++ [.publish o]))
    (hask : .ask ∈ done) : .stop ∈ done := by
  rcases h.cases with ⟨remaining, n, o', -, has⟩ | ⟨hnone, -⟩
  · have hlast : Restart.watched remaining n o' =
        [.patch, .read, .watch remaining] ++ List.replicate n .ask ++ [.stop] ++
          [.publish o'] := by simp [Restart.watched]
    rw [(List.append_inj' (has.trans hlast) rfl).1]
    simp
  · exact absurd (List.mem_append_left _ hask) hnone

/-- A call that did nothing to the cluster released nothing. -/
theorem releasesOnce_of_idle (h : ∀ a, .did a ∉ es) : ReleasesOnce es where
  once := by
    refine List.pairwise_of_forall_mem_list ?_
    rintro x hx y - rfl
    exact absurd hx (h _)
  ahead := by
    refine List.pairwise_of_forall_mem_list ?_
    rintro x - y hy - rfl
    exact absurd hy (h _)
  opened hstop := absurd hstop (h _)
  stopped hask := absurd hask (h _)

/-- A call that was accepted releases its watch once. -/
theorem Serves.releasesOnce (h : Serves key (done ++ rest)) (htail : ∀ y ∈ tail, y.Ends)
    (hrest : tail ≠ [] → ∃ o, rest = [.publish o]) : ReleasesOnce (begun done ++ tail) := by
  have hdid : ∀ a, .did a ∈ begun done ++ tail ↔ a ∈ done := by
    intro a
    have hnot : .did a ∉ tail := fun hmem => htail _ hmem
    simp [begun, hnot]
  have hworking : ∀ x ∈ begun done, ¬ x.Ends := by
    simp [begun, Event.Ends]
  refine ⟨?once, ?ahead, ?opened, ?stopped⟩
  case once =>
    rw [List.pairwise_append]
    refine ⟨?_, ?_, ?_⟩
    · simpa [begun, List.pairwise_map] using h.once
    · refine List.pairwise_of_forall_mem_list ?_
      rintro x hx y - rfl
      exact (htail _ hx).elim
    · rintro x - y hy -
      have hends := htail y hy
      constructor <;> rintro rfl <;> exact hends.elim
  case ahead =>
    rw [List.pairwise_append]
    refine ⟨?_, ?_, ?_⟩
    · refine List.pairwise_of_forall_mem_list ?_
      exact fun x hx y _ hends => absurd hends (hworking x hx)
    · refine List.pairwise_of_forall_mem_list ?_
      rintro x - y hy - rfl
      exact htail _ hy
    · rintro x - y hy - rfl
      exact htail _ hy
  case opened =>
    rw [hdid, hdid]
    exact h.ask_of_stop
  case stopped =>
    rw [hdid, hdid]
    rintro hask ⟨x, hx, hends⟩
    have htail : tail ≠ [] := by
      rintro rfl
      rw [List.append_nil] at hx
      exact hworking x hx hends
    obtain ⟨o, rfl⟩ := hrest htail
    exact h.stop_of_ask hask

theorem Call.Told.releasesOnce {c : Call} (h : c.Told es) : ReleasesOnce es := by
  unfold Told at h
  split at h
  · exact releasesOnce_of_idle (by simp [h])
  · exact releasesOnce_of_idle (by simp [h])
  · obtain ⟨done, hserves, rfl⟩ := h
    rw [← List.append_nil (begun done)]
    exact hserves.releasesOnce (by simp) (by simp)
  · obtain ⟨done, o, hserves, rfl⟩ := h
    exact hserves.releasesOnce (by simp [Event.Ends]) fun _ => ⟨o, rfl⟩

theorem Whole.releasesOnce {key : Option DeploymentKey} (h : Whole key es) : ReleasesOnce es := by
  cases h with
  | refused | unknown => exact releasesOnce_of_idle (by simp)
  | finished hkey hserves => exact hserves.releasesOnce (by simp [Event.Ends]) fun _ => ⟨_, rfl⟩

theorem run_releasesOnce (h : Run (start b) log s) (n : Nat) :
    ReleasesOnce (eventsOf n log) := by
  have hsound := sound_run h
  by_cases hn : n < s.calls
  · obtain ⟨tab, key, es, hes, hcase⟩ := hsound.history hn
    have hevents : eventsOf n log = es := by
      simp [eventsOf, hes, Function.comp_def]
    rw [hevents]
    rcases hcase with ⟨c, -, -, -, -, htold⟩ | ⟨-, hwhole⟩
    · exact htold.releasesOnce
    · exact hwhole.releasesOnce
  · have hnobody : entriesOf n log = [] := by
      refine List.filter_eq_nil_iff.2 fun e he => ?_
      have := hsound.past e he
      simp only [decide_eq_true_eq]
      omega
    exact releasesOnce_of_idle (by simp [eventsOf, hnobody])

/-- **Every watch is released exactly once**: by its guard, by its restart, and however the steps of
any number of restarts come. -/
theorem releases_once :
    (∀ asks us, Restart.WatchGuard.StopsOnce asks us) ∧
      (∀ key limit script time,
        Restart.Releases limit script time (acts key limit script time)) ∧
      ∀ b log s, Run (start b) log s → ∀ n, ReleasesOnce (eventsOf n log) :=
  ⟨Restart.WatchGuard.stopsOnce, Restart.releases_timeline,
    fun _ _ _ hrun n => run_releasesOnce hrun n⟩

end TabBoard.Restarts
