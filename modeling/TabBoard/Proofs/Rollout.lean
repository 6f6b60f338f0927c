import TabBoard.Proofs.Restart.Timeline
import Mathlib.Data.List.Find

/-!
# Stale objects

An object is stale for a target generation when neither its counts nor any of its conditions speak
of that generation or a later one. Such an object was reported before the cluster took notice of the
change, and what it says belongs to an earlier rollout.

**Theorem (`stale_objects_ignored`).** A stale object is pending whatever it says, unless a
`Progressing` condition that names no generation at all is false: that one is taken at face value
and fails the rollout (`verdict_of_stale`). Any number of stale objects without such a condition at
the front of a watch leave the outcome of the restart as it is without them.

The exception is real: `undated_halt_fails` gives a stale object that fails a rollout.
-/

namespace TabBoard

namespace Deployment

/-! ## Staleness -/

/-- Neither the counts nor a condition speak of the target generation or a later one. -/
def Stale (d : Deployment) (target : Int) : Prop :=
  ∀ p, d.progress = some p →
    (∀ g, p.generation = some g → g < target) ∧
      ∀ c ∈ p.conditions, ∀ g, c.generation = some g → g < target

instance (d : Deployment) (target : Int) : Decidable (d.Stale target) :=
  match h : d.progress with
  | none => .isTrue fun p hp => by simp [h] at hp
  | some p => decidable_of_iff
      ((∀ g ∈ p.generation, g < target) ∧ ∀ c ∈ p.conditions, ∀ g ∈ c.generation, g < target)
      (by simp [Stale, h])

/-- The first condition that says that the rollout stands still without saying which one. -/
def undatedHalt? (d : Deployment) : Option Condition :=
  d.progress.bind fun p =>
    p.conditions.find? fun c => c.kind == "Progressing" && c.generation.isNone && c.isFalse

variable {d : Deployment} {p : Progress} {c : Condition} {target : Int}

theorem Condition.concerns_of_stale (h : ∀ g, c.generation = some g → g < target) :
    c.concerns target = c.generation.isNone := by
  unfold Condition.concerns
  split
  · rename_i g hg
    have := h g hg
    simp only [hg, Option.isNone_some, decide_eq_false_iff_not]
    omega
  · rename_i hg
    rw [hg, Option.isNone_none]

theorem Condition.confirms_of_stale (h : ∀ g, c.generation = some g → g < target) :
    c.confirms target = false := by
  unfold Condition.confirms
  split
  · rename_i g hg
    have := h g hg
    simp only [decide_eq_false_iff_not]
    omega
  · rfl

theorem Progress.observes_of_stale (h : ∀ g, p.generation = some g → g < target) :
    p.observes target = false := by
  unfold Progress.observes
  split
  · rename_i g hg
    have := h g hg
    simp only [decide_eq_false_iff_not]
    omega
  · rfl

theorem failure_of_stale (h : d.Stale target) :
    d.failure target = d.undatedHalt?.map (·.cause) := by
  unfold failure undatedHalt?
  cases hp : d.progress with
  | none => rfl
  | some p =>
    have hhalts : ∀ c ∈ p.conditions, c.halts target =
        (c.kind == "Progressing" && c.generation.isNone && c.isFalse) := by
      intro c hc
      rw [Condition.halts, Condition.concerns_of_stale ((h p hp).2 c hc)]
    exact congrArg (Option.map _) (List.find?_congr hhalts)

theorem not_ready_of_stale (h : d.Stale target) : d.ready target = false := by
  unfold ready
  cases hp : d.progress with
  | none => rfl
  | some p =>
    have havailable : p.conditions.any (·.available target) = false := by
      rw [List.any_eq_false]
      intro c hc
      simp [Condition.available, Condition.confirms_of_stale ((h p hp).2 c hc)]
    simp [havailable, Progress.observes_of_stale (h p hp).1]

/-- **A stale object is pending**, or fails the rollout by a condition that names no generation. -/
theorem verdict_of_stale (h : d.Stale target) :
    d.verdict target =
      match d.undatedHalt? with
      | some c => .failed c.cause
      | none => .pending := by
  unfold verdict
  rw [failure_of_stale h, not_ready_of_stale h]
  cases d.undatedHalt? <;> rfl

/-- **Not every stale object is pending**: a false `Progressing` condition without a generation
fails the rollout although the object speaks of an older generation. -/
theorem undated_halt_fails :
    ¬ ∀ (d : Deployment) (target : Int), d.Stale target → d.verdict target = .pending := by
  intro h
  have hd := h
    { progress := some {
        generation := some 1
        conditions := [{ kind := "Progressing", status := "False" }] } }
    2 (by decide)
  exact absurd hd (by decide)

end Deployment

namespace Restart

open Cluster (Event)

/-! ## Stale events -/

/-- The behaviour brings a stale object that says nothing about a halt of unknown date. -/
def Behaviour.Stale (target : Int) (b : Behaviour Event) : Prop :=
  ∃ d : Deployment, (b.ending = .value (.added d) ∨ b.ending = .value (.modified d)) ∧
    d.Stale target ∧ d.undatedHalt? = none

theorem Behaviour.Stale.undecided {target : Int} {b : Behaviour Event} (h : b.Stale target)
    (key : DeploymentKey) : b.Undecided key target := by
  obtain ⟨d, hd, hstale, hnone⟩ := h
  have hverdict : d.verdict target = .pending := by rw [Deployment.verdict_of_stale hstale, hnone]
  rcases hd with hd | hd
  · exact ⟨_, hd, by simp only [judge, hverdict]⟩
  · exact ⟨_, hd, by simp only [judge, hverdict]⟩

theorem totalDelay_eq_zero {α : Type} {bs : List (Behaviour α)} (h : ∀ b ∈ bs, b.delay = 0) :
    totalDelay bs = 0 := by
  induction bs with
  | nil => rfl
  | cons b bs ih =>
    obtain ⟨hb, hbs⟩ := List.forall_mem_cons.1 h
    simpa [totalDelay, hb] using ih hbs

/-- **Stale objects are ignored**, one by one and at the front of a watch. -/
theorem stale_objects_ignored :
    -- a stale object is pending, unless a condition without a generation fails the rollout
    (∀ (d : Deployment) (target : Int), d.Stale target →
      d.verdict target =
        match d.undatedHalt? with
        | some c => .failed c.cause
        | none => .pending) ∧
    -- without such a condition, stale objects at the front of a watch do not matter
    ∀ (key : DeploymentKey) (limit : Duration) (s : Script) (start : Nat)
      (stale : List (Behaviour Event)),
      (∀ target, s.target? = some target → ∀ b ∈ stale, b.Stale target) →
      outcome? (timeline key limit { s with events := stale ++ s.events } start) =
          outcome? (timeline key limit (s.postpone (totalDelay stale)) start) ∧
        ((∀ b ∈ stale, b.delay = 0) →
          outcome? (timeline key limit { s with events := stale ++ s.events } start) =
            outcome? (timeline key limit s start)) := by
  refine ⟨fun d target h => Deployment.verdict_of_stale h, ?_⟩
  intro key limit s start stale h
  have hundecided : ∀ target, s.target? = some target → ∀ b ∈ stale, b.Undecided key target :=
    fun target ht b hb => (h target ht b hb).undecided key
  have heq := outcome?_timeline_append key limit s start hundecided
  refine ⟨heq, ?_⟩
  intro hzero
  rw [heq, totalDelay_eq_zero hzero, Script.postpone_zero]

end Restart

end TabBoard
