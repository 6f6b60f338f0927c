import TabBoard.Cluster.Deployment

/-!
# Judging a rollout

A rollout is judged against a target generation, taken right after the change that started it. What
the cluster reports for an older generation belongs to an earlier rollout.

- It **failed** when a `Progressing` condition is false; a condition that carries no generation of
  its own is taken at face value.
- It is **ready** when an `Available` condition of the target generation or a later one is true, or
  when the counts speak of the target generation and none of them is below the number wanted.
- Otherwise it is **pending**.

Failure comes before readiness.
-/

namespace TabBoard

inductive Verdict where
  | pending
  | ready
  | failed (cause : String)
  deriving Repr, DecidableEq, Inhabited

namespace Deployment

/-- The condition speaks of the target generation or a later one, or of none at all. -/
def Condition.concerns (c : Condition) (target : Int) : Bool :=
  match c.generation with
  | some g => decide (target ≤ g)
  | none => true

/-- The condition names the target generation or a later one. -/
def Condition.confirms (c : Condition) (target : Int) : Bool :=
  match c.generation with
  | some g => decide (target ≤ g)
  | none => false

def nonEmpty (s : Option String) : Option String := s.filter (· ≠ "")

/-- The reason that the cluster gives when a rollout took too long. -/
def deadlineExceeded : String := "ProgressDeadlineExceeded"

/-- Why a rollout failed, in words: the message of the condition, else its reason. -/
def Condition.cause (c : Condition) : String :=
  let detail := ((nonEmpty c.message).orElse fun _ => nonEmpty c.reason).getD "rollout halted"
  if nonEmpty c.reason = some deadlineExceeded then
    if detail = deadlineExceeded then s!"progress deadline exceeded ({deadlineExceeded})"
    else s!"progress deadline exceeded ({deadlineExceeded}): {detail}"
  else detail

/-- The condition reports that the rollout to the target generation stands still. -/
def Condition.halts (c : Condition) (target : Int) : Bool :=
  c.kind == "Progressing" && c.concerns target && c.isFalse

def Condition.available (c : Condition) (target : Int) : Bool :=
  c.kind == "Available" && c.isTrue && c.confirms target

/-- Why the rollout to the target generation failed, if it did. -/
def failure (d : Deployment) (target : Int) : Option String :=
  match d.progress with
  | none => none
  | some p => (p.conditions.find? (·.halts target)).map (·.cause)

/-- The counts that matter once it is known how many replicas are wanted. -/
def Progress.counts (p : Progress) : List (Option Int) := [p.ready, p.available, p.updated]

/-- The counts reach the number wanted. When replicas are wanted every count has to be there; when
no number is known, one replica that is ready or available is enough. -/
def Progress.reaches (p : Progress) : Option Int → Bool
  | some wanted =>
    !(0 < wanted && p.counts.any (·.isNone)) &&
      p.counts.all fun count => count.all fun n => decide (wanted ≤ n)
  | none => [p.ready, p.available].any fun count => count.any fun n => decide (0 < n)

/-- The counts speak of the target generation or a later one. -/
def Progress.observes (p : Progress) (target : Int) : Bool :=
  match p.generation with
  | some g => decide (target ≤ g)
  | none => false

/-- The rollout to the target generation is complete. -/
def ready (d : Deployment) (target : Int) : Bool :=
  match d.progress with
  | none => false
  | some p =>
    p.conditions.any (·.available target) || (p.observes target && p.reaches d.wanted)

def verdict (d : Deployment) (target : Int) : Verdict :=
  match d.failure target with
  | some cause => .failed cause
  | none => if d.ready target then .ready else .pending

end Deployment

end TabBoard
