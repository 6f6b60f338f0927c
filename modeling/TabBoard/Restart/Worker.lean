import TabBoard.Restart.WatchGuard

/-!
# Following a restart

A restart patches the deployment, reads it back to learn the generation of the change, opens a watch
and follows it until an event decides. Opening the watch and waiting for its events end at the
deadline; what is there at that moment still counts. The watch is held by a guard, which releases it
before the outcome is published.

`timeline` is what a restart does and when. The first decisive element of its script gives the
outcome; nothing behind it is looked at.
-/

namespace TabBoard.Restart

/-! ## Judging events -/

/-- What an event decides, if it decides anything. -/
def judge (key : DeploymentKey) (target : Int) : Cluster.Event → Option Outcome
  | .added d | .modified d =>
    match d.verdict target with
    | .ready => some .success
    | .failed cause => some (.failed (.failed key cause))
    | .pending => none
  | .deleted _ => some (.failed (.failed key "deployment was deleted during rollout"))
  | .error s => some (.failed (.failed key s!"watch error: {s.describe}"))
  | .bookmark _ => none

/-- What an answer to the question for the next event decides. The end of the watch is a timeout. -/
def judgeReply (key : DeploymentKey) (limit : Duration) (target : Int) :
    Reply (Option Cluster.Event) → Option Outcome
  | .value (some e) => judge key target e
  | .value none => some (.failed (.timeout key limit))
  | .failed e => some (.failed (.ofCluster key e))
  | .panicked => some .panicked
  | .late => some (.failed (.timeout key limit))

/-- The outcome of a call that was not answered with a value. -/
def Reply.failure {α : Type} (key : DeploymentKey) (limit : Duration) : Reply α → Outcome
  | .value _ => .panicked
  | .failed e => .failed (.ofCluster key e)
  | .panicked => .panicked
  | .late => .failed (.timeout key limit)

/-! ## The timeline -/

/-- Ends the hold on a watch, and only then publishes the outcome. A restart that panics does not
tell the guard to stop; the guard is dropped in any case. -/
def conclude (now : Nat) (g : WatchGuard) (o : Outcome) : List (Nat × Act) :=
  let released := match o with
    | .panicked => g.drop
    | _ => g.stop.drop
  (g.toldUntil released).map (now, ·) ++ [(now, .publish o)]

/-- Asks a watch for events until an answer decides. A watch that can be asked no more has ended. -/
def follow (key : DeploymentKey) (limit : Duration) (target : Int) (deadline : Nat) :
    Nat → List (Behaviour (Option Cluster.Event)) → List (Nat × Act)
  | now, [] => conclude now { asks := [] } (.failed (.timeout key limit))
  | now, b :: rest =>
    let g : WatchGuard := { asks := b :: rest }
    let (ending, asked) := g.next
    let (time, reply) := ({ b with ending } : Behaviour _).answerBy now deadline
    (g.toldUntil asked).map (now, ·) ++
      match judgeReply key limit target reply with
      | some o => conclude time asked o
      | none => follow key limit target deadline time rest

/-- What a restart does from `start` on, in order and with the time of each act. -/
def timeline (key : DeploymentKey) (limit : Duration) (s : Script) (start : Nat) :
    List (Nat × Act) :=
  let deadline := start + limit.millis
  (start, .patch) ::
  match s.patch.answer start with
  | none => []
  | some (now, .value ()) =>
    (now, .read) ::
    match s.read.answer now with
    | none => []
    | some (now, .value d) =>
      match d.generation with
      | none => [(now, .publish (.failed (.failed key "deployment reports no generation")))]
      | some target =>
        (now, .watch (deadline - now)) ::
        match s.watch.answerBy now deadline with
        | (now, .value ()) => follow key limit target deadline now s.asks
        | (now, reply) => [(now, .publish (reply.failure key limit))]
    | some (now, reply) => [(now, .publish (reply.failure key limit))]
  | some (now, reply) => [(now, .publish (reply.failure key limit))]

end TabBoard.Restart
