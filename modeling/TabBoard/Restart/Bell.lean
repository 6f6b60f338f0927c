/-!
# Waiting until no restart is under way

Setting a deployment free takes two steps: it is taken out of those under way, and if none is left
then a bell is rung. Waiting until none is under way takes turns of two steps: someone who waits
starts to listen for the bell, and only then looks how many deployments are under way. If there are
any, they wait until the bell is rung, and then start anew. So whoever sees a deployment hears that
the last one is gone, also when this happens before they wait.
-/

namespace TabBoard.Restart

/-- How often the bell was rung. -/
structure Bell where
  rung : Nat := 0
  deriving Repr, DecidableEq, Inhabited

namespace Bell

def ring (b : Bell) : Bell := { b with rung := b.rung + 1 }

/-- The bell after a deployment was taken out and so many are left. -/
def after (b : Bell) (left : Nat) : Bell := if left = 0 then b.ring else b

/-- Someone who listens, with the number of times it was rung before. -/
structure Listener where
  seen : Nat := 0
  deriving Repr, DecidableEq, Inhabited

def listen (b : Bell) : Listener := ⟨b.rung⟩

def Listener.heard (l : Listener) (b : Bell) : Bool := l.seen < b.rung

/-- Someone who waits until no restart is under way. -/
inductive Waiter where
  | parked (l : Listener)
  | done
  deriving Repr, DecidableEq, Inhabited

/-- Looks how many restarts are under way, and waits for the bell if there are any. -/
def Listener.look (l : Listener) (underWay : Nat) : Waiter :=
  if underWay = 0 then .done else .parked l

end Bell

end TabBoard.Restart
