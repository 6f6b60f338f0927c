import TabBoard.Restart.Script

/-!
# Holding a watch

A guard holds an open watch and releases it exactly once: when told to stop, or else when the guard
itself is dropped. Once the watch is released there are no more events, and the watch is not asked.
-/

namespace TabBoard.Restart

/-- An open watch and its owner's hold on it. -/
structure WatchGuard where
  /-- What the watch has yet to answer. -/
  asks : List (Behaviour (Option Cluster.Event))
  held : Bool := true
  /-- What the watch has been told to do. -/
  told : List Act := []
  deriving Repr, Inhabited

namespace WatchGuard

def tell (g : WatchGuard) (a : Act) : WatchGuard := { g with told := g.told ++ [a] }

def next (g : WatchGuard) : Ending (Option Cluster.Event) × WatchGuard :=
  if g.held then
    let asked := g.tell .ask
    match g.asks with
    | [] => (.value none, asked)
    | [last] => (last.ending, asked)
    | b :: asks => (b.ending, { asked with asks })
  else (.value none, g)

def stop (g : WatchGuard) : WatchGuard := if g.held then { g.tell .stop with held := false } else g

def isStopped (g : WatchGuard) : Bool := !g.held

/-- The end of the guard. -/
def drop (g : WatchGuard) : WatchGuard := g.stop

/-- How often the watch was told to stop. -/
def stops (g : WatchGuard) : Nat := g.told.count .stop

/-- What the watch is told until a later state of its guard. -/
def toldUntil (g later : WatchGuard) : List Act := later.told.drop g.told.length

end WatchGuard

end TabBoard.Restart
