/-!
# Shutting down

A shutdown is begun at most once and never undone. Beginning it takes two steps: the flag is
raised, and then whoever raised it first announces it. A guard is made in two steps as well: it
starts to listen for announcements, and from then on looks at the flag. So a guard that is waiting
when the flag goes up hears the announcement, and one that comes later sees the flag.
-/

namespace TabBoard

/-- Whether a shutdown has begun, and how many announcements of it were made. -/
structure Shutdown where
  triggered : Bool := false
  announced : Nat := 0
  deriving Repr, DecidableEq, Inhabited

namespace Shutdown

/-- Raises the flag, and says whether it was down. -/
def trigger (s : Shutdown) : Bool × Shutdown := (!s.triggered, { s with triggered := true })

/-- Wakes the guards that are waiting. -/
def announce (s : Shutdown) : Shutdown := { s with announced := s.announced + 1 }

/-- Both steps of beginning a shutdown. -/
def begin (s : Shutdown) : Shutdown :=
  match s.trigger with
  | (true, s) => s.announce
  | (false, s) => s

/-- Someone who waits for the shutdown, with the number of announcements that were made before. -/
structure Guard where
  seen : Nat := 0
  deriving Repr, DecidableEq, Inhabited

def guard (s : Shutdown) : Guard := ⟨s.announced⟩

/-- Whether the wait is over, and the guard as it is then: only an announcement that had to be heard
is used up. -/
def Guard.poll (g : Guard) (s : Shutdown) : Bool × Guard :=
  if s.triggered then (true, g)
  else if g.seen < s.announced then (true, ⟨g.seen + 1⟩)
  else (false, g)

end Shutdown

end TabBoard
