import TabBoard.Decimal.Binary64

/-!
# Durations

A duration is counted in nanoseconds. In words it is a whole number of seconds where there are no
milliseconds left over, and otherwise seconds with one place, taken from the nearest double.
-/

namespace TabBoard

structure Duration where
  nanos : Nat
  deriving Repr, DecidableEq, Inhabited

namespace Duration

def ofMillis (ms : Nat) : Duration := ⟨ms * 1000000⟩

def ofSecs (secs : Nat) : Duration := ⟨secs * 1000000000⟩

def secs (d : Duration) : Nat := d.nanos / 1000000000

/-- The nanoseconds beyond the whole seconds. -/
def subsecNanos (d : Duration) : Nat := d.nanos % 1000000000

/-- The milliseconds beyond the whole seconds. -/
def subsecMillis (d : Duration) : Nat := d.subsecNanos / 1000000

def millis (d : Duration) : Nat := d.nanos / 1000000

/-- The seconds as a double: that of the whole ones and that of the rest, added. -/
def seconds (d : Duration) : Decimal.Ratio :=
  Decimal.nearest
    ((Decimal.nearest ⟨d.secs, 1⟩).add (Decimal.nearest ⟨d.subsecNanos, 1000000000⟩))

def inWords (d : Duration) : String :=
  if d.subsecMillis = 0 then
    if d.secs = 1 then "1 second" else s!"{d.secs} seconds"
  else s!"{Decimal.fixed 1 d.seconds} seconds"

end Duration

end TabBoard
