import TabBoard.Decimal.Natural

/-!
# Moments

A moment is counted from the start of 1970 in seconds and nanoseconds. It is written as a date of
the Gregorian calendar and a time of day, both in UTC.

Years are counted from March here, so that the day a leap year adds comes last: 400 years have
146097 days, and five months from March on have 153.
-/

namespace TabBoard

structure Moment where
  seconds : Nat
  nanos : Nat := 0
  deriving Repr, DecidableEq, Inhabited

namespace Moment

/-- Year, month and day, `days` days after the start of 1970. -/
def date (days : Nat) : Nat × Nat × Nat :=
  let sinceMarch := days + 719468
  let inCycle := sinceMarch % 146097
  let year := (inCycle - inCycle / 1460 + inCycle / 36524 - inCycle / 146096) / 365
  let inYear := inCycle - (365 * year + year / 4 - year / 100)
  let month := (5 * inYear + 2) / 153
  let day := inYear - (153 * month + 2) / 5 + 1
  let year := year + 400 * (sinceMarch / 146097)
  if month < 10 then (year, month + 3, day) else (year + 1, month - 9, day)

/-- Date and time of day, to the second. -/
def dateTime (m : Moment) : String :=
  let (year, month, day) := date (m.seconds / 86400)
  let two := Decimal.padded 2
  let clock := m.seconds % 86400
  s!"{Decimal.padded 4 year}-{two month}-{two day}T{two (clock / 3600)}:" ++
    s!"{two (clock / 60 % 60)}:{two (clock % 60)}"

/-- To the second, with the mark of UTC. -/
def toSeconds (m : Moment) : String := m.dateTime ++ "Z"

/-- The places of a second that there are, in groups of three. -/
def fraction (m : Moment) : String :=
  if m.nanos = 0 then ""
  else if m.nanos % 1000000 = 0 then "." ++ Decimal.padded 3 (m.nanos / 1000000)
  else if m.nanos % 1000 = 0 then "." ++ Decimal.padded 6 (m.nanos / 1000)
  else "." ++ Decimal.padded 9 m.nanos

/-- To the nanosecond, with the distance from UTC. -/
def toNanos (m : Moment) : String := m.dateTime ++ m.fraction ++ "+00:00"

/-- To the nanosecond, with the mark of UTC. -/
def toNanosUtc (m : Moment) : String := m.dateTime ++ m.fraction ++ "Z"

end Moment

example : (Moment.mk 0 0).toSeconds = "1970-01-01T00:00:00Z" := by decide +kernel

example : (Moment.mk 1709210096 0).toSeconds = "2024-02-29T12:34:56Z" := by decide +kernel

end TabBoard
