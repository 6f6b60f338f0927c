import TabBoard.Delivery.Store
import TabBoard.Shutdown

/-!
# Direct event streams

A stream shows a subscriber's updates as frames. When nothing happened for a while it shows a
heartbeat; the time is counted from the first look after a frame. What is waiting comes before a
heartbeat that is due, and a shutdown comes before both: it ends the stream.

A frame is written as an event with the fields `event`, `data` and `retry`, one a line, and an empty
line behind them.
-/

namespace TabBoard

inductive Frame where
  | status (s : Status)
  | heartbeat
  deriving Repr, DecidableEq, Inhabited

namespace Frame

/-- After how many milliseconds a client should connect again. -/
def retryMillis : Nat := 3000

def event : Frame → String
  | .status _ => "status"
  | .heartbeat => "heartbeat"

def data : Frame → String
  | .status s => s.toJson.render
  | .heartbeat => (Json.object []).render

def toText (f : Frame) : String :=
  s!"event: {f.event}\ndata: {f.data}\nretry: {retryMillis}\n\n"

end Frame

/-- A subscriber's updates as a stream of frames. -/
structure EventStream where
  id : String
  /-- The length of a silence that a heartbeat ends, in milliseconds. -/
  heartbeat : Nat
  guard : Shutdown.Guard := {}
  /-- When the silence that is being counted ends. -/
  alarm : Option Nat := none
  ended : Bool := false
  deriving Repr, DecidableEq, Inhabited

namespace EventStream

/-- What a look at a stream finds. -/
inductive Glance where
  | frame (f : Frame)
  | nothing
  | ended
  deriving Repr, DecidableEq, Inhabited

def poll (now : Nat) (shutdown : Shutdown) (fanout : Fanout) (s : EventStream) :
    Glance × Fanout × EventStream :=
  if s.ended then (.ended, fanout, s)
  else
    match s.guard.poll shutdown with
    | (true, guard) => (.ended, fanout, { s with guard, ended := true })
    | (false, _) =>
      match fanout.take? s.id with
      | (some u, fanout) => (.frame (.status u.status), fanout, { s with alarm := none })
      | (none, _) =>
        let due := s.alarm.getD (now + s.heartbeat)
        if due ≤ now then (.frame .heartbeat, fanout, { s with alarm := none })
        else (.nothing, fanout, { s with alarm := some due })

/-- Looks until there is nothing more to see, at most the given number of times. -/
def drain (now : Nat) (shutdown : Shutdown) :
    Nat → Fanout → EventStream → List Frame × Fanout × EventStream
  | 0, fanout, s => ([], fanout, s)
  | looks + 1, fanout, s =>
    match s.poll now shutdown fanout with
    | (.frame f, fanout, s) =>
      let (fs, rest) := drain now shutdown looks fanout s
      (f :: fs, rest)
    | (_, fanout, s) => ([], fanout, s)

end EventStream

end TabBoard
