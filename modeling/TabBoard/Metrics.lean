import TabBoard.Table

/-!
# Counting what happens

Counters count, gauges hold the last value that was set or the sum of what was added, histograms
count how many values they took. Only what was touched is listed.
-/

namespace TabBoard

/-- What was counted so far. -/
structure Metrics where
  counters : Table String Nat := {}
  gauges : Table String Int := {}
  histograms : Table String Nat := {}
  deriving Repr, DecidableEq, Inhabited

namespace Metrics

def count (m : Metrics) (name : String) : Metrics :=
  { m with counters := m.counters.insert name ((m.counters.get? name).getD 0 + 1) }

def set (m : Metrics) (name : String) (value : Int) : Metrics :=
  { m with gauges := m.gauges.insert name value }

def add (m : Metrics) (name : String) (value : Int) : Metrics :=
  { m with gauges := m.gauges.insert name ((m.gauges.get? name).getD 0 + value) }

def record (m : Metrics) (name : String) : Metrics :=
  { m with histograms := m.histograms.insert name ((m.histograms.get? name).getD 0 + 1) }

/-! ## Delivery of statuses -/

def connected (m : Metrics) (active : Nat) : Metrics :=
  (m.count "dh_sse.gateway.connections.connect").set "dh_sse.gateway.connections.active" active

def disconnected (m : Metrics) (active : Nat) : Metrics :=
  (m.count "dh_sse.gateway.connections.disconnect").set "dh_sse.gateway.connections.active" active

def activeConnections (m : Metrics) (active : Nat) : Metrics :=
  m.set "dh_sse.gateway.connections.active" active

def eventSent (m : Metrics) (event outcome : String) : Metrics :=
  ((m.record "dh_sse.gateway.send.duration_seconds").count "dh_sse.gateway.events.sent").count
    s!"dh_sse.gateway.events.{event}.{outcome}"

def identityBound (m : Metrics) (bound : Bool) : Metrics :=
  m.count (if bound then "dh_sse.identity.binding.success" else "dh_sse.identity.binding.failed")

def statusEmitted (m : Metrics) (state : String) : Metrics :=
  m.count s!"dh_sse.status.emitted.{state}"

def streamOpened (m : Metrics) : Metrics :=
  (m.count "dh_sse.streams.opened").add "dh_sse.streams.active" 1

def streamClosed (m : Metrics) : Metrics := m.add "dh_sse.streams.active" (-1)

/-! ## Restarts -/

def restartAccepted (m : Metrics) : Metrics := m.count "dh_restart.requests.accepted"

def restartRejected (m : Metrics) (label : String) : Metrics :=
  m.count s!"dh_restart.requests.rejected.{label}"

def restartsInFlight (m : Metrics) (n : Nat) : Metrics := m.set "dh_restart.in_flight" n

def restartFinished (m : Metrics) (label : String) : Metrics :=
  (m.count s!"dh_restart.outcomes.{label}").record "dh_restart.duration_seconds"

end Metrics

end TabBoard
