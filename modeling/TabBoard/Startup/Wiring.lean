import TabBoard.Board.Basic
import TabBoard.Cluster.Discovery
import TabBoard.Config.Load
import TabBoard.Startup.Log

/-!
# Wiring

The parts of a running dashboard, put together as the configuration says: first the tabs, then the
client of the cluster, then the key that tokens are checked with, and last the board. The first part
that cannot be had ends it. Each part is announced in the log.
-/

namespace TabBoard

/-- The board at the start. With a gateway every change of a status also leaves through it, and
every connection is first sent the status of every tab. -/
def Board.ofCatalog (catalog : Catalog) (settings : Settings) : Board :=
  let gateway := settings.transport == .gateway
  { catalog, settings
    store := .ofSize catalog.size gateway
    registry := if gateway then some {} else none
    connectObservers := if gateway then [.replay] else [] }

/-- What requests look at, taken from the configuration. -/
def Settings.ofConfig (c : Config) (validator : Option Auth.Validator) : Settings where
  transport := c.sse.transport
  heartbeat := c.sse.heartbeatSecs * 1000
  production := c.server.isProduction
  callbackSecret := c.sse.callbackSecret
  auth := { enabled := c.auth.enabled, validator, cookieName := c.auth.cookieName }

namespace Startup

/-- The parts of a running dashboard. -/
structure Wiring where
  board : Board
  cluster : Cluster.Client
  /-- The gateway that events are sent to. -/
  gateway : Option Gateway := none
  /-- How long a restart may take. -/
  limit : Duration
  deriving Repr, DecidableEq, Inhabited

namespace Wiring

/-- Which part cannot be had, and why. -/
inductive Error where
  | config (e : Config.Error)
  | cluster (e : Cluster.Error)
  | keyFile (path : String)
  | auth (e : Auth.Error)
  deriving Repr, DecidableEq

def Error.message : Error → String
  | .config e => s!"Config error: {e.message}"
  | .cluster e => s!"Kubernetes client error: {e.message}"
  | .keyFile path => s!"Failed to read JWT key file {path}"
  | .auth e => s!"Auth error: {e.message}"

variable {m : Type → Type} [Monad m] [FileSystem m] [Terminal m]

/-- The validator of tokens, if there is authentication. A secret comes before a key file. -/
def validator (a : Config.Auth) (dir : String) : m (Except Error (Option Auth.Validator)) := do
  if !a.enabled then return .ok none
  match a.jwtSecret, a.keyFile? dir with
  | some secret, _ => return .ok (some (.ofSecret secret))
  | none, none => return .error (.config (.fault .noKeySource))
  | none, some path =>
    match ← Files.readText path with
    | none => return .error (.keyFile path)
    | some text => return ((Auth.Validator.ofPublicKey text).map some).mapError .auth

def identityNotice : Option Auth.Validator → Notice
  | none => (.warn, "Authentication DISABLED - gateway connections bind to the local user")
  | some v => (.info, s!"JWT: {v.key.algorithmName} identity binding enabled")

def tabsNotice (catalog : Catalog) : Notice :=
  (.info, s!"Loaded {catalog.size} tabs ({catalog.deployments.length} restartable deployments)")

def ofConfig (log : Log) (env : Environment) (c : Config) (dir : String) :
    m (Except Error Wiring) := do
  match ← c.loadTabs dir with
  | .error e => return .error (.config e)
  | .ok catalog =>
  log.write (tabsNotice catalog)
  match ← Cluster.Client.ofConfig env c.kubernetes with
  | .error e => return .error (.cluster e)
  | .ok (cluster, notice) =>
  log.write (.info, notice)
  match ← validator c.auth dir with
  | .error e => return .error e
  | .ok validator =>
  log.write (identityNotice validator)
  let gateway :=
    if c.sse.transport = .gateway then some (Gateway.ofBase c.sse.gatewayUrl) else none
  return .ok {
    board := .ofCatalog catalog (.ofConfig c validator)
    cluster, gateway, limit := .ofSecs c.restart.timeoutSecs }

end Wiring

end Startup

end TabBoard
