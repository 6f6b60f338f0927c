import TabBoard.Cluster.Error
import TabBoard.Duration
import TabBoard.Tab

/-!
# How a restart goes wrong

Two of the errors refuse a restart before it starts: one of the same deployment is running, or the
tab has no deployment. The others end it. Each has a text for the log (`message`), a text for the
people at the dashboard (`statusMessage`) and a label for counting (`label`).
-/

namespace TabBoard

/-- A tab that the board has no status for. -/
structure UnknownTab where
  index : Nat
  tabCount : Nat
  deriving Repr, DecidableEq, Inhabited

def UnknownTab.message (e : UnknownTab) : String :=
  s!"tab index {e.index} is out of range (tabs: {e.tabCount})"

namespace Restart

/-- Why a restart was refused or ended without success. -/
inductive Error where
  | inProgress (key : DeploymentKey)
  | notRestartable (tab : Nat)
  | timeout (key : DeploymentKey) (limit : Duration)
  | failed (key : DeploymentKey) (cause : String)
  | status (cause : UnknownTab)
  deriving Repr, DecidableEq, Inhabited

/-- The message of a restart that broke off inside. -/
def internalFailure : String := "restart failed: internal error"

namespace Error

/-- A call to the cluster that came to nothing. -/
def ofCluster (key : DeploymentKey) (e : Cluster.Error) : Error :=
  .failed key s!"Kubernetes API error: {e.reason}"

def message : Error → String
  | .inProgress key => s!"restart already in progress for {key.toText}"
  | .notRestartable tab => s!"tab index {tab} is not restartable"
  | .timeout key limit => s!"restart of {key.toText} did not finish within {limit.inWords}"
  | .failed key cause => s!"restart of {key.toText} failed: {cause}"
  | .status cause => s!"Status store error: {cause.message}"

/-- The deployment as it is named on the dashboard. -/
def context (key : DeploymentKey) : String := s!"namespace={key.space}, deployment={key.name}"

def statusMessage : Error → String
  | .inProgress key => s!"restart already in progress ({context key})"
  | .notRestartable tab => s!"tab {tab} is not restartable"
  | .timeout key limit => s!"restart did not finish within {limit.inWords} ({context key})"
  | .failed key cause => s!"restart failed: {cause} ({context key})"
  | .status cause => s!"restart failed: {cause.message}"

def label : Error → String
  | .inProgress _ => "in_progress"
  | .notRestartable _ => "not_restartable"
  | .timeout .. => "timeout"
  | .failed .. => "failed"
  | .status _ => "status"

end Error

end Restart

end TabBoard
