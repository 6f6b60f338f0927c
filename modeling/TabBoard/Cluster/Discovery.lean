import TabBoard.Cluster.Client
import TabBoard.Config.Basic

/-!
# Finding the cluster

The cluster is the one that the configuration names, or else the one that the program runs in. The
latter says by two variables of the environment where it is, and keeps its certificate and the token
of the program in a fixed place. The first thing that is missing is reported, in this order: the
address, the certificate, a usable URL, the token.
-/

namespace TabBoard.Cluster

structure Endpoint where
  address : String
  /-- The program runs in this cluster. -/
  surrounding : Bool := false
  /-- The file of the certificate that the cluster is known by. -/
  certificate : Option String := none
  /-- The file of the token. -/
  token : Option String := none
  deriving Repr, DecidableEq, Inhabited

namespace Endpoint

def provided (name : String) : String :=
  Files.join "/var/run/secrets/kubernetes.io/serviceaccount" name

/-- The address of the surrounding cluster. An address of many parts goes into brackets. -/
def surroundingAddress (env : Environment) : Except Error String :=
  match env.get? "KUBERNETES_SERVICE_HOST" with
  | none =>
    .error (.setup "kubernetes.api_server is not set and KUBERNETES_SERVICE_HOST is missing")
  | some host =>
    let host := if host.toList.contains ':' then "[" ++ host ++ "]" else host
    let port := env.text "KUBERNETES_SERVICE_PORT" "443"
    .ok s!"https://{host}:{port}"

def ofConfig (env : Environment) (k : Config.Kubernetes) : Except Error Endpoint :=
  match k.apiServer with
  | some address => .ok { address, certificate := k.caCertPath, token := k.tokenPath }
  | none =>
    (surroundingAddress env).map fun address =>
      { address, surrounding := true
        certificate := some (k.caCertPath.getD (provided "ca.crt"))
        token := some (k.tokenPath.getD (provided "token")) }

end Endpoint

namespace Client

variable {m : Type → Type} [Monad m] [FileSystem m]

/-- The client of an endpoint, if all that it needs is there. -/
def ofEndpoint (e : Endpoint) : m (Except Error Client) := do
  let unreadable ← match e.certificate with
    | some path => pure (if (← FileSystem.read path).isNone then some path else none)
    | none => pure none
  match unreadable, ofAddress e.address with
  | some path, _ => return .error (.setup s!"cannot read CA bundle {path}")
  | none, .error error => return .error error
  | none, .ok c =>
    match e.token with
    | none => return .ok c
    | some path =>
      if ← FileSystem.isFile path then return .ok { c with credential := .file path }
      else return .error (.setup s!"service account token not found at {path}")

/-- The client that the configuration asks for, with the line that is logged about it. -/
def ofConfig (env : Environment) (k : Config.Kubernetes) : m (Except Error (Client × String)) := do
  match Endpoint.ofConfig env k with
  | .error e => return .error e
  | .ok e =>
    let origin := if e.surrounding then "in-cluster" else "configured"
    return (← ofEndpoint e).map fun c =>
      (c, s!"Kubernetes client targeting {c.base.toText} ({origin})")

end Client

end TabBoard.Cluster
