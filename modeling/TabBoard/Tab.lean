import TabBoard.Json.Decode
import TabBoard.Text.Blank

/-!
# Tabs and the deployments behind them

A tab has a caption, two addresses, perhaps a colour, and perhaps a deployment that can be
restarted from it. `Tab.normalize` trims every text and reports the first required one that is
blank; a blank colour counts as none.
-/

namespace TabBoard

/-- Names one deployment of the cluster. Restarts exclude each other by this key. -/
structure DeploymentKey where
  space : String
  name : String
  deriving Repr, DecidableEq, Inhabited

namespace DeploymentKey

def toText (k : DeploymentKey) : String := s!"{k.space}/{k.name}"

def decoder : Json.Decoder DeploymentKey := fun depth j => do
  let r ← Json.record ["namespace", "deployment"] depth j
  return ⟨← r.required "namespace" .text, ← r.required "deployment" .text⟩

end DeploymentKey

structure Tab where
  caption : String
  iconUrl : String
  frameUrl : String
  color : Option String := none
  /-- What is restarted from this tab. -/
  deployment : Option DeploymentKey := none
  deriving Repr, DecidableEq, Inhabited

namespace Tab

/-- The texts that a tab has to have. -/
inductive Field where
  | caption
  | iconUrl
  | frameUrl
  | space
  | deployment
  deriving Repr, DecidableEq

def Field.name : Field → String
  | .caption => "text"
  | .iconUrl => "icon_url"
  | .frameUrl => "iframe_url"
  | .space => "k8s.namespace"
  | .deployment => "k8s.deployment"

/-- The trimmed text of a required field, or the field if it is blank. -/
def required (field : Field) (s : String) : Except Field String :=
  let t := Text.trimmed s
  if t = "" then .error field else .ok t

/-- A colour that is not blank, trimmed. -/
def normalColor (color : Option String) : Option String :=
  (color.map Text.trimmed).filter (· ≠ "")

/-- The key with both names trimmed. -/
def normalKey (key : DeploymentKey) : Except Field DeploymentKey := do
  let space ← required .space key.space
  let name ← required .deployment key.name
  return ⟨space, name⟩

/-- The tab with every text trimmed, or its first required field that is blank. -/
def normalize (t : Tab) : Except Field Tab := do
  let caption ← required .caption t.caption
  let iconUrl ← required .iconUrl t.iconUrl
  let frameUrl ← required .frameUrl t.frameUrl
  let deployment ← t.deployment.mapM normalKey
  return { caption, iconUrl, frameUrl, color := normalColor t.color, deployment }

/-- Whether a restart can be asked for from the tab. -/
def restartable (t : Tab) : Bool := t.deployment.isSome

def decoder : Json.Decoder Tab := fun depth j => do
  let r ← Json.record ["text", "icon_url", "iframe_url", "tab_color", "k8s"] depth j
  let caption ← r.required "text" .text
  let iconUrl ← r.required "icon_url" .text
  let frameUrl ← r.required "iframe_url" .text
  let color ← r.get? "tab_color" .text
  let deployment ← r.get? "k8s" DeploymentKey.decoder
  return { caption, iconUrl, frameUrl, color, deployment }

end Tab

/-- A tab's position together with the deployment it restarts, if any. -/
structure Binding where
  tab : Nat
  key : Option DeploymentKey
  deriving Repr, DecidableEq, Inhabited

def Binding.restartable (b : Binding) : Bool := b.key.isSome

end TabBoard
