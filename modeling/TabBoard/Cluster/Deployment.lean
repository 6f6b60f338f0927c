import TabBoard.Json.Decode
import TabBoard.Text.Blank

/-!
# Deployments as the cluster reports them

The part of a deployment object that a rollout is judged by. Everything may be absent, because the
cluster leaves out zero values.

`Deployment.decoder` reads an object, or an array of its fields in order; `Deployment.toJson` writes
every field, absent ones as `null`.
-/

namespace TabBoard

namespace Deployment

/-- Identity and version of a deployment object. -/
structure Metadata where
  name : Option String := none
  space : Option String := none
  /-- Counts the changes of the specification. -/
  generation : Option Int := none
  resourceVersion : Option String := none
  deriving Repr, DecidableEq, Inhabited

structure Spec where
  replicas : Option Int := none
  deriving Repr, DecidableEq, Inhabited

/-- One condition that the cluster reports: its kind and whether it is `True`, `False` or
`Unknown`. -/
structure Condition where
  kind : String := ""
  status : String := ""
  reason : Option String := none
  message : Option String := none
  /-- The generation that the condition speaks of. -/
  generation : Option Int := none
  deriving Repr, DecidableEq, Inhabited

/-- How far the cluster has come. -/
structure Progress where
  /-- The generation that the counts speak of. -/
  generation : Option Int := none
  replicas : Option Int := none
  ready : Option Int := none
  available : Option Int := none
  updated : Option Int := none
  conditions : List Condition := []
  deriving Repr, DecidableEq, Inhabited

end Deployment

structure Deployment where
  metadata : Deployment.Metadata := {}
  spec : Option Deployment.Spec := none
  progress : Option Deployment.Progress := none
  deriving Repr, DecidableEq, Inhabited

namespace Deployment

namespace Condition

def isTrue (c : Condition) : Bool := Text.sameIgnoringCase c.status "true"

def isFalse (c : Condition) : Bool := Text.sameIgnoringCase c.status "false"

end Condition

def generation (d : Deployment) : Option Int := d.metadata.generation

/-- How many replicas are wanted: what the specification asks for, else how many are counted. -/
def wanted (d : Deployment) : Option Int :=
  (d.spec.bind (·.replicas)).orElse fun _ => d.progress.bind (·.replicas)

/-! ## Reading -/

open Json (Decoder)

def Metadata.decoder : Decoder Metadata := fun depth j => do
  let r ← Json.record ["name", "namespace", "generation", "resourceVersion"] depth j
  let name ← r.get? "name" .text
  let space ← r.get? "namespace" .text
  let generation ← r.get? "generation" .int64
  let resourceVersion ← r.get? "resourceVersion" .text
  return { name, space, generation, resourceVersion }

def Spec.decoder : Decoder Spec := fun depth j => do
  let r ← Json.record ["replicas"] depth j
  return { replicas := ← r.get? "replicas" .int32 }

def Condition.decoder : Decoder Condition := fun depth j => do
  let r ← Json.record ["type", "status", "reason", "message", "observedGeneration"] depth j
  let kind ← r.getD "type" "" .text
  let status ← r.getD "status" "" .text
  let reason ← r.get? "reason" .text
  let message ← r.get? "message" .text
  let generation ← r.get? "observedGeneration" .int64
  return { kind, status, reason, message, generation }

def Progress.decoder : Decoder Progress := fun depth j => do
  let r ← Json.record ["observedGeneration", "replicas", "readyReplicas", "availableReplicas",
    "updatedReplicas", "conditions"] depth j
  let generation ← r.get? "observedGeneration" .int64
  let replicas ← r.get? "replicas" .int32
  let ready ← r.get? "readyReplicas" .int32
  let available ← r.get? "availableReplicas" .int32
  let updated ← r.get? "updatedReplicas" .int32
  let conditions ← r.getD "conditions" [] (.list Condition.decoder)
  return { generation, replicas, ready, available, updated, conditions }

def decoder : Decoder Deployment := fun depth j => do
  let r ← Json.record ["metadata", "spec", "status"] depth j
  let metadata ← r.getD "metadata" {} Metadata.decoder
  let spec ← r.get? "spec" Spec.decoder
  let progress ← r.get? "status" Progress.decoder
  return { metadata, spec, progress }

/-! ## Writing -/

def optInt : Option Int → Json
  | some i => .int i
  | none => .null

def Metadata.toJson (m : Metadata) : Json := .ofMembers
  [("name", .optText m.name), ("namespace", .optText m.space), ("generation", optInt m.generation),
    ("resourceVersion", .optText m.resourceVersion)]

def Spec.toJson (s : Spec) : Json := .ofMembers [("replicas", optInt s.replicas)]

def Condition.toJson (c : Condition) : Json := .ofMembers
  [("type", .text c.kind), ("status", .text c.status), ("reason", .optText c.reason),
    ("message", .optText c.message), ("observedGeneration", optInt c.generation)]

def Progress.toJson (p : Progress) : Json := .ofMembers
  [("observedGeneration", optInt p.generation), ("replicas", optInt p.replicas),
    ("readyReplicas", optInt p.ready), ("availableReplicas", optInt p.available),
    ("updatedReplicas", optInt p.updated), ("conditions", .array (p.conditions.map (·.toJson)))]

def toJson (d : Deployment) : Json := .ofMembers
  [("metadata", d.metadata.toJson), ("spec", (d.spec.map (·.toJson)).getD .null),
    ("status", (d.progress.map (·.toJson)).getD .null)]

end Deployment

end TabBoard
