import TabBoard.Tab

/-!
# The catalog of tabs

The tabs of a dashboard, fixed when it starts. `Catalog.ofTabs` accepts a list with at least one
tab, all of whose required texts are not blank, and keeps the tabs trimmed and in order.
-/

namespace TabBoard

structure Catalog where
  tabs : List Tab
  deriving Repr, DecidableEq, Inhabited

namespace Catalog

/-- Why there is no catalog, no tab or no restart. -/
inductive Error where
  | noTabs
  | blank (field : Tab.Field)
  | unknownTab (index : Nat)
  | notRestartable (index : Nat)
  deriving Repr, DecidableEq

def Error.message : Error → String
  | .noTabs => "Validation error: configuration must define at least one tab"
  | .blank field => s!"Validation error: {field.name} must not be empty"
  | .unknownTab index => s!"tab index {index} is out of range"
  | .notRestartable index => s!"tab index {index} is not restartable"

/-- The catalog of the given tabs, each trimmed; the first blank field otherwise. -/
def ofTabs (tabs : List Tab) : Except Error Catalog :=
  if tabs.isEmpty then .error .noTabs
  else
    match tabs.mapM Tab.normalize with
    | .ok tabs => .ok ⟨tabs⟩
    | .error field => .error (.blank field)

def size (c : Catalog) : Nat := c.tabs.length

def tab (c : Catalog) (index : Nat) : Except Error Tab :=
  match c.tabs[index]? with
  | some t => .ok t
  | none => .error (.unknownTab index)

def binding (c : Catalog) (index : Nat) : Except Error Binding :=
  (c.tab index).map fun t => ⟨index, t.deployment⟩

def restartable (c : Catalog) (index : Nat) : Except Error Binding :=
  match c.binding index with
  | .error e => .error e
  | .ok b => if b.restartable then .ok b else .error (.notRestartable index)

def distinct (seen : List DeploymentKey) : List DeploymentKey → List DeploymentKey
  | [] => []
  | k :: ks => if k ∈ seen then distinct seen ks else k :: distinct (k :: seen) ks

/-- The deployments of the catalog, each once, in the order of first use. -/
def deployments (c : Catalog) : List DeploymentKey :=
  distinct [] (c.tabs.filterMap (·.deployment))

end Catalog

end TabBoard
