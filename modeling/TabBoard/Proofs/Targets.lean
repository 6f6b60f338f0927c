import TabBoard.Catalog
import TabBoard.Cluster.Client
import TabBoard.Proofs.Url
import Mathlib.Tactic.FinCases

/-!
# Which deployment a request is for

Restarts exclude each other by the key of a deployment, so two keys should never lead to the same
object of the cluster. A key is told by the path of an address and, for a watch, by its query.

As long as both names of a key stand as segments, they are read back from the address, except that
tabs and line breaks are lost in a path (`Addressed.path`, `Addressed.same`). So keys whose names
are *plain* have targets of their own (`Addressed.distinct`). The dots are the names that are not
told at all: of the namespaces `.` and `..` nothing is left in the path, and a catalog can have
deployments of both (`dots_share_target`).
-/

namespace TabBoard

open Url (heard)

/-- A name that is told as it is: not a dot or two, and without tabs and line breaks. -/
structure Url.Plain (s : String) : Prop where
  dot : s ≠ "."
  dots : s ≠ ".."
  kept : ∀ c ∈ s.toList, isDropped c = false

theorem Url.Plain.heard {s : String} (h : Plain s) : heard s = s := by
  have hfilter : s.toList.filter (fun c => !isDropped c) = s.toList := by
    apply List.filter_eq_self.mpr
    intro c hc
    rw [h.kept c hc]
    rfl
  rw [Url.heard, hfilter, String.ofList_toList]

theorem Url.Plain.stands {s : String} (h : Plain s) : Stands s := by
  rw [Stands, h.heard]
  exact ⟨h.dot, h.dots⟩

namespace DeploymentKey

/-- The key with both names as the path of an address tells them. -/
def heard (k : DeploymentKey) : DeploymentKey := ⟨Url.heard k.space, Url.heard k.name⟩

/-- Both names become segments. -/
structure Stands (k : DeploymentKey) : Prop where
  space : Url.Stands k.space
  name : Url.Stands k.name

/-- Both names are told as they are. -/
structure Plain (k : DeploymentKey) : Prop where
  space : Url.Plain k.space
  name : Url.Plain k.name

theorem Plain.stands {k : DeploymentKey} (h : k.Plain) : k.Stands := ⟨h.space.stands, h.name.stands⟩

theorem Plain.heard {k : DeploymentKey} (h : k.Plain) : k.heard = k := by
  rw [DeploymentKey.heard, h.space.heard, h.name.heard]

end DeploymentKey

namespace Cluster.Client

open Url (Stands)

/-! ## Addresses -/

/-- The steps to the deployments of a namespace. -/
def steps (space : String) : List String :=
  ["apis", "apps", "v1", "namespaces", space, "deployments"]

/-- The steps to a deployment. -/
def way (key : DeploymentKey) : List String := steps key.space ++ [key.name]

theorem way_inj {key key' : DeploymentKey} : way key = way key' ↔ key = key' := by
  cases key
  cases key'
  simp [way, steps]

theorem stands_steps {space : String} (h : Stands space) : ∀ s ∈ steps space, Stands s := by
  have hall : ∀ s ∈ ["apis", "apps", "v1", "namespaces", "deployments"], Stands s := by
    unfold Stands
    decide
  intro s hs
  by_cases heq : s = space
  · exact heq ▸ h
  · apply hall
    simpa [steps, heq] using hs

theorem stands_way {key : DeploymentKey} (h : key.Stands) : ∀ s ∈ way key, Stands s := by
  intro s hs
  obtain hs | hs := List.mem_append.mp hs
  · exact stands_steps h.space s hs
  · exact List.mem_singleton.mp hs ▸ h.name

theorem map_heard_steps (space : String) : (steps space).map heard = steps (heard space) := by
  have hall : ∀ s ∈ ["apis", "apps", "v1", "namespaces", "deployments"], heard s = s := by decide
  simp only [List.forall_mem_cons] at hall
  simp only [steps, List.map_cons, List.map_nil, hall]

theorem map_heard_way (key : DeploymentKey) : (way key).map heard = way key.heard := by
  rw [way, List.map_append, map_heard_steps]
  rfl

variable {c : Client}

theorem encodeSegment_apis_ne (kind : Url.SchemeKind) :
    Url.encodeSegment kind (heard "apis") ≠ "" := by
  cases kind <;> decide

theorem deploymentsUrl_eq (hc : c.base.cannotBeBase = false) {space : String}
    (h : Stands space) : c.deploymentsUrl space = c.base.onward (steps (heard space)) := by
  rw [← map_heard_steps]
  exact Url.foldl_pushSegment_onward hc (encodeSegment_apis_ne _) (stands_steps h)

theorem deploymentUrl_eq (hc : c.base.cannotBeBase = false) {key : DeploymentKey}
    (h : key.Stands) : c.deploymentUrl key = c.base.onward (way key.heard) := by
  rw [← map_heard_way]
  exact Url.foldl_pushSegment_onward hc (encodeSegment_apis_ne _) (stands_way h)

/-- The pairs in the query of a watch. -/
def watchPairs (key : DeploymentKey) (limit : Duration) : List (String × String) :=
  [("watch", "true"), ("fieldSelector", "metadata.name=" ++ key.name),
    ("timeoutSeconds", toString (max limit.secs 1))]

theorem query_deploymentsUrl (c : Client) (space : String) :
    (c.deploymentsUrl space).query = c.base.query := by
  have hpush (u : Url) (s : String) : (u.pushSegment s).query = u.query := by
    unfold Url.pushSegment
    split_ifs <;> rfl
  have hpop (u : Url) : u.popEmptySegment.query = u.query := by
    unfold Url.popEmptySegment
    split
    · split_ifs <;> rfl
    · rfl
  simp only [deploymentsUrl, List.foldl_cons, List.foldl_nil, hpush, hpop]

theorem queryPairs_watchUrl (c : Client) (key : DeploymentKey) (limit : Duration) :
    (c.watchUrl key limit).queryPairs = c.base.queryPairs ++ watchPairs key limit := by
  have hbase : (c.deploymentsUrl key.space).queryPairs = c.base.queryPairs := by
    rw [Url.queryPairs, query_deploymentsUrl, Url.queryPairs]
  rw [watchUrl, Url.queryPairs_appendPairs, hbase]
  rfl

theorem name_of_watchPairs {key key' : DeploymentKey} {limit limit' : Duration}
    (h : watchPairs key limit = watchPairs key' limit') : key.name = key'.name := by
  simp only [watchPairs, List.cons.injEq, Prod.mk.injEq, String.append_right_inj] at h
  exact h.2.1.2

/-! ## Requests -/

section

variable {m : Type → Type} [Monad m] [FileSystem m]

/-- If a call sends a request, it is for the URL. -/
def Goes (u : Url) (call : m (Except Error Http.Outgoing)) : Prop :=
  Except.map (·.url) <$> call = Except.map (fun _ => u.toText) <$> call

theorem goes_request [LawfulMonad m] (c : Client) (method : String) (u : Url)
    (headers : List (String × String)) (body : String) :
    Goes u (c.request method u headers body : m (Except Error Http.Outgoing)) := by
  unfold Goes request
  simp only [map_bind]
  refine congrArg _ (funext fun token => ?_)
  cases token with
  | error e => simp [Except.map]
  | ok token =>
    dsimp only
    split_ifs <;> simp [Except.map]

end

/-! ## Targets -/

/-- What the addresses of a client tell. -/
structure Addressed (c : Client) : Prop where
  /-- Marking and reading a deployment goes to its address, watching it to the address of watches.
  -/
  requests : ∀ {m : Type → Type} [Monad m] [LawfulMonad m] [FileSystem m] key marker limit,
    Goes (c.deploymentUrl key) (c.patch key marker : m _) ∧
      Goes (c.deploymentUrl key) (c.read key : m _) ∧
      Goes (c.watchUrl key limit) (c.watch key limit : m _)
  /-- The path of a deployment goes on from that of the base by the steps to its namespace and by
  its name, which are read back. -/
  path : ∀ key, key.Stands →
    (c.deploymentUrl key).Leads c.base (way key.heard)
  /-- The path of a watch stops in front of the name. -/
  watchPath : ∀ key limit, Stands key.space →
    (c.watchUrl key limit).Leads c.base (steps (heard key.space))
  /-- The name is read back from the query of a watch, behind what the base asks for. -/
  watchQuery : ∀ key limit,
    (c.watchUrl key limit).queryPairs = c.base.queryPairs ++ watchPairs key limit
  /-- Two targets are one only if all that is told of both keys agrees. -/
  same : ∀ key key', key.Stands → key'.Stands →
    ((c.deploymentUrl key).target = (c.deploymentUrl key').target ↔ key.heard = key'.heard)
  /-- A watch tells the name as it is. -/
  watchSame : ∀ key key' limit limit', Stands key.space → Stands key'.space →
    (c.watchUrl key limit).target = (c.watchUrl key' limit').target →
    heard key.space = heard key'.space ∧ key.name = key'.name
  /-- Keys with plain names have targets of their own. -/
  distinct : ∀ key key', key.Plain → key'.Plain → key ≠ key' →
    (c.deploymentUrl key).target ≠ (c.deploymentUrl key').target ∧
      ∀ limit limit', (c.watchUrl key limit).target ≠ (c.watchUrl key' limit').target

theorem leads_watchUrl (hc : c.base.cannotBeBase = false) {key : DeploymentKey}
    (h : Stands key.space) (limit : Duration) :
    (c.watchUrl key limit).Leads c.base (steps (heard key.space)) := by
  have hleads := Url.leads_onward c.base (steps (heard key.space))
  rwa [← deploymentsUrl_eq hc h] at hleads

theorem target_deploymentUrl_iff (hc : c.base.cannotBeBase = false) {key key' : DeploymentKey}
    (h : key.Stands) (h' : key'.Stands) :
    (c.deploymentUrl key).target = (c.deploymentUrl key').target ↔ key.heard = key'.heard := by
  rw [deploymentUrl_eq hc h, deploymentUrl_eq hc h']
  constructor
  · intro ht
    exact way_inj.mp ((Url.leads_onward _ _).eq_of_target (Url.leads_onward _ _) ht).1
  · intro heq
    rw [heq]

theorem of_target_watchUrl (hc : c.base.cannotBeBase = false) {key key' : DeploymentKey}
    {limit limit' : Duration} (h : Stands key.space) (h' : Stands key'.space)
    (ht : (c.watchUrl key limit).target = (c.watchUrl key' limit').target) :
    heard key.space = heard key'.space ∧ key.name = key'.name := by
  obtain ⟨hnames, hquery⟩ :=
    (leads_watchUrl hc h limit).eq_of_target (leads_watchUrl hc h' limit') ht
  have hpairs : (c.watchUrl key limit).queryPairs = (c.watchUrl key' limit').queryPairs := by
    rw [Url.queryPairs, hquery, Url.queryPairs]
  rw [queryPairs_watchUrl, queryPairs_watchUrl] at hpairs
  have hspace : heard key.space = heard key'.space := by simpa [steps] using hnames
  exact ⟨hspace, name_of_watchPairs (List.append_cancel_left hpairs)⟩

theorem Addressed.of_base (hc : c.base.cannotBeBase = false) : Addressed c := by
  refine ⟨?_, ?_, ?_, ?_, ?_, ?_, ?_⟩
  · intro m _ _ _ key marker limit
    exact ⟨goes_request .., goes_request .., goes_request ..⟩
  · intro key hkey
    rw [deploymentUrl_eq hc hkey]
    exact Url.leads_onward c.base (way key.heard)
  · intro key limit hkey
    exact leads_watchUrl hc hkey limit
  · intro key limit
    exact queryPairs_watchUrl c key limit
  · intro key key' hkey hkey'
    exact target_deploymentUrl_iff hc hkey hkey'
  · intro key key' limit limit' hkey hkey'
    exact of_target_watchUrl hc hkey hkey'
  · intro key key' hkey hkey' hne
    constructor
    · intro ht
      have heq := (target_deploymentUrl_iff hc hkey.stands hkey'.stands).mp ht
      rw [hkey.heard, hkey'.heard] at heq
      exact hne heq
    · intro limit limit' ht
      obtain ⟨hspace, hname⟩ := of_target_watchUrl hc hkey.space.stands hkey'.space.stands ht
      rw [hkey.space.heard, hkey'.space.heard] at hspace
      apply hne
      cases key
      cases key'
      exact congrArg₂ DeploymentKey.mk hspace hname

/-- The addresses of every client tell the deployments that they are for, as far as the names of
these stand as segments. -/
theorem addressed {address : String} {c : Client} (h : ofAddress address = .ok c)
    (credential : Credential) : Addressed { c with credential } := by
  apply Addressed.of_base
  show c.base.cannotBeBase = false
  unfold ofAddress at h
  split at h
  · exact absurd h (by simp)
  · split_ifs at h with hbase
    cases h
    exact Bool.eq_false_iff.mpr hbase

/-- The client of a cluster at `http://host`. -/
def atHost : Client :=
  { base :=
      { scheme := "http", authority := some { host := .domain "host" }, path := .segments [""] } }

theorem ofAddress_host : ofAddress "http://host" = .ok atHost := by decide +kernel

/-- For example, slashes in names do not move the border between them. -/
theorem addressed_host :
    ofAddress "http://host" = .ok atHost ∧ Addressed { atHost with credential := .token "t" } ∧
      (atHost.deploymentUrl ⟨"a/b", "c"⟩).target ≠ (atHost.deploymentUrl ⟨"a", "b/c"⟩).target := by
  have hplain : ∀ s ∈ ["a/b", "c", "a", "b/c"], Url.Plain s := by
    intro s hs
    fin_cases hs <;> exact ⟨by decide, by decide, by simp [Url.isDropped]⟩
  have hfirst : DeploymentKey.Plain ⟨"a/b", "c"⟩ := ⟨hplain _ (by simp), hplain _ (by simp)⟩
  have hsecond : DeploymentKey.Plain ⟨"a", "b/c"⟩ := ⟨hplain _ (by simp), hplain _ (by simp)⟩
  have hall (credential : Credential) : Addressed { atHost with credential } :=
    addressed ofAddress_host credential
  exact ⟨ofAddress_host, hall (.token "t"),
    ((hall .anonymous).distinct _ _ hfirst hsecond (by decide)).1⟩

/-- **Two deployments of one catalog share their target**: the dots leave nothing in a path. -/
theorem dots_share_target :
    ¬ ∀ address c, ofAddress address = .ok c → ∀ tabs catalog, Catalog.ofTabs tabs = .ok catalog →
      ∀ key ∈ catalog.deployments, ∀ key' ∈ catalog.deployments, key ≠ key' →
        (c.deploymentUrl key).target ≠ (c.deploymentUrl key').target := by
  intro h
  let tab (space : String) : Tab := ⟨"Shop", "/icon", "/shop", none, some ⟨space, "shop"⟩⟩
  have hcatalog : Catalog.ofTabs [tab ".", tab ".."] = .ok ⟨[tab ".", tab ".."]⟩ := by
    decide +kernel
  have htargets : (atHost.deploymentUrl ⟨".", "shop"⟩).target =
      (atHost.deploymentUrl ⟨"..", "shop"⟩).target := by
    decide +kernel
  exact h "http://host" atHost ofAddress_host _ _ hcatalog ⟨".", "shop"⟩ (by decide)
    ⟨"..", "shop"⟩ (by decide) (by decide) htargets

end Cluster.Client

end TabBoard
