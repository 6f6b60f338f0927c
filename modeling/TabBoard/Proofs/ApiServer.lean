import TabBoard.Config.Validate
import TabBoard.Proofs.Servers
import TabBoard.Proofs.Targets

/-!
# The address of the cluster, checked and used

A configured address is looked at twice. Its check asks for a scheme of the web and two slashes; the
client, which is made later, needs a URL.

**Theorem (`server_judged`).** Of the addresses that pass the check the client takes those whose
server is usable (`Url.Server.Usable`), and all its requests go to that server. These are not all of
them: each of the others is refused by the client with the fault of its server. Which hosts can be
read is up to the reading of names, whatever it is beyond plain names (`Url.Idna.Lawful`). Host
names, with a port of 16 bits and a path, are always usable, and plain names with a forbidden
character never are.

The shortest address that passes the check and is refused afterwards is `http://`
(`bare_scheme_passes`).
-/

namespace TabBoard

open Url (webSchemes counted Server serverFaults PlainName HostName IsPort)

namespace Config

theorem isWebAddress_iff {s : String} :
    isWebAddress s = true ↔ ∃ scheme ∈ webSchemes, ∃ rest, s = scheme ++ "://" ++ rest := by
  have hstarts : ∀ scheme : String,
      s.startsWith (scheme ++ "://") = true ↔ ∃ rest, s = scheme ++ "://" ++ rest := by
    intro scheme
    rw [String.startsWith_string_iff]
    constructor
    · rintro ⟨rest, hrest⟩
      refine ⟨String.ofList rest, String.toList_inj.1 ?_⟩
      rw [← hrest, String.toList_append (s := scheme ++ "://"), String.toList_ofList]
    · rintro ⟨rest, rfl⟩
      rw [String.toList_append (s := scheme ++ "://")]
      exact List.prefix_append _ _
  have hboth : isWebAddress s = true ↔
      s.startsWith ("http" ++ "://") = true ∨ s.startsWith ("https" ++ "://") = true := by
    rw [isWebAddress, Bool.or_eq_true]
    rfl
  rw [hboth, hstarts, hstarts]
  simp [webSchemes]

end Config

namespace Url

/-! ## Extending keeps the server -/

/-- The URL is one of the server, and its path starts at the root. -/
structure On (u : Url) (scheme : String) (a : Authority) : Prop where
  scheme : u.scheme = scheme
  authority : u.authority = some a
  path : ∃ part parts, u.path = .segments (part :: parts)

variable {u : Url} {scheme : String} {a : Authority}

theorem exists_push (kind : SchemeKind) (s : String) (parts : List String) :
    ∃ part behind, (Path.segments parts).push kind s = .segments (part :: behind) := by
  have hsnoc : ∀ (parts : List String) (last : String), ∃ part behind,
      Path.segments (parts ++ [last]) = .segments (part :: behind) := by
    intro parts last
    obtain ⟨part, behind, h⟩ := List.exists_cons_of_ne_nil (by simp : parts ++ [last] ≠ [])
    exact ⟨part, behind, by rw [h]⟩
  unfold Path.push
  dsimp only
  split_ifs with _ hroot
  · exact ⟨"", [], rfl⟩
  · exact hsnoc parts ""
  · exact hsnoc parts.dropLast ""
  · exact ⟨_, [], rfl⟩
  · exact hsnoc parts (encodeSegment kind s)

theorem On.pushSegment (h : u.On scheme a) (s : String) : (u.pushSegment s).On scheme a := by
  unfold Url.pushSegment
  split_ifs
  · exact h
  · obtain ⟨part, parts, hpath⟩ := h.path
    refine ⟨h.scheme, h.authority, ?_⟩
    rw [hpath]
    exact exists_push _ _ _

theorem On.pushSegments (h : u.On scheme a) (names : List String) :
    (names.foldl Url.pushSegment u).On scheme a := by
  induction names generalizing u with
  | nil => exact h
  | cons s names ih => exact ih (h.pushSegment s)

theorem On.popEmptySegment (h : u.On scheme a) : u.popEmptySegment.On scheme a := by
  obtain ⟨part, parts, hpath⟩ := h.path
  unfold Url.popEmptySegment
  rw [hpath]
  dsimp only
  split_ifs with hlast
  · refine ⟨h.scheme, h.authority, ?_⟩
    obtain ⟨second, others, rfl⟩ : ∃ second others, parts = second :: others := by
      cases parts with
      | nil => simp at hlast
      | cons second others => exact ⟨second, others, rfl⟩
    exact ⟨part, (second :: others).dropLast, rfl⟩
  · exact h

theorem On.appendPairs (h : u.On scheme a) (ps : List (String × String)) :
    (u.appendPairs ps).On scheme a :=
  ⟨h.scheme, h.authority, h.path⟩

/-- The text of such a URL starts with its server, up to a slash. -/
theorem On.toText (h : u.On scheme a) :
    ∃ rest, u.toText = scheme ++ "://" ++ a.toText ++ "/" ++ rest := by
  obtain ⟨part, parts, hpath⟩ := h.path
  obtain ⟨query, htarget⟩ : ∃ query, u.target = u.path.toText ++ query := ⟨_, rfl⟩
  obtain ⟨fragment, htext⟩ : ∃ fragment,
      u.toText = u.scheme ++ ":" ++ ("//" ++ a.toText) ++ u.target ++ fragment := by
    unfold Url.toText
    rw [h.authority]
    exact ⟨_, rfl⟩
  have hmarks : "://" = ":" ++ "//" := rfl
  refine ⟨part ++ String.join (parts.map ("/" ++ ·)) ++ query ++ fragment, ?_⟩
  rw [htext, htarget, hpath, h.scheme, Path.toText, List.map_cons, String.join_cons, hmarks]
  simp only [String.append_assoc]

theorem walk_ne_nil (done : List String) {pieces : List String} (h : pieces ≠ []) :
    walk done pieces ≠ [] := by
  fun_induction walk done pieces
  all_goals simp_all

/-- What is read behind the slashes of a common scheme is on the server that stands there. -/
theorem on_finish (h : schemeKind scheme = .common) (a : Authority) (cs : List Char) :
    (finish scheme (some a) cs).On scheme a := by
  refine ⟨rfl, rfl, ?_⟩
  show ∃ part parts, rootedPath (schemeKind scheme) _ = .segments (part :: parts)
  rw [h]
  unfold rootedPath
  split
  · exact ⟨"", [], rfl⟩
  · next c rest _ =>
    have hne : ∀ path, segmentsFrom .common [] path ≠ [] := by
      intro path
      refine walk_ne_nil [] ?_
      rw [Ne, List.map_eq_nil_iff]
      exact Text.splitAll_ne_nil '/' _
    obtain ⟨part, parts, hparts⟩ := List.exists_cons_of_ne_nil (hne _)
    exact ⟨part, parts, by rw [hparts]⟩

/-! ## The server of an address -/

/-- The address is one of the web, and the server stands in it. -/
structure Names (address scheme : String) (p : Server) : Prop where
  web : scheme ∈ webSchemes
  stands : ∃ rest behind, address = scheme ++ "://" ++ rest ∧ p.In (counted rest) behind

variable {address : String} {p : Server}

theorem exists_names_iff :
    (∃ scheme p, Names address scheme p) ↔
      ∃ scheme ∈ webSchemes, ∃ rest, address = scheme ++ "://" ++ rest := by
  constructor
  · rintro ⟨scheme, p, hscheme, rest, behind, haddress, -⟩
    exact ⟨scheme, hscheme, rest, haddress⟩
  · rintro ⟨scheme, hscheme, rest, haddress⟩
    obtain ⟨p, behind, hin⟩ := Server.exists_in (counted rest)
    exact ⟨scheme, p, hscheme, rest, behind, haddress, hin⟩

theorem Names.ofText_of_usable [Idna] (h : Names address scheme p) (husable : p.Usable) :
    ∃ u a, ofText address = .ok u ∧ u.On scheme a ∧ Host.ofChars p.host = .ok a.host ∧
      a.port.or (defaultPort? scheme) = p.number.or (defaultPort? scheme) := by
  obtain ⟨rest, behind, rfl, hin⟩ := h.stands
  have hkind := schemeKind_web h.web
  obtain ⟨a, hread, hhost, hport⟩ := hin.authority?_of_usable husable hkind
  refine ⟨finish scheme (some a) behind, a, ?_, on_finish hkind a behind, hhost, hport⟩
  rw [ofText_web h.web, afterSlashes, hread]
  rfl

theorem Names.ofText_of_not_usable [Idna] (h : Names address scheme p) (husable : ¬ p.Usable) :
    ∃ e ∈ serverFaults, ofText address = .error e := by
  obtain ⟨rest, behind, rfl, hin⟩ := h.stands
  obtain ⟨e, he, hread⟩ := hin.authority?_of_not_usable husable (schemeKind_web h.web)
  refine ⟨e, he, ?_⟩
  rw [ofText_web h.web, afterSlashes, hread]
  rfl

theorem HostName.names {name port : List Char} (h : HostName name) (hport : IsPort port)
    (hscheme : scheme ∈ webSchemes) {path : String}
    (hpath : path = "" ∨ path.startsWith "/" = true) :
    Names (scheme ++ "://" ++ (String.ofList (name ++ port) ++ path)) scheme ⟨[], name, port⟩ := by
  obtain ⟨behind, hin⟩ := h.in_counted hport hpath
  exact ⟨hscheme, _, behind, rfl, hin⟩

end Url

namespace Cluster.Client

variable {c : Client} {scheme : String} {a : Url.Authority}

/-! ## Where requests go -/

theorem on_deploymentsUrl (h : c.base.On scheme a) (space : String) :
    (c.deploymentsUrl space).On scheme a :=
  h.popEmptySegment.pushSegments _

theorem on_deploymentUrl (h : c.base.On scheme a) (key : DeploymentKey) :
    (c.deploymentUrl key).On scheme a :=
  (on_deploymentsUrl h key.space).pushSegment key.name

theorem on_watchUrl (h : c.base.On scheme a) (key : DeploymentKey) (limit : Duration) :
    (c.watchUrl key limit).On scheme a :=
  (on_deploymentsUrl h key.space).appendPairs _

/-- If the call sends a request, it goes to the server. -/
def GoesTo (scheme : String) (a : Url.Authority) {m : Type → Type} [Monad m]
    (call : m (Except Error Http.Outgoing)) : Prop :=
  ∃ u : Url, Goes u call ∧ u.scheme = scheme ∧ u.authority = some a ∧
    ∃ rest, u.toText = scheme ++ "://" ++ a.toText ++ "/" ++ rest

theorem GoesTo.of_on {u : Url} (h : u.On scheme a) {m : Type → Type} [Monad m]
    {call : m (Except Error Http.Outgoing)} (hcall : Goes u call) : GoesTo scheme a call :=
  ⟨u, hcall, h.scheme, h.authority, h.toText⟩

/-- All requests of the client go to the server, whatever they are authorized with. -/
structure Reaches (c : Client) (scheme : String) (a : Url.Authority) : Prop where
  patch : ∀ {m : Type → Type} [Monad m] [LawfulMonad m] [FileSystem m] credential key marker,
    GoesTo scheme a (({ c with credential } : Client).patch key marker : m _)
  read : ∀ {m : Type → Type} [Monad m] [LawfulMonad m] [FileSystem m] credential key,
    GoesTo scheme a (({ c with credential } : Client).read key : m _)
  watch : ∀ {m : Type → Type} [Monad m] [LawfulMonad m] [FileSystem m] credential key limit,
    GoesTo scheme a (({ c with credential } : Client).watch key limit : m _)

theorem reaches_of_on (h : c.base.On scheme a) : Reaches c scheme a := by
  refine ⟨?_, ?_, ?_⟩
  · intro m _ _ _ credential key marker
    exact .of_on (on_deploymentUrl h key) (goes_request ..)
  · intro m _ _ _ credential key
    exact .of_on (on_deploymentUrl h key) (goes_request ..)
  · intro m _ _ _ credential key limit
    exact .of_on (on_watchUrl h key limit) (goes_request ..)

/-! ## The check and the client -/

open Url (Names)

/-- What becomes of an address when it is checked, and when it is used. -/
structure Judged [Url.Idna] (k : Config.Kubernetes) (address : String) : Prop where
  /-- What starts like an address of the web passes, and it has a server. -/
  passes : ({ k with apiServer := some address } : Config.Kubernetes).validate = .ok () ↔
    ∃ scheme p, Names address scheme p
  /-- What does not pass is named. -/
  refused : (¬ ∃ scheme p, Names address scheme p) →
    ({ k with apiServer := some address } : Config.Kubernetes).validate =
      .error (.apiServer address)
  /-- If the server is usable, there is a client, and it keeps to the host and the port. -/
  usable : ∀ scheme p, Names address scheme p → p.Usable →
    ∃ c a, ofAddress address = .ok c ∧ Reaches c scheme a ∧
      Url.Host.ofChars p.host = .ok a.host ∧
      a.port.or (Url.defaultPort? scheme) = p.number.or (Url.defaultPort? scheme)
  /-- Otherwise there is none, though the check passes. -/
  unusable : ∀ scheme p, Names address scheme p → ¬ p.Usable →
    ∃ e ∈ serverFaults, ofAddress address =
      .error (.setup s!"invalid API server URL '{address}': {e.message}")
  /-- A host name with a port and a path is a usable server. -/
  hostName : ∀ scheme ∈ webSchemes, ∀ name port path, HostName name → IsPort port →
    (path = "" ∨ path.startsWith "/" = true) →
    address = scheme ++ "://" ++ (String.ofList (name ++ port) ++ path) →
    Names address scheme ⟨[], name, port⟩ ∧ Server.Usable ⟨[], name, port⟩
  /-- A server is not usable if its host is a plain name with a forbidden character. -/
  forbidden : ∀ p : Server, PlainName p.host → '%' ∉ p.host → p.host.head? ≠ some '[' →
    p.host.any Url.Host.isForbidden = true → ¬ p.Usable

theorem ofAddress_of_on [Url.Idna] {address : String} {u : Url} (h : Url.ofText address = .ok u)
    (hu : u.On scheme a) : ofAddress address = .ok { base := u } := by
  obtain ⟨part, parts, hpath⟩ := hu.path
  have hbase : u.cannotBeBase = false := by rw [Url.cannotBeBase, hpath]
  unfold ofAddress
  rw [h]
  simp only [hbase, Bool.false_eq_true, if_false]

theorem ofAddress_of_error [Url.Idna] {address : String} {e : Url.Error}
    (h : Url.ofText address = .error e) :
    ofAddress address = .error (.setup s!"invalid API server URL '{address}': {e.message}") := by
  unfold ofAddress
  rw [h]

/-- **The check and the client agree on the addresses whose server is usable, and on no others.** -/
theorem server_judged [Url.Idna] [Url.Idna.Lawful] (k : Config.Kubernetes) (address : String) :
    Judged k address := by
  have hpasses : Config.isWebAddress address = true ↔ ∃ scheme p, Names address scheme p :=
    Config.isWebAddress_iff.trans Url.exists_names_iff.symm
  refine ⟨?passes, ?refused, ?usable, ?unusable, ?hostName, ?forbidden⟩
  case passes =>
    rw [← hpasses]
    unfold Config.Kubernetes.validate
    simp
  case refused =>
    intro hnot
    unfold Config.Kubernetes.validate
    simp only [if_neg (mt hpasses.1 hnot)]
  case usable =>
    intro scheme p hnames husable
    obtain ⟨u, a, hread, hon, hhost, hport⟩ := hnames.ofText_of_usable husable
    exact ⟨{ base := u }, a, ofAddress_of_on hread hon, reaches_of_on hon, hhost, hport⟩
  case unusable =>
    intro scheme p hnames husable
    obtain ⟨e, he, hread⟩ := hnames.ofText_of_not_usable husable
    exact ⟨e, he, ofAddress_of_error hread⟩
  case hostName =>
    rintro scheme hscheme name port path hname hport hpath rfl
    exact ⟨hname.names hport hscheme hpath, hname.usable hport⟩
  case forbidden =>
    intro p hplain hpercent hbracket hforbidden husable
    obtain ⟨host, hhost⟩ := husable.host
    rw [hplain.ofChars_of_forbidden hpercent hbracket hforbidden] at hhost
    cases hhost

/-- The client of an address with a host name, a port and a path keeps to them. -/
theorem server_judged_named :
    ∃ c a, ofAddress "https://cluster.local:6443/k8s" = .ok c ∧ Reaches c "https" a ∧
      a.host = .domain "cluster.local" ∧ a.port = some 6443 := by
  have hname : HostName "cluster.local".toList :=
    ⟨List.all_eq_true.1 (by decide),
      ⟨"cluster.".toList, 'l', "ocal".toList, by decide, by decide, by decide, by decide⟩,
      by decide⟩
  have hport : IsPort ":6443".toList :=
    .inr ⟨"6443".toList, rfl, List.all_eq_true.1 (by decide), by decide⟩
  have hjudged := server_judged {} "https://cluster.local:6443/k8s"
  obtain ⟨hnames, husable⟩ := hjudged.hostName "https" (by decide) "cluster.local".toList
    ":6443".toList "/k8s" hname hport (.inr (by decide +kernel)) (by decide +kernel)
  obtain ⟨c, a, hc, hreaches, hread, hnumber⟩ := hjudged.usable _ _ hnames husable
  refine ⟨c, a, hc, hreaches, ?_, ?_⟩
  · rw [hname.ofChars] at hread
    exact (Except.ok.inj hread).symm
  · have hnumber : a.port.or (some 443) = some 6443 := hnumber
    cases hwritten : a.port with
    | none => simp [hwritten] at hnumber
    | some n => simpa [hwritten] using hnumber

/-- **Not every address that passes the check can be used**: the scheme alone passes. -/
theorem bare_scheme_passes :
    ¬ ∀ (k : Config.Kubernetes) (address : String),
      ({ k with apiServer := some address } : Config.Kubernetes).validate = .ok () →
        ∃ c, ofAddress address = .ok c := by
  intro h
  have hpasses : ({ apiServer := some "http://" } : Config.Kubernetes).validate = .ok () := by
    decide +kernel
  obtain ⟨c, hc⟩ := h {} "http://" hpasses
  have hrefused : (ofAddress "http://").toOption = none := by decide +kernel
  rw [hc] at hrefused
  exact absurd hrefused (by simp [Except.toOption])

end Cluster.Client

end TabBoard
