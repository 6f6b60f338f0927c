import TabBoard.Proofs.Json.Printing
import TabBoard.Proofs.Json.Variants
import TabBoard.Proofs.Lines

/-!
# Watch lines that are written in other ways

An object of a real cluster says far more about a deployment than is read of it, in any order. None
of this matters: an event is read from every way to write it (`Json.Varies`).

Each decoder of a part of a deployment has a lemma that says what it reads (`decoder_eq_ok_iff`), by
the values of each name. From it follow that the decoder is tolerant (`tolerates`) and that it reads
what is written (`decoder_toJson`).

An event is read in one of two ways, by whether its type comes before its object. `pairDecoder` is
what both have in common, and `decoder_of_pair` says that they agree with it.

**Theorem (`Cluster.Event.recognized`).** What is printed of a deployment is read back, and so is an
event about it from every text that writes the event in some way.
-/

namespace TabBoard

open Json (Clean Decoder Field Reads ReadsD Shape Tolerates Varies Writes depthLimit known
  valuesFor)

namespace Deployment

variable {depth : Nat} {ms : List (Option String × Json)}

/-! ## The fields of the records -/

def Metadata.fields : List Field :=
  [("name", some .null, .leaf), ("namespace", some .null, .leaf),
    ("generation", some .null, .leaf), ("resourceVersion", some .null, .leaf)]

def Spec.fields : List Field := [("replicas", some .null, .leaf)]

def Condition.fields : List Field :=
  [("type", some (.text ""), .leaf), ("status", some (.text ""), .leaf),
    ("reason", some .null, .leaf), ("message", some .null, .leaf),
    ("observedGeneration", some .null, .leaf)]

def Progress.fields : List Field :=
  [("observedGeneration", some .null, .leaf), ("replicas", some .null, .leaf),
    ("readyReplicas", some .null, .leaf), ("availableReplicas", some .null, .leaf),
    ("updatedReplicas", some .null, .leaf),
    ("conditions", some (.array []), .list (.record Condition.fields))]

/-- A deployment without metadata has metadata in which nothing is. -/
def fields : List Field :=
  [("metadata", some (Metadata.toJson {}), .record Metadata.fields),
    ("spec", some .null, .record Spec.fields), ("status", some .null, .record Progress.fields)]

/-! ## What the decoders read -/

theorem Metadata.decoder_eq_ok_iff {m : Metadata} :
    Metadata.decoder (depth + 1) (.object ms) = .ok m ↔
      Clean ["name", "namespace", "generation", "resourceVersion"] ms ∧
      ReadsD "name" ms depth none (Decoder.nullable .text) m.name ∧
      ReadsD "namespace" ms depth none (Decoder.nullable .text) m.space ∧
      ReadsD "generation" ms depth none (Decoder.nullable .int64) m.generation ∧
      ReadsD "resourceVersion" ms depth none (Decoder.nullable .text) m.resourceVersion := by
  simp only [Metadata.decoder, Json.bind_eq_ok_iff, Json.record_eq_ok_iff]
  constructor
  · rintro ⟨r, ⟨hclean, honce, rfl⟩, name, hname, space, hspace, generation, hgeneration, version,
      hversion, hm⟩
    cases hm
    exact ⟨hclean, (Json.get?_eq_ok_iff (by simp) (honce _ (by simp))).1 hname,
      (Json.get?_eq_ok_iff (by simp) (honce _ (by simp))).1 hspace,
      (Json.get?_eq_ok_iff (by simp) (honce _ (by simp))).1 hgeneration,
      (Json.get?_eq_ok_iff (by simp) (honce _ (by simp))).1 hversion⟩
  · rintro ⟨hclean, hname, hspace, hgeneration, hversion⟩
    refine ⟨_, ⟨hclean, ?_, rfl⟩, _, (Json.get?_eq_ok_iff (by simp) hname.length_le).2 hname,
      _, (Json.get?_eq_ok_iff (by simp) hspace.length_le).2 hspace,
      _, (Json.get?_eq_ok_iff (by simp) hgeneration.length_le).2 hgeneration,
      _, (Json.get?_eq_ok_iff (by simp) hversion.length_le).2 hversion, rfl⟩
    simp [hname.length_le, hspace.length_le, hgeneration.length_le, hversion.length_le]

theorem Spec.decoder_eq_ok_iff {s : Spec} :
    Spec.decoder (depth + 1) (.object ms) = .ok s ↔
      Clean ["replicas"] ms ∧
        ReadsD "replicas" ms depth none (Decoder.nullable .int32) s.replicas := by
  simp only [Spec.decoder, Json.bind_eq_ok_iff, Json.record_eq_ok_iff]
  constructor
  · rintro ⟨r, ⟨hclean, honce, rfl⟩, replicas, hreplicas, hs⟩
    cases hs
    exact ⟨hclean, (Json.get?_eq_ok_iff (by simp) (honce _ (by simp))).1 hreplicas⟩
  · rintro ⟨hclean, hreplicas⟩
    refine ⟨_, ⟨hclean, ?_, rfl⟩, _,
      (Json.get?_eq_ok_iff (by simp) hreplicas.length_le).2 hreplicas, rfl⟩
    simp [hreplicas.length_le]

theorem Condition.decoder_eq_ok_iff {c : Condition} :
    Condition.decoder (depth + 1) (.object ms) = .ok c ↔
      Clean ["type", "status", "reason", "message", "observedGeneration"] ms ∧
      ReadsD "type" ms depth "" .text c.kind ∧
      ReadsD "status" ms depth "" .text c.status ∧
      ReadsD "reason" ms depth none (Decoder.nullable .text) c.reason ∧
      ReadsD "message" ms depth none (Decoder.nullable .text) c.message ∧
      ReadsD "observedGeneration" ms depth none (Decoder.nullable .int64) c.generation := by
  simp only [Condition.decoder, Json.bind_eq_ok_iff, Json.record_eq_ok_iff]
  constructor
  · rintro ⟨r, ⟨hclean, honce, rfl⟩, kind, hkind, status, hstatus, reason, hreason, message,
      hmessage, generation, hgeneration, hc⟩
    cases hc
    exact ⟨hclean, (Json.getD_eq_ok_iff (by simp) (honce _ (by simp))).1 hkind,
      (Json.getD_eq_ok_iff (by simp) (honce _ (by simp))).1 hstatus,
      (Json.get?_eq_ok_iff (by simp) (honce _ (by simp))).1 hreason,
      (Json.get?_eq_ok_iff (by simp) (honce _ (by simp))).1 hmessage,
      (Json.get?_eq_ok_iff (by simp) (honce _ (by simp))).1 hgeneration⟩
  · rintro ⟨hclean, hkind, hstatus, hreason, hmessage, hgeneration⟩
    refine ⟨_, ⟨hclean, ?_, rfl⟩, _, (Json.getD_eq_ok_iff (by simp) hkind.length_le).2 hkind,
      _, (Json.getD_eq_ok_iff (by simp) hstatus.length_le).2 hstatus,
      _, (Json.get?_eq_ok_iff (by simp) hreason.length_le).2 hreason,
      _, (Json.get?_eq_ok_iff (by simp) hmessage.length_le).2 hmessage,
      _, (Json.get?_eq_ok_iff (by simp) hgeneration.length_le).2 hgeneration, rfl⟩
    simp [hkind.length_le, hstatus.length_le, hreason.length_le, hmessage.length_le,
      hgeneration.length_le]

theorem Progress.decoder_eq_ok_iff {p : Progress} :
    Progress.decoder (depth + 1) (.object ms) = .ok p ↔
      Clean ["observedGeneration", "replicas", "readyReplicas", "availableReplicas",
        "updatedReplicas", "conditions"] ms ∧
      ReadsD "observedGeneration" ms depth none (Decoder.nullable .int64) p.generation ∧
      ReadsD "replicas" ms depth none (Decoder.nullable .int32) p.replicas ∧
      ReadsD "readyReplicas" ms depth none (Decoder.nullable .int32) p.ready ∧
      ReadsD "availableReplicas" ms depth none (Decoder.nullable .int32) p.available ∧
      ReadsD "updatedReplicas" ms depth none (Decoder.nullable .int32) p.updated ∧
      ReadsD "conditions" ms depth [] (.list Condition.decoder) p.conditions := by
  simp only [Progress.decoder, Json.bind_eq_ok_iff, Json.record_eq_ok_iff]
  constructor
  · rintro ⟨r, ⟨hclean, honce, rfl⟩, generation, hgeneration, replicas, hreplicas, ready, hready,
      available, havailable, updated, hupdated, conditions, hconditions, hp⟩
    cases hp
    exact ⟨hclean, (Json.get?_eq_ok_iff (by simp) (honce _ (by simp))).1 hgeneration,
      (Json.get?_eq_ok_iff (by simp) (honce _ (by simp))).1 hreplicas,
      (Json.get?_eq_ok_iff (by simp) (honce _ (by simp))).1 hready,
      (Json.get?_eq_ok_iff (by simp) (honce _ (by simp))).1 havailable,
      (Json.get?_eq_ok_iff (by simp) (honce _ (by simp))).1 hupdated,
      (Json.getD_eq_ok_iff (by simp) (honce _ (by simp))).1 hconditions⟩
  · rintro ⟨hclean, hgeneration, hreplicas, hready, havailable, hupdated, hconditions⟩
    refine ⟨_, ⟨hclean, ?_, rfl⟩,
      _, (Json.get?_eq_ok_iff (by simp) hgeneration.length_le).2 hgeneration,
      _, (Json.get?_eq_ok_iff (by simp) hreplicas.length_le).2 hreplicas,
      _, (Json.get?_eq_ok_iff (by simp) hready.length_le).2 hready,
      _, (Json.get?_eq_ok_iff (by simp) havailable.length_le).2 havailable,
      _, (Json.get?_eq_ok_iff (by simp) hupdated.length_le).2 hupdated,
      _, (Json.getD_eq_ok_iff (by simp) hconditions.length_le).2 hconditions, rfl⟩
    simp [hgeneration.length_le, hreplicas.length_le, hready.length_le, havailable.length_le,
      hupdated.length_le, hconditions.length_le]

theorem decoder_eq_ok_iff {d : Deployment} :
    decoder (depth + 1) (.object ms) = .ok d ↔
      Clean ["metadata", "spec", "status"] ms ∧
      ReadsD "metadata" ms depth {} Metadata.decoder d.metadata ∧
      ReadsD "spec" ms depth none (Decoder.nullable Spec.decoder) d.spec ∧
      ReadsD "status" ms depth none (Decoder.nullable Progress.decoder) d.progress := by
  simp only [decoder, Json.bind_eq_ok_iff, Json.record_eq_ok_iff]
  constructor
  · rintro ⟨r, ⟨hclean, honce, rfl⟩, metadata, hmetadata, spec, hspec, progress, hprogress, hd⟩
    cases hd
    exact ⟨hclean, (Json.getD_eq_ok_iff (by simp) (honce _ (by simp))).1 hmetadata,
      (Json.get?_eq_ok_iff (by simp) (honce _ (by simp))).1 hspec,
      (Json.get?_eq_ok_iff (by simp) (honce _ (by simp))).1 hprogress⟩
  · rintro ⟨hclean, hmetadata, hspec, hprogress⟩
    refine ⟨_, ⟨hclean, ?_, rfl⟩,
      _, (Json.getD_eq_ok_iff (by simp) hmetadata.length_le).2 hmetadata,
      _, (Json.get?_eq_ok_iff (by simp) hspec.length_le).2 hspec,
      _, (Json.get?_eq_ok_iff (by simp) hprogress.length_le).2 hprogress, rfl⟩
    simp [hmetadata.length_le, hspec.length_le, hprogress.length_le]

/-! ## Every decoder is tolerant -/

theorem Metadata.tolerates : Tolerates Metadata.decoder (.record Metadata.fields) := by
  refine Json.tolerates_record (by decide) (fun _ _ h => by cases h) ?_
  intro depth ms ms' m hmoves h
  obtain ⟨hclean, hname, hspace, hgeneration, hversion⟩ := decoder_eq_ok_iff.1 h
  exact decoder_eq_ok_iff.2 ⟨hmoves.clean hclean,
    hmoves.nullable (by simp [fields]) (Json.tolerates_leaf _) hname,
    hmoves.nullable (by simp [fields]) (Json.tolerates_leaf _) hspace,
    hmoves.nullable (by simp [fields]) (Json.tolerates_leaf _) hgeneration,
    hmoves.nullable (by simp [fields]) (Json.tolerates_leaf _) hversion⟩

theorem Spec.tolerates : Tolerates Spec.decoder (.record Spec.fields) := by
  refine Json.tolerates_record (by decide) (fun _ _ h => by cases h) ?_
  intro depth ms ms' s hmoves h
  obtain ⟨hclean, hreplicas⟩ := decoder_eq_ok_iff.1 h
  exact decoder_eq_ok_iff.2 ⟨hmoves.clean hclean,
    hmoves.nullable (by simp [fields]) (Json.tolerates_leaf _) hreplicas⟩

theorem Condition.tolerates : Tolerates Condition.decoder (.record Condition.fields) := by
  refine Json.tolerates_record (by decide) (fun _ _ h => by cases h) ?_
  intro depth ms ms' c hmoves h
  obtain ⟨hclean, hkind, hstatus, hreason, hmessage, hgeneration⟩ := decoder_eq_ok_iff.1 h
  exact decoder_eq_ok_iff.2 ⟨hmoves.clean hclean,
    hmoves.readsD (by simp [fields]) (Json.tolerates_leaf _) (Json.defaultsTo_text "") hkind,
    hmoves.readsD (by simp [fields]) (Json.tolerates_leaf _) (Json.defaultsTo_text "") hstatus,
    hmoves.nullable (by simp [fields]) (Json.tolerates_leaf _) hreason,
    hmoves.nullable (by simp [fields]) (Json.tolerates_leaf _) hmessage,
    hmoves.nullable (by simp [fields]) (Json.tolerates_leaf _) hgeneration⟩

theorem Progress.tolerates : Tolerates Progress.decoder (.record Progress.fields) := by
  refine Json.tolerates_record (by decide) (fun _ _ h => by cases h) ?_
  intro depth ms ms' p hmoves h
  obtain ⟨hclean, hgeneration, hreplicas, hready, havailable, hupdated, hconditions⟩ :=
    decoder_eq_ok_iff.1 h
  exact decoder_eq_ok_iff.2 ⟨hmoves.clean hclean,
    hmoves.nullable (by simp [fields]) (Json.tolerates_leaf _) hgeneration,
    hmoves.nullable (by simp [fields]) (Json.tolerates_leaf _) hreplicas,
    hmoves.nullable (by simp [fields]) (Json.tolerates_leaf _) hready,
    hmoves.nullable (by simp [fields]) (Json.tolerates_leaf _) havailable,
    hmoves.nullable (by simp [fields]) (Json.tolerates_leaf _) hupdated,
    hmoves.readsD (by simp [fields]) Condition.tolerates.list Json.defaultsTo_empty hconditions⟩

/-! ## What is written is read -/

/-- The number, if there is one, has the given bounds. -/
def Within (low high : Int) (o : Option Int) : Prop := ∀ i, o = some i → low ≤ i ∧ i ≤ high

/-- A number of 64 bits, or none. -/
abbrev Within64 : Option Int → Prop := Within (-9223372036854775808) 9223372036854775807

/-- A number of 32 bits, or none. -/
abbrev Within32 : Option Int → Prop := Within (-2147483648) 2147483647

/-- Every number has the width of its field. -/
structure Progress.Sized (p : Progress) : Prop where
  generation : Within64 p.generation
  replicas : Within32 p.replicas
  ready : Within32 p.ready
  available : Within32 p.available
  updated : Within32 p.updated
  conditions : ∀ c ∈ p.conditions, Within64 c.generation

/-- Every number has the width of its field. -/
structure Sized (d : Deployment) : Prop where
  metadata : Within64 d.metadata.generation
  spec : ∀ s, d.spec = some s → Within32 s.replicas
  progress : ∀ p, d.progress = some p → p.Sized

theorem nullable_optText (s : Option String) :
    Decoder.nullable .text depth (.optText s) = .ok s := by
  cases s <;> rfl

theorem nullable_optInt {low high : Int} {o : Option Int} (h : Within low high o) :
    Decoder.nullable (.int low high) depth (optInt o) = .ok o := by
  cases o with
  | none => rfl
  | some i =>
    obtain ⟨hlow, hhigh⟩ := h i rfl
    have hint : Decoder.int low high depth (.int i) = .ok i := Json.decoder_int hlow hhigh depth
    rw [optInt, Json.nullable_eq (by simp [Json.int]), hint]
    rfl

theorem nullable_optRecord {α : Type} {d : Decoder α} {toJson : α → Json} {o : Option α}
    (hnull : ∀ a, toJson a ≠ .null) (h : ∀ a, o = some a → d depth (toJson a) = .ok a) :
    d.nullable depth ((o.map toJson).getD .null) = .ok o := by
  cases o with
  | none => rfl
  | some a =>
    rw [Option.map_some, Option.getD_some, Json.nullable_eq (hnull a), h a rfl]
    rfl

theorem Metadata.decoder_toJson {m : Metadata} (h : Within64 m.generation) :
    Metadata.decoder (depth + 1) m.toJson = .ok m := by
  refine decoder_eq_ok_iff.2 ⟨Json.clean_of_names (by simp), .inr ⟨_, rfl, nullable_optText _⟩,
    .inr ⟨_, rfl, nullable_optText _⟩, .inr ⟨_, rfl, nullable_optInt h⟩,
    .inr ⟨_, rfl, nullable_optText _⟩⟩

theorem Spec.decoder_toJson {s : Spec} (h : Within32 s.replicas) :
    Spec.decoder (depth + 1) s.toJson = .ok s :=
  decoder_eq_ok_iff.2 ⟨Json.clean_of_names (by simp), .inr ⟨_, rfl, nullable_optInt h⟩⟩

theorem Condition.decoder_toJson {c : Condition} (h : Within64 c.generation) :
    Condition.decoder (depth + 1) c.toJson = .ok c :=
  decoder_eq_ok_iff.2 ⟨Json.clean_of_names (by simp), .inr ⟨_, rfl, rfl⟩, .inr ⟨_, rfl, rfl⟩,
    .inr ⟨_, rfl, nullable_optText _⟩, .inr ⟨_, rfl, nullable_optText _⟩,
    .inr ⟨_, rfl, nullable_optInt h⟩⟩

theorem list_conditions {cs : List Condition} (h : ∀ c ∈ cs, Within64 c.generation) :
    Decoder.list Condition.decoder (depth + 2) (.array (cs.map (·.toJson))) = .ok cs := by
  show (cs.map (·.toJson)).mapM (Condition.decoder (depth + 1)) = .ok cs
  induction cs with
  | nil => rfl
  | cons c cs ih =>
    obtain ⟨hc, hcs⟩ := List.forall_mem_cons.1 h
    rw [List.map_cons, List.mapM_cons, Condition.decoder_toJson hc, ih hcs]
    rfl

theorem Progress.decoder_toJson {p : Progress} (h : p.Sized) :
    Progress.decoder (depth + 3) p.toJson = .ok p :=
  decoder_eq_ok_iff.2 ⟨Json.clean_of_names (by simp), .inr ⟨_, rfl, nullable_optInt h.generation⟩,
    .inr ⟨_, rfl, nullable_optInt h.replicas⟩, .inr ⟨_, rfl, nullable_optInt h.ready⟩,
    .inr ⟨_, rfl, nullable_optInt h.available⟩, .inr ⟨_, rfl, nullable_optInt h.updated⟩,
    .inr ⟨_, rfl, list_conditions h.conditions⟩⟩

/-- Every deployment is read back, if its numbers have the width of their fields. -/
theorem decoder_toJson {d : Deployment} (h : d.Sized) :
    decoder (depth + 4) d.toJson = .ok d :=
  decoder_eq_ok_iff.2 ⟨Json.clean_of_names (by simp),
    .inr ⟨_, rfl, Metadata.decoder_toJson h.metadata⟩,
    .inr ⟨_, rfl, nullable_optRecord (fun _ => Json.noConfusion) fun s hs =>
      Spec.decoder_toJson (h.spec s hs)⟩,
    .inr ⟨_, rfl, nullable_optRecord (fun _ => Json.noConfusion) fun p hp =>
      Progress.decoder_toJson (h.progress p hp)⟩⟩

/-- Metadata in which nothing is stands for metadata that is absent. -/
theorem defaultsTo_metadata : Json.DefaultsTo Metadata.decoder (.record Metadata.fields)
    (some (Metadata.toJson {})) {} := by
  intro w hw depth v m hv hm
  cases hw
  cases depth with
  | zero =>
    obtain rfl | ⟨_, _, _, rfl⟩ | ⟨_, _, h, _⟩ := hv.cases
    · cases hm
    · cases hm
    · cases h
  | succ depth =>
    have hempty : Metadata.decoder (depth + 1) (Metadata.toJson {}) = .ok {} :=
      Metadata.decoder_toJson fun _ h => by cases h
    exact Except.ok.inj (hm.symm.trans (Metadata.tolerates _ _ _ _ hv hempty))

theorem tolerates : Tolerates decoder (.record fields) := by
  refine Json.tolerates_record (by decide) (fun _ _ h => by cases h) ?_
  intro depth ms ms' d hmoves h
  obtain ⟨hclean, hmetadata, hspec, hprogress⟩ := decoder_eq_ok_iff.1 h
  exact decoder_eq_ok_iff.2 ⟨hmoves.clean hclean,
    hmoves.readsD (by simp [fields]) Metadata.tolerates defaultsTo_metadata hmetadata,
    hmoves.nullable (by simp [fields]) Spec.tolerates hspec,
    hmoves.nullable (by simp [fields]) Progress.tolerates hprogress⟩

/-! ## What is printed of a deployment -/

theorem proper_optInt (o : Option Int) : (optInt o).proper = true := by
  cases o <;> simp [optInt, Json.int, Json.proper]

theorem proper_conditions (cs : List Condition) :
    Json.properItems (cs.map (·.toJson)) = true := by
  induction cs with
  | nil => rfl
  | cons c cs ih =>
    have hc : c.toJson.proper = true := by simp [Condition.toJson, Json.proper, proper_optInt]
    rw [List.map_cons, Json.properItems, hc, ih]
    rfl

theorem proper_toJson (d : Deployment) : d.toJson.proper = true := by
  obtain ⟨metadata, spec, progress⟩ := d
  cases spec <;> cases progress <;>
    simp [toJson, Metadata.toJson, Spec.toJson, Progress.toJson, Json.proper, proper_optInt,
      proper_conditions]

theorem decode_render {d : Deployment} (h : d.Sized) :
    (Json.Document.ofText d.toJson.render).decode decoder = .ok d := by
  rw [Json.decode_render decoder (proper_toJson d)]
  exact decoder_toJson h

end Deployment

namespace Cluster.Event

variable {kind : Kind} {d : Deployment} {e : Event} {depth : Nat} {j : Json}

/-! ## Events about deployments -/

/-- The event of the kind about the deployment, if it is a kind of events about deployments. -/
def ofDeployment? (kind : Kind) (d : Deployment) : Option Event :=
  match kind with
  | .added => some (.added d)
  | .modified => some (.modified d)
  | .deleted => some (.deleted d)
  | .bookmark => none
  | .error => none

/-- An event about a deployment as the cluster may write it. -/
def toJson (kind : Kind) (d : Deployment) : Json :=
  .ofMembers [("type", .text kind.name), ("object", d.toJson)]

/-- Both members of an event have to be there. -/
def fields : List Field := [("type", none, .leaf), ("object", none, .record Deployment.fields)]

/-- Reads the kind and the deployment of an event, in whatever order they stand. -/
def pairDecoder : Decoder (Kind × Deployment) := fun depth j => do
  let r ← Json.record ["type", "object"] depth j
  let kind ← r.required "type" (.oneOf Kind.table)
  let d ← r.required "object" Deployment.decoder
  return (kind, d)

theorem pairDecoder_eq_ok_iff {ms : List (Option String × Json)} :
    pairDecoder (depth + 1) (.object ms) = .ok (kind, d) ↔
      Clean ["type", "object"] ms ∧ Reads "type" ms depth (.oneOf Kind.table) kind ∧
        Reads "object" ms depth Deployment.decoder d := by
  simp only [pairDecoder, Json.bind_eq_ok_iff, Json.record_eq_ok_iff]
  constructor
  · rintro ⟨r, ⟨hclean, honce, rfl⟩, kind, hkind, d, hd, hpair⟩
    cases hpair
    exact ⟨hclean, (Json.required_eq_ok_iff (by simp) (honce _ (by simp))).1 hkind,
      (Json.required_eq_ok_iff (by simp) (honce _ (by simp))).1 hd⟩
  · rintro ⟨hclean, hkind, hd⟩
    refine ⟨_, ⟨hclean, ?_, rfl⟩, _, (Json.required_eq_ok_iff (by simp) hkind.length_le).2 hkind,
      _, (Json.required_eq_ok_iff (by simp) hd.length_le).2 hd, rfl⟩
    simp [hkind.length_le, hd.length_le]

theorem pairDecoder_tolerates : Tolerates pairDecoder (.record fields) := by
  refine Json.tolerates_record (by decide) (fun _ _ h => by cases h) ?_
  intro depth ms ms' p hmoves h
  obtain ⟨hclean, hkind, hd⟩ := pairDecoder_eq_ok_iff.1 h
  exact pairDecoder_eq_ok_iff.2 ⟨hmoves.clean hclean,
    hmoves.reads (by simp [fields]) (Json.tolerates_leaf _) hkind,
    hmoves.reads (by simp [fields]) Deployment.tolerates hd⟩

theorem pairDecoder_toJson (h : d.Sized) :
    pairDecoder (depth + 5) (toJson kind d) = .ok (kind, d) := by
  have hkind : Decoder.oneOf Kind.table (depth + 4) (.text kind.name) = .ok kind := by
    cases kind <;> rfl
  exact pairDecoder_eq_ok_iff.2 ⟨Json.clean_of_names (by simp), ⟨_, rfl, hkind⟩,
    ⟨_, rfl, Deployment.decoder_toJson h⟩⟩

/-- The kind of an event says how its object is read. -/
theorem ofKind_of_deployment (he : ofDeployment? kind d = some e)
    (hd : Deployment.decoder depth j = .ok d) : ofKind kind depth j = .ok e := by
  cases kind with
  | bookmark | error => cases he
  | added | modified | deleted =>
    obtain rfl := Option.some.inj he
    rw [ofKind, hd]
    rfl

/-- **The two ways to read an event agree**, if the object can be kept until its kind is known. -/
theorem decoder_of_pair {ms : List (Option String × Json)} (he : ofDeployment? kind d = some e)
    (h : pairDecoder (depth + 1) (.object ms) = .ok (kind, d))
    (hreadable : (Json.object ms).readable (depth + 1) = true) :
    decoder (depth + 1) (.object ms) = .ok e := by
  obtain ⟨hclean, hkind, hd⟩ := pairDecoder_eq_ok_iff.1 h
  obtain ⟨object, hobject, hdecoded⟩ := hd
  have honce : (valuesFor "object" ms).length ≤ 1 := by simp [hobject]
  have hrecord : Json.record ["type", "object"] (depth + 1) (.object ms) =
      .ok ⟨depth, false, known ["type", "object"] ms⟩ :=
    Json.record_eq_ok_iff.2 ⟨hclean, by simp [hkind.length_le, honce], rfl⟩
  have htype : (⟨depth, false, known ["type", "object"] ms⟩ : Json.Record).required "type"
      (.oneOf Kind.table) = .ok kind :=
    (Json.required_eq_ok_iff (by simp) hkind.length_le).2 hkind
  have hevent : Reads "object" ms depth (ofKind kind) e :=
    ⟨object, hobject, ofKind_of_deployment he hdecoded⟩
  have hkept : Reads "object" ms depth .value object := by
    have hmem : (some "object", object) ∈ ms := Json.mem_valuesFor.1 (by simp [hobject])
    exact ⟨object, hobject, Json.value_eq_ok_iff.2 ⟨Json.readable_of_mem hreadable hmem, rfl⟩⟩
  have hlast : (⟨depth, false, known ["type", "object"] ms⟩ : Json.Record).required "object"
      (ofKind kind) = .ok e :=
    (Json.required_eq_ok_iff (by simp) honce).2 hevent
  have hvalue : (⟨depth, false, known ["type", "object"] ms⟩ : Json.Record).required "object"
      .value = .ok object :=
    (Json.required_eq_ok_iff (by simp) honce).2 hkept
  refine Json.bind_eq_ok_iff.2 ⟨_, hrecord, Json.bind_eq_ok_iff.2 ⟨kind, htype, ?_⟩⟩
  cases hfirst : objectFirst ms with
  | true =>
    simp only [hfirst, if_true]
    exact Json.bind_eq_ok_iff.2 ⟨object, hvalue, hlast⟩
  | false => simpa [hfirst] using hlast

/-! ## Lines that are written in other ways -/

/-- **An event is read from every other way to write it.** -/
theorem decoder_of_varies (hd : d.Sized) (he : ofDeployment? kind d = some e)
    (hj : Varies (.record fields) (toJson kind d) j) (hreadable : j.readable depthLimit = true) :
    decoder depthLimit j = .ok e := by
  have hpair : pairDecoder depthLimit j = .ok (kind, d) :=
    pairDecoder_tolerates _ _ _ _ hj (pairDecoder_toJson hd)
  obtain rfl | ⟨_, ms, _, rfl⟩ | ⟨_, _, h, _⟩ := hj.cases
  · exact decoder_of_pair he hpair hreadable
  · exact decoder_of_pair he hpair hreadable
  · cases h

/-- A text that writes an object has its brace in it. -/
theorem brace_mem {ms : List (Option String × Json)} {cs : List Char}
    (h : Writes (.element (.object ms)) cs) : '\x7b' ∈ cs := by
  cases h with
  | element _ _ h =>
    cases h with
    | emptyObject _ => simp
    | object _ => simp

/-- The octet of a character of ASCII is in the text that has the character. -/
theorem octet_mem {text : String} {c : Char} (h : c ∈ text.toList) (hc : c.toNat < 0x80) :
    UInt8.ofNat c.toNat ∈ Text.Utf8.encode text := by
  have hoctets := Text.Utf8.encode_ofList text.toList
  rw [String.ofList_toList] at hoctets
  rw [hoctets]
  exact List.mem_flatMap.2 ⟨c, h, by simp [Text.Utf8.encodeChar_of_lt hc]⟩

theorem not_blank {ms : List (Option String × Json)} {text : String}
    (h : Writes (.element (.object ms)) text.toList) :
    (Text.Utf8.encode text).all isBlankOctet = false := by
  have hmem := octet_mem (brace_mem h) (by decide)
  rw [List.all_eq_false]
  exact ⟨_, hmem, by decide⟩

/-- A line that ended is taken whole. -/
theorem nextFrom_line {line : Text.Utf8.Octets} (hline : lineFeed ∉ line)
    (hblank : line.all isBlankOctet = false) :
    Lines.nextFrom (line ++ [lineFeed]) = (some line, []) := by
  have hall : ∀ b ∈ line, (b != lineFeed) = true := by
    intro b hb
    rw [bne_iff_ne]
    rintro rfl
    exact hline hb
  have hdrop : (line ++ [lineFeed]).dropWhile (· != lineFeed) = [lineFeed] :=
    List.dropWhile_append_of_pos hall
  have htake : (line ++ [lineFeed]).takeWhile (· != lineFeed) = line := by
    rw [List.takeWhile_append_of_pos hall]
    simp
  rw [Lines.nextFrom]
  split
  · next heq => rw [hdrop] at heq; cases heq
  · next heq =>
    rw [hdrop] at heq
    cases heq
    rw [htake]
    exact if_neg (by simp [hblank])

/-- What is read of a deployment, and of an event about it. -/
structure Recognized (d : Deployment) : Prop where
  /-- What is printed of the deployment is the deployment. -/
  printed : (Json.Document.ofOctets (Text.Utf8.encode d.toJson.render)).decode Deployment.decoder =
    .ok d
  /-- A text that writes an event about the deployment, in whatever way, is read as this event, as
  long as all of it can be read. If it is one line, a watch gives out the event for it. -/
  written : ∀ (kind : Kind) (e : Event) (j : Json) (text : String),
    ofDeployment? kind d = some e → Varies (.record fields) (toJson kind d) j →
    j.readable depthLimit = true → Writes (.element j) text.toList →
    ofLine (Text.Utf8.encode text) = .ok e ∧
      (lineFeed ∉ Text.Utf8.encode text →
        (({} : Lines).push (Text.Utf8.encode text ++ [lineFeed])).next = (some (.ok e), {}))

/-- **Deployments and events about them are read back, however they are written**, if their numbers
have the width of their fields. -/
theorem recognized {d : Deployment} (hd : d.Sized) : Recognized d := by
  constructor
  · rw [Json.Document.ofOctets_encode]
    exact Deployment.decode_render hd
  · intro kind e j text he hj hreadable htext
    have hdecode := decoder_of_varies hd he hj hreadable
    have hline : ofLine (Text.Utf8.encode text) = .ok e := by
      rw [ofLine, Json.Document.ofOctets_encode, Json.ofText_of_writes htext, Json.Document.decode,
        hdecode]
      rfl
    refine ⟨hline, fun hfeed => ?_⟩
    obtain ⟨ms, rfl⟩ : ∃ ms, j = .object ms := by
      obtain rfl | ⟨_, ms, _, rfl⟩ | ⟨_, _, h, _⟩ := hj.cases
      · exact ⟨_, rfl⟩
      · exact ⟨ms, rfl⟩
      · cases h
    have hnext := nextFrom_line hfeed (not_blank htext)
    show (Option.map ofLine (Lines.nextFrom ([] ++ _)).1, Lines.mk (Lines.nextFrom ([] ++ _)).2) = _
    rw [List.nil_append, hnext, Option.map_some, hline]

/-- A deployment of which little is known. -/
def shop : Deployment := { metadata := { name := "shop", generation := some 3 } }

/-- An event about it: the object comes first, nothing is said of what is absent, and there are a
note and labels. -/
def shopEvent : Json := .ofMembers
  [("note", .array [.null]),
    ("object", .ofMembers [("metadata", .ofMembers
      [("labels", .object []), ("name", .text "shop"), ("generation", .int 3)])]),
    ("type", .text "MODIFIED")]

theorem varies_shop : Varies (.record fields) (toJson .modified shop) shopEvent := by
  have hmetadata : Varies (.record Deployment.Metadata.fields) shop.metadata.toJson
      (.ofMembers [("labels", .object []), ("name", .text "shop"), ("generation", .int 3)]) :=
    (Varies.rotate _ _).trans <| (Varies.drop_null (.tail _ (.head _))).trans <|
      (Varies.rotate _ _).trans <|
      (Varies.drop_null (.tail _ (.tail _ (.tail _ (.head _))))).trans <|
      .insert (by decide) rfl
  have hobject : Varies (.record Deployment.fields) shop.toJson
      (.ofMembers [("metadata", .ofMembers
        [("labels", .object []), ("name", .text "shop"), ("generation", .int 3)])]) :=
    (Varies.inside (.head _) hmetadata).trans <| (Varies.rotate _ _).trans <|
      (Varies.drop_null (.tail _ (.head _))).trans <| .drop_null (.tail _ (.tail _ (.head _)))
  exact (Varies.rotate _ _).trans <| (Varies.inside (.tail _ (.head _)) hobject).trans <|
    .insert (by decide) rfl

/-- For example, a watch goes on if the cluster learns to say more about its deployments. -/
theorem recognized_shop :
    shop.Sized ∧ Recognized shop ∧
      ofLine (Text.Utf8.encode shopEvent.render) = .ok (.modified shop) := by
  have hsized : shop.Sized := by
    refine ⟨?_, ?_, ?_⟩
    · intro i hi
      obtain rfl : 3 = i := Option.some.inj hi
      decide
    · intro s hs
      cases hs
    · intro p hp
      cases hp
  have hall : Recognized shop := recognized hsized
  have hline := hall.written .modified (.modified shop) shopEvent shopEvent.render rfl varies_shop
    (by decide +kernel) (Json.writes_render (by decide))
  exact ⟨hsized, hall, hline.1⟩

end Cluster.Event

end TabBoard
