import TabBoard.Json.Decode
import Mathlib.Data.List.Count
import Mathlib.Data.List.Nodup

/-!
# Reading records from objects

A record picks the members that have its names and skips the others. So what it reads is decided by
the values that the members of each name have (`valuesFor`), in whatever order the members stand.

**Theorem (`record_object`).** If no member breaks the text (`Clean`), a record can be read exactly
if none of its names appears twice, and then it holds the value of each name.
-/

namespace TabBoard.Json

variable {names names' : List String} {members : List (Option String × Json)} {name : String}
  {found found' : List (String × Json)} {depth : Nat}

/-- The values of the members with the given name, in order. -/
def valuesFor (name : String) (members : List (Option String × Json)) : List Json :=
  members.filterMap fun m => if m.1 = some name then some m.2 else none

/-- The members that have one of the names. -/
def known (names : List String) (members : List (Option String × Json)) : List (String × Json) :=
  members.filterMap fun m => m.1.bind fun name =>
    if name ∈ names then some (name, m.2) else none

/-- Whoever reads a record with these names can pass every member. -/
def Clean (names : List String) (members : List (Option String × Json)) : Prop :=
  ∀ m ∈ members, ∃ name, m.1 = some name ∧ (name ∈ names ∨ m.2.complete = true)

theorem mem_valuesFor {j : Json} : j ∈ valuesFor name members ↔ (some name, j) ∈ members := by
  simp only [valuesFor, List.mem_filterMap, Option.ite_none_right_eq_some, Option.some.injEq,
    Prod.exists]
  constructor
  · rintro ⟨n, j', hmem, rfl, rfl⟩
    exact hmem
  · exact fun hmem => ⟨_, _, hmem, rfl, rfl⟩

/-! ## The members that are picked -/

@[simp] theorem known_none (names : List String) (j : Json)
    (members : List (Option String × Json)) :
    known names ((none, j) :: members) = known names members := by simp [known]

@[simp] theorem known_some (names : List String) (name : String) (j : Json)
    (members : List (Option String × Json)) :
    known names ((some name, j) :: members) =
      if name ∈ names then (name, j) :: known names members else known names members := by
  by_cases hname : name ∈ names <;> simp [known, hname]

@[simp] theorem valuesFor_none (name : String) (j : Json) (members : List (Option String × Json)) :
    valuesFor name ((none, j) :: members) = valuesFor name members := by simp [valuesFor]

@[simp] theorem valuesFor_some (name name' : String) (j : Json)
    (members : List (Option String × Json)) :
    valuesFor name ((some name', j) :: members) =
      if name' = name then j :: valuesFor name members else valuesFor name members := by
  by_cases hname : name' = name <;> simp [valuesFor, hname]

theorem known_fst_mem {m : String × Json} (h : m ∈ known names members) : m.1 ∈ names := by
  obtain ⟨⟨n, j⟩, -, hm⟩ := List.mem_filterMap.1 h
  obtain ⟨name, -, hname⟩ := Option.bind_eq_some_iff.1 hm
  split_ifs at hname with hmem
  obtain rfl := Option.some.inj hname
  exact hmem

theorem lookup_known (hname : name ∈ names) (members : List (Option String × Json)) :
    (known names members).lookup name = (valuesFor name members).head? := by
  induction members with
  | nil => rfl
  | cons m members ih =>
    obtain ⟨_ | n, j⟩ := m
    · rw [known_none, valuesFor_none]
      exact ih
    · by_cases hn : n = name
      · subst hn
        simp [hname]
      · have hother : (name == n) = false := beq_eq_false_iff_ne.2 (Ne.symm hn)
        rw [known_some, valuesFor_some, if_neg hn, ← ih]
        split_ifs
        · rw [List.lookup_cons, hother]
        · rfl

theorem count_known (hname : name ∈ names) (members : List (Option String × Json)) :
    ((known names members).map (·.1)).count name = (valuesFor name members).length := by
  induction members with
  | nil => rfl
  | cons m members ih =>
    obtain ⟨_ | n, j⟩ := m
    · rw [known_none, valuesFor_none]
      exact ih
    · by_cases hn : n = name
      · subst hn
        simp [hname, ih]
      · rw [known_some, valuesFor_some, if_neg hn, ← ih]
        split_ifs
        · rw [List.map_cons, List.count_cons_of_ne hn]
        · rfl

/-- No name is picked twice exactly if no two members have one of the names. -/
theorem nodup_known_iff : ((known names members).map (·.1)).Nodup ↔
    ∀ name ∈ names, (valuesFor name members).length ≤ 1 := by
  rw [List.nodup_iff_count_le_one]
  constructor
  · intro h name hname
    rw [← count_known hname]
    exact h name
  · intro h name
    by_cases hname : name ∈ names
    · rw [count_known hname]
      exact h name hname
    · have hnot : name ∉ (known names members).map (·.1) := by
        rw [List.mem_map]
        rintro ⟨m, hm, rfl⟩
        exact hname (known_fst_mem hm)
      rw [List.count_eq_zero_of_not_mem hnot]
      exact Nat.zero_le 1

/-! ## Picking -/

/-- Nothing is picked past a member that breaks the text. -/
theorem clean_of_pick (h : pick names found members = .ok found') : Clean names members := by
  induction members generalizing found with
  | nil => simp [Clean]
  | cons m members ih =>
    obtain ⟨_ | name, j⟩ := m
    · cases h
    · simp only [pick] at h
      refine List.forall_mem_cons.2 ?_
      split_ifs at h with hname htwice hcomplete
      · exact ⟨⟨name, rfl, .inl hname⟩, ih h⟩
      · exact ⟨⟨name, rfl, .inr hcomplete⟩, ih h⟩

/-- **What is picked are the members with the names**, if none is found twice. -/
theorem pick_eq (hclean : Clean names members) (hfound : (found.map (·.1)).Nodup) :
    pick names found members =
      if ((found ++ known names members).map (·.1)).Nodup then .ok (found ++ known names members)
      else .error .mismatch := by
  induction members generalizing found with
  | nil =>
    have hnil : found ++ known names [] = found := List.append_nil found
    rw [hnil, if_pos hfound]
    rfl
  | cons m members ih =>
    obtain ⟨⟨name, hname, hpass⟩, hrest⟩ := List.forall_mem_cons.1 hclean
    obtain ⟨n, j⟩ := m
    obtain rfl : n = some name := hname
    rw [known_some, pick]
    by_cases hmem : name ∈ names
    · rw [if_pos hmem, if_pos hmem]
      by_cases htwice : found.any (·.1 == name) = true
      · -- the name was found before
        have hdouble : ¬ ((found ++ (name, j) :: known names members).map (·.1)).Nodup := by
          obtain ⟨m, hm, heq⟩ := List.any_eq_true.1 htwice
          rw [List.map_append, List.map_cons, List.nodup_append]
          rintro ⟨-, -, hapart⟩
          exact hapart m.1 (List.mem_map_of_mem hm) name List.mem_cons_self (beq_iff_eq.1 heq)
        rw [if_pos htwice, if_neg hdouble]
      · have hnew : ((found ++ [(name, j)]).map (·.1)).Nodup := by
          rw [List.map_append, List.nodup_append]
          refine ⟨hfound, List.nodup_singleton _, ?_⟩
          intro a ha b hb hsame
          obtain ⟨m, hm, rfl⟩ := List.mem_map.1 ha
          obtain rfl : b = name := by simpa using hb
          exact htwice (List.any_eq_true.2 ⟨m, hm, beq_iff_eq.2 hsame⟩)
        rw [if_neg htwice, ih hrest hnew, List.append_assoc]
        rfl
    · rw [if_neg hmem, if_neg hmem, if_pos (hpass.resolve_left hmem)]
      exact ih hrest hfound

/-! ## Records -/

/-- **A record can be read from an object exactly if none of its names appears twice.** -/
theorem record_object (hclean : Clean names members) (depth : Nat) :
    record names (depth + 1) (.object members) =
      if ∀ name ∈ names, (valuesFor name members).length ≤ 1 then
        .ok ⟨depth, false, known names members⟩
      else .error .mismatch := by
  have hpick : pick names [] members =
      if ((known names members).map (·.1)).Nodup then .ok (known names members)
      else .error .mismatch := pick_eq hclean List.nodup_nil
  simp only [record, hpick, nodup_known_iff]
  split_ifs <;> rfl

/-- Whoever can read a record passed every member, and found no name twice. -/
theorem record_eq_ok_iff {r : Record} : record names (depth + 1) (.object members) = .ok r ↔
    Clean names members ∧ (∀ name ∈ names, (valuesFor name members).length ≤ 1) ∧
      ⟨depth, false, known names members⟩ = r := by
  constructor
  · intro h
    have hclean : Clean names members := by
      cases hpick : pick names [] members with
      | error e => simp [record, hpick, Except.map] at h
      | ok found => exact clean_of_pick hpick
    rw [record_object hclean] at h
    split_ifs at h with honce
    exact ⟨hclean, honce, Except.ok.inj h⟩
  · rintro ⟨hclean, honce, rfl⟩
    rw [record_object hclean, if_pos honce]

/-- Members of no other names can be passed. -/
theorem clean_of_names {ms : List (String × Json)} (h : ∀ m ∈ ms, m.1 ∈ names) :
    Clean names (ms.map fun m => (some m.1, m.2)) := by
  intro _ hmember
  obtain ⟨m, hm, rfl⟩ := List.mem_map.1 hmember
  exact ⟨m.1, rfl, .inl (h m hm)⟩

/-- What is written as a record is read as one. -/
theorem record_ofMembers {ms : List (String × Json)} (hnodup : (ms.map (·.1)).Nodup)
    (hnames : ∀ m ∈ ms, m.1 ∈ names) (depth : Nat) :
    record names (depth + 1) (ofMembers ms) = .ok ⟨depth, false, ms⟩ := by
  have hknown : known names (ms.map fun m => (some m.1, m.2)) = ms := by
    clear hnodup
    induction ms with
    | nil => rfl
    | cons m ms ih =>
      obtain ⟨hm, hms⟩ := List.forall_mem_cons.1 hnames
      rw [List.map_cons, known_some, if_pos hm, ih hms]
  rw [ofMembers, record_object (clean_of_names hnames),
    if_pos (nodup_known_iff.1 (by rwa [hknown])), hknown]

/-! ## Fields -/

/-- The one value of the name reads as `a`. -/
def Reads {α : Type} (name : String) (members : List (Option String × Json)) (depth : Nat)
    (d : Decoder α) (a : α) : Prop :=
  ∃ j, valuesFor name members = [j] ∧ d depth j = .ok a

/-- The one value of the name reads as `a`, or the name does not appear and `a` is the default. -/
def ReadsD {α : Type} (name : String) (members : List (Option String × Json)) (depth : Nat)
    (default : α) (d : Decoder α) (a : α) : Prop :=
  valuesFor name members = [] ∧ a = default ∨ Reads name members depth d a

/-- The name does not appear, or it appears once and with such a value. -/
def IfThere (name : String) (members : List (Option String × Json)) (p : Json → Prop) : Prop :=
  valuesFor name members = [] ∨ ∃ j, valuesFor name members = [j] ∧ p j

section Fields

variable {α β : Type} {d : Decoder α} {default a : α}

theorem bind_eq_ok_iff {ε : Type} {x : Except ε α} {f : α → Except ε β} {b : β} :
    (x >>= f) = .ok b ↔ ∃ a, x = .ok a ∧ f a = .ok b := by
  cases x with
  | ok a =>
    constructor
    · exact fun h => ⟨a, rfl, h⟩
    · rintro ⟨a', h, hb⟩
      cases h
      exact hb
  | error e =>
    constructor
    · intro h
      cases h
    · rintro ⟨a, h, -⟩
      cases h

theorem required_eq_ok_iff (hname : name ∈ names) (honce : (valuesFor name members).length ≤ 1) :
    (⟨depth, false, known names members⟩ : Record).required name d = .ok a ↔
      Reads name members depth d a := by
  rw [Record.required, lookup_known hname, Reads]
  rcases hvalues : valuesFor name members with _ | ⟨j, _ | ⟨j', js⟩⟩
  · simp
  · simp
  · simp [hvalues] at honce

theorem getD_eq_ok_iff (hname : name ∈ names) (honce : (valuesFor name members).length ≤ 1) :
    (⟨depth, false, known names members⟩ : Record).getD name default d = .ok a ↔
      ReadsD name members depth default d a := by
  rw [Record.getD, lookup_known hname, ReadsD, Reads]
  rcases hvalues : valuesFor name members with _ | ⟨j, _ | ⟨j', js⟩⟩
  · simp [eq_comm]
  · simp
  · simp [hvalues] at honce

theorem get?_eq_ok_iff {a : Option α} (hname : name ∈ names)
    (honce : (valuesFor name members).length ≤ 1) :
    (⟨depth, false, known names members⟩ : Record).get? name d = .ok a ↔
      ReadsD name members depth none d.nullable a :=
  getD_eq_ok_iff hname honce

theorem Reads.length_le (h : Reads name members depth d a) :
    (valuesFor name members).length ≤ 1 := by
  obtain ⟨j, hj, -⟩ := h
  simp [hj]

theorem ReadsD.length_le (h : ReadsD name members depth default d a) :
    (valuesFor name members).length ≤ 1 := by
  obtain ⟨hnone, -⟩ | hone := h
  · simp [hnone]
  · exact hone.length_le

theorem ReadsD.unique {a' : α} (h : ReadsD name members depth default d a)
    (h' : ReadsD name members depth default d a') : a = a' := by
  obtain ⟨hnone, rfl⟩ | ⟨j, hone, ha⟩ := h
  · obtain ⟨-, rfl⟩ | ⟨j', hone', -⟩ := h'
    · rfl
    · simp [hnone] at hone'
  · obtain ⟨hnone, -⟩ | ⟨j', hone', ha'⟩ := h'
    · simp [hnone] at hone
    · obtain rfl : j = j' := by simpa [hone] using hone'
      exact Except.ok.inj (ha.symm.trans ha')

/-- What is asked of the value that is read is asked of the member, if it is there. -/
theorem exists_readsD_iff {q : α → Prop} (hdefault : q default) :
    (∃ a, ReadsD name members depth default d a ∧ q a) ↔
      IfThere name members fun j => ∃ a, d depth j = .ok a ∧ q a := by
  constructor
  · rintro ⟨a, ⟨hnone, -⟩ | ⟨j, hone, ha⟩, hq⟩
    · exact .inl hnone
    · exact .inr ⟨j, hone, a, ha, hq⟩
  · rintro (hnone | ⟨j, hone, a, ha, hq⟩)
    · exact ⟨default, .inl ⟨hnone, rfl⟩, hdefault⟩
    · exact ⟨a, .inr ⟨j, hone, ha⟩, hq⟩

theorem decoder_int {low high i : Int} (hlow : low ≤ i) (hhigh : i ≤ high) (depth : Nat) :
    Decoder.int low high depth (int i) = .ok i := by
  simp [int, Decoder.int, hlow, hhigh]

theorem decoder_nat {high n : Nat} (h : n ≤ high) (depth : Nat) :
    Decoder.nat high depth (nat n) = .ok n := by
  rw [Decoder.nat, decoder_int (by omega) (by omega)]
  rfl

theorem value_eq_ok_iff {j j' : Json} :
    Decoder.value depth j = .ok j' ↔ j.readable depth = true ∧ j = j' := by
  rw [Decoder.value]
  split_ifs with hreadable
  · simp [hreadable]
  · simp [hreadable]

/-- What can be read to its end can be read to its end in every member. -/
theorem readable_of_mem {n : Option String} {j : Json}
    (h : (object members).readable (depth + 1) = true) (hmem : (n, j) ∈ members) :
    j.readable depth = true := by
  have hall : readableMembers depth members = true := by simpa [readable] using h
  clear h
  induction members with
  | nil => cases hmem
  | cons m members ih =>
    simp only [readableMembers, Bool.and_eq_true] at hall
    obtain rfl | hmem := List.mem_cons.1 hmem
    · exact hall.1.2
    · exact ih hmem hall.2

end Fields

end TabBoard.Json
