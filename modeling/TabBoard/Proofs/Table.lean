import TabBoard.Table
import Mathlib.Data.List.Nodup

/-!
# Laws of tables

A table that is only built by `insert`, `erase` and `modify` holds no key twice (`Distinct`). Its
entries are then exactly what `get?` finds, and two such tables with the same members have the same
size.
-/

namespace TabBoard.Table

variable {κ υ : Type} [DecidableEq κ]

/-! ## Looking up -/

theorem get?_modify (t : Table κ υ) (k k' : κ) (f : υ → υ) :
    (t.modify k f).get? k' = if k = k' then (t.get? k').map f else t.get? k' := by
  simp only [get?, modify]
  induction t.entries with
  | nil => split_ifs <;> rfl
  | cons e es ih => grind

theorem contains_eq_false_iff (t : Table κ υ) (k : κ) : t.contains k = false ↔ t.get? k = none := by
  rw [contains_eq_isSome, Option.isSome_eq_false_iff, Option.isNone_iff_eq_none]

theorem modify_of_not_contains {t : Table κ υ} {k : κ} (h : t.contains k = false) (f : υ → υ) :
    t.modify k f = t := by
  have hid : ∀ e ∈ t.entries, (if e.1 = k then (e.1, f e.2) else e) = e := by
    intro e he
    rw [contains, List.any_eq_false] at h
    rw [if_neg (by simpa using h e he)]
  rw [modify, List.map_congr_left hid, List.map_id']

theorem get?_of_erase {t : Table κ υ} {k k' : κ} {v : υ} (h : (t.erase k).get? k' = some v) :
    t.get? k' = some v := by
  rw [get?_erase] at h
  split_ifs at h
  exact h

theorem mem_entries_of_get? {t : Table κ υ} {k : κ} {v : υ} (h : t.get? k = some v) :
    (k, v) ∈ t.entries := by
  obtain ⟨⟨k', v'⟩, he, rfl⟩ := Option.map_eq_some_iff.1 h
  have hk : k' = k := by simpa using List.find?_some he
  exact hk ▸ List.mem_of_find?_eq_some he

/-! ## Distinct keys -/

/-- No key comes twice. -/
def Distinct (t : Table κ υ) : Prop := t.keys.Nodup

omit [DecidableEq κ] in
theorem distinct_empty : ({} : Table κ υ).Distinct := List.nodup_nil

theorem keys_insertIn (k : κ) (v : υ) (es : List (κ × υ)) :
    (insertIn k v es).map (·.1) =
      if k ∈ es.map (·.1) then es.map (·.1) else es.map (·.1) ++ [k] := by
  induction es with
  | nil => rfl
  | cons e es ih =>
    obtain ⟨k', v'⟩ := e
    by_cases h : k' = k
    · simp [insertIn, h]
    · simp only [insertIn, if_neg h, List.map_cons, ih, List.mem_cons, Ne.symm h, false_or]
      split_ifs <;> rfl

theorem size_insert_ne_zero (t : Table κ υ) (k : κ) (v : υ) : (t.insert k v).size ≠ 0 := by
  intro hsize
  have hget : (t.insert k v).get? k = some v := by rw [get?_insert, if_pos rfl]
  rw [get?, List.eq_nil_of_length_eq_zero hsize] at hget
  cases hget

theorem Distinct.insert {t : Table κ υ} (h : t.Distinct) (k : κ) (v : υ) :
    (t.insert k v).Distinct := by
  unfold Distinct keys Table.insert at *
  rw [keys_insertIn]
  split_ifs with hk
  · exact h
  · rw [List.nodup_append]
    refine ⟨h, List.nodup_singleton k, ?_⟩
    intro a ha b hb
    rw [List.mem_singleton] at hb
    rintro rfl
    exact hk (hb ▸ ha)

theorem Distinct.erase {t : Table κ υ} (h : t.Distinct) (k : κ) : (t.erase k).Distinct :=
  h.sublist (List.filter_sublist.map _)

theorem Distinct.modify {t : Table κ υ} (h : t.Distinct) (k : κ) (f : υ → υ) :
    (t.modify k f).Distinct := by
  have hk : (t.modify k f).keys = t.keys := by
    simp only [keys, Table.modify, List.map_map]
    refine List.map_congr_left ?_
    intro e _
    simp only [Function.comp_apply]
    split_ifs <;> rfl
  rw [Distinct, hk]
  exact h

/-- **The entries of a table with distinct keys are what it finds.** -/
theorem Distinct.mem_entries {t : Table κ υ} (h : t.Distinct) {k : κ} {v : υ} :
    (k, v) ∈ t.entries ↔ t.get? k = some v := by
  refine ⟨?_, mem_entries_of_get?⟩
  intro hm
  unfold Distinct keys at h
  simp only [get?]
  generalize t.entries = es at h hm
  induction es with
  | nil => cases hm
  | cons e es ih =>
    obtain ⟨hfresh, hrest⟩ := List.nodup_cons.1 h
    rcases List.mem_cons.1 hm with rfl | hm
    · simp
    · have hne : e.1 ≠ k := by
        rintro rfl
        exact hfresh (List.mem_map.2 ⟨_, hm, rfl⟩)
      rw [List.find?_cons_of_neg (by simpa using hne)]
      exact ih hrest hm

omit [DecidableEq κ] in
theorem Distinct.nodup_entries {t : Table κ υ} (h : t.Distinct) : t.entries.Nodup :=
  List.Nodup.of_map _ h

end TabBoard.Table
