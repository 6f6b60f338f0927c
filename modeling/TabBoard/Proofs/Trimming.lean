import TabBoard.Text.Blank
import Mathlib.Data.List.DropRight
import Mathlib.Data.List.TakeWhile

/-!
# Trimming

What is trimmed off a text stands at its ends and is of the class, and what is left has no character
of the class at an end (`Tidy`). These two determine what is left (`trimBy_padded`), so trimming
what was trimmed changes nothing.
-/

namespace TabBoard.Text

variable {p : Char → Bool} {cs lead trail : List Char}

/-! ## Up to a character -/

theorem takeWhile_stop {stop : Char} (hp : p stop = false) (front cs : List Char) :
    (front ++ stop :: cs).takeWhile p = front.takeWhile p := by
  induction front with
  | nil => simp [hp]
  | cons c front ih =>
    rw [List.cons_append, List.takeWhile_cons, List.takeWhile_cons, ih]

theorem dropWhile_stop {stop : Char} (hp : p stop = false) (front cs : List Char) :
    (front ++ stop :: cs).dropWhile p = front.dropWhile p ++ stop :: cs := by
  induction front with
  | nil => simp [hp]
  | cons c front ih =>
    rw [List.cons_append, List.dropWhile_cons, List.dropWhile_cons, ih]
    split_ifs <;> rfl

theorem trimEndBy_stop {stop : Char} (hp : p stop = false)
    (front cs : List Char) :
    trimEndBy p (front ++ stop :: cs) = front ++ stop :: trimEndBy p cs := by
  rw [trimEndBy, List.reverse_append, List.reverse_cons, List.append_assoc, List.singleton_append,
    dropWhile_stop hp]
  simp [trimEndBy]

theorem trimEndBy_eq_self (h : ∀ c ∈ cs, p c = false) : trimEndBy p cs = cs := by
  have hdrop : cs.reverse.dropWhile p = cs.reverse := by
    refine List.dropWhile_eq_self_iff.2 fun hpos => ?_
    simpa using h _ (List.mem_reverse.1 (List.getElem_mem hpos))
  rw [trimEndBy, hdrop, List.reverse_reverse]

/-! ## Both ends -/

/-- Neither end is of the class. -/
structure Tidy (p : Char → Bool) (cs : List Char) : Prop where
  head : ∀ c ∈ cs.head?, p c = false
  last : ∀ c ∈ cs.getLast?, p c = false

theorem tidy_nil (p : Char → Bool) : Tidy p [] := ⟨by simp, by simp⟩

theorem dropWhile_of_head (h : ∀ c ∈ cs.head?, p c = false) : cs.dropWhile p = cs := by
  cases cs with
  | nil => rfl
  | cons c cs => exact List.dropWhile_cons_of_neg (by simp [h c rfl])

theorem head_dropWhile (p : Char → Bool) (cs : List Char) :
    ∀ c ∈ (cs.dropWhile p).head?, p c = false := by
  intro c hc
  have hnot := List.head?_dropWhile_not p cs
  rw [Option.mem_def.1 hc] at hnot
  simpa using hnot

/-- Characters of the class end where others follow. -/
theorem takeWhile_ended (hlead : ∀ c ∈ lead, p c = true) (h : ∀ c ∈ cs.head?, p c = false) :
    (lead ++ cs).takeWhile p = lead := by
  rw [List.takeWhile_append_of_pos hlead]
  cases cs with
  | nil => simp
  | cons c cs => simp [h c rfl]

theorem dropWhile_ended (hlead : ∀ c ∈ lead, p c = true) (h : ∀ c ∈ cs.head?, p c = false) :
    (lead ++ cs).dropWhile p = cs := by
  rw [List.dropWhile_append_of_pos hlead, dropWhile_of_head h]

/-- What stands between characters of the class, and has none at its own ends, is left. -/
theorem trimBy_padded (hlead : ∀ c ∈ lead, p c = true) (htrail : ∀ c ∈ trail, p c = true)
    (h : Tidy p cs) : trimBy p (lead ++ cs ++ trail) = cs := by
  have hstart : trimStartBy p (lead ++ cs ++ trail) = (cs ++ trail).dropWhile p := by
    rw [trimStartBy, List.append_assoc, List.dropWhile_append_of_pos hlead]
  rw [trimBy, hstart]
  cases cs with
  | nil =>
    have hnil : trail.dropWhile p = [] := List.dropWhile_eq_nil_iff.2 htrail
    rw [List.nil_append, hnil]
    rfl
  | cons c rest =>
    rw [dropWhile_of_head (by simpa using h.head c rfl), trimEndBy, List.reverse_append,
      List.dropWhile_append_of_pos (by simpa using htrail),
      dropWhile_of_head (by rw [List.head?_reverse]; exact h.last), List.reverse_reverse]

/-- What is trimmed off is of the class, and what is left is tidy. -/
theorem exists_padding (p : Char → Bool) (cs : List Char) :
    ∃ lead trail, cs = lead ++ trimBy p cs ++ trail ∧ (∀ c ∈ lead, p c = true) ∧
      (∀ c ∈ trail, p c = true) ∧ Tidy p (trimBy p cs) := by
  have hend : trimStartBy p cs =
      trimBy p cs ++ ((trimStartBy p cs).reverse.takeWhile p).reverse := by
    rw [trimBy, trimEndBy, ← List.reverse_append, List.takeWhile_append_dropWhile,
      List.reverse_reverse]
  refine ⟨cs.takeWhile p, ((trimStartBy p cs).reverse.takeWhile p).reverse, ?_,
    fun c hc => List.mem_takeWhile_imp hc,
    fun c hc => List.mem_takeWhile_imp (List.mem_reverse.1 hc), ?_, ?_⟩
  · rw [List.append_assoc, ← hend, trimStartBy, List.takeWhile_append_dropWhile]
  · intro c hc
    -- the first character that is left is the first that is not of the class
    have hhead : c ∈ (trimStartBy p cs).head? := by
      rw [hend, List.head?_append_of_ne_nil _ fun hnil => by simp [hnil] at hc]
      exact hc
    exact head_dropWhile p cs c hhead
  · intro c hc
    rw [trimBy, trimEndBy, List.getLast?_reverse] at hc
    exact head_dropWhile p _ c hc

theorem tidy_trimBy (p : Char → Bool) (cs : List Char) : Tidy p (trimBy p cs) := by
  obtain ⟨-, -, -, -, -, h⟩ := exists_padding p cs
  exact h

theorem trimBy_eq_self_iff : trimBy p cs = cs ↔ Tidy p cs := by
  constructor
  · intro h
    rw [← h]
    exact tidy_trimBy p cs
  · intro h
    have hpadded := trimBy_padded (List.forall_mem_nil _) (List.forall_mem_nil _) h
    rwa [List.nil_append, List.append_nil] at hpadded

instance : Decidable (Tidy p cs) := decidable_of_iff _ trimBy_eq_self_iff

theorem trimBy_trimBy (p : Char → Bool) (cs : List Char) :
    trimBy p (trimBy p cs) = trimBy p cs := trimBy_eq_self_iff.2 (tidy_trimBy p cs)

theorem trimBy_eq_nil_iff : trimBy p cs = [] ↔ ∀ c ∈ cs, p c = true := by
  constructor
  · intro h
    obtain ⟨lead, trail, hcs, hlead, htrail, -⟩ := exists_padding p cs
    rw [h, List.append_nil] at hcs
    rw [hcs]
    exact List.forall_mem_append.2 ⟨hlead, htrail⟩
  · intro h
    have hpadded := trimBy_padded h (List.forall_mem_nil _) (tidy_nil p)
    rwa [List.append_nil, List.append_nil] at hpadded

/-- What is of the class around a text does not matter. -/
theorem trimBy_append (hlead : ∀ c ∈ lead, p c = true) (htrail : ∀ c ∈ trail, p c = true)
    (cs : List Char) : trimBy p (lead ++ cs ++ trail) = trimBy p cs := by
  obtain ⟨lead', trail', hcs, hlead', htrail', htidy⟩ := exists_padding p cs
  have hsplit : lead ++ cs ++ trail = (lead ++ lead') ++ trimBy p cs ++ (trail' ++ trail) := by
    conv_lhs => rw [hcs]
    simp only [List.append_assoc]
  rw [hsplit]
  exact trimBy_padded (List.forall_mem_append.2 ⟨hlead, hlead'⟩)
    (List.forall_mem_append.2 ⟨htrail', htrail⟩) htidy

theorem trimBy_trimStartBy (p : Char → Bool) (cs : List Char) :
    trimBy p (trimStartBy p cs) = trimBy p cs := by
  have hlead : ∀ c ∈ cs.takeWhile p, p c = true := fun c hc => List.mem_takeWhile_imp hc
  have h := trimBy_append hlead (List.forall_mem_nil _) (cs.dropWhile p)
  rw [List.append_nil, List.takeWhile_append_dropWhile] at h
  exact h.symm

theorem trimBy_trimEndBy (p : Char → Bool) (cs : List Char) :
    trimBy p (trimEndBy p cs) = trimBy p cs := by
  have htrail : ∀ c ∈ (cs.reverse.takeWhile p).reverse, p c = true :=
    fun c hc => List.mem_takeWhile_imp (List.mem_reverse.1 hc)
  have h := trimBy_append (List.forall_mem_nil _) htrail (cs.reverse.dropWhile p).reverse
  rw [List.nil_append, ← List.reverse_append, List.takeWhile_append_dropWhile,
    List.reverse_reverse] at h
  exact h.symm

theorem mem_of_mem_trimBy {c : Char} (h : c ∈ trimBy p cs) : c ∈ cs := by
  obtain ⟨lead, trail, hcs, -⟩ := exists_padding p cs
  rw [hcs]
  exact List.mem_append_left _ (List.mem_append_right _ h)

/-! ## Texts -/

theorem toList_trimmed (s : String) : (trimmed s).toList = trimBy isBlank s.toList :=
  String.toList_ofList

theorem trimmed_trimmed (s : String) : trimmed (trimmed s) = trimmed s := by
  rw [trimmed, toList_trimmed, trimBy_trimBy]
  rfl

theorem trimmed_eq_self_iff {s : String} : trimmed s = s ↔ Tidy isBlank s.toList := by
  rw [← trimBy_eq_self_iff, ← toList_trimmed, String.toList_inj]

/-- Nothing is left of a blank text. -/
theorem trimmed_eq_empty_iff {s : String} : trimmed s = "" ↔ isBlankText s = true := by
  rw [← String.toList_inj, toList_trimmed, isBlankText, List.all_eq_true]
  exact trimBy_eq_nil_iff

/-- Only blanks at the ends of `s` are missing in `s'`, and none is left at its own. -/
structure Trims (s s' : String) : Prop where
  padded : ∃ lead trail, s.toList = lead ++ s'.toList ++ trail ∧
    (∀ c ∈ lead, isBlank c = true) ∧ ∀ c ∈ trail, isBlank c = true
  tidy : Tidy isBlank s'.toList

theorem trims_iff {s s' : String} : Trims s s' ↔ s' = trimmed s := by
  constructor
  · rintro ⟨⟨lead, trail, hs, hlead, htrail⟩, htidy⟩
    rw [← String.toList_inj, toList_trimmed, hs, trimBy_padded hlead htrail htidy]
  · rintro rfl
    obtain ⟨lead, trail, hs, hlead, htrail, htidy⟩ := exists_padding isBlank s.toList
    rw [← toList_trimmed] at hs htidy
    exact ⟨⟨lead, trail, hs, hlead, htrail⟩, htidy⟩

/-- What is no blank is not trimmed. -/
theorem mem_trimmed {s : String} {c : Char} (hc : isBlank c = false) :
    c ∈ (trimmed s).toList ↔ c ∈ s.toList := by
  obtain ⟨lead, trail, hs, hlead, htrail, -⟩ := exists_padding isBlank s.toList
  have hout : ∀ cs : List Char, (∀ c ∈ cs, isBlank c = true) → c ∉ cs := by
    intro cs hcs hmem
    rw [hcs c hmem] at hc
    cases hc
  rw [toList_trimmed]
  constructor
  · intro hmem
    rw [hs]
    exact List.mem_append_left _ (List.mem_append_right _ hmem)
  · intro hmem
    rw [hs, List.mem_append, List.mem_append] at hmem
    exact (hmem.resolve_right (hout trail htrail)).resolve_left (hout lead hlead)

end TabBoard.Text
