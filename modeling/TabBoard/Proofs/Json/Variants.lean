import TabBoard.Proofs.Records

/-!
# Values that are written in other ways

A reader that knows the fields of a record does not care how the record is written: in which order
its members stand, whether a member that says nothing is there, and what else is there. `Varies`
relates two values of which the second is such another way to write the first, by what the reader
expects there (`Shape`).

A decoder `Tolerates` a shape if it reads all of these values alike. For records this has to be
shown for one step (`tolerates_record`), which moves the values of every field in one of three ways
(`Turns`).
-/

namespace TabBoard.Json

/-- What a reader expects of a value. -/
inductive Shape where
  /-- A value that is read as it is. -/
  | leaf
  /-- An object: the name of each field, the value that it stands for if it is absent, unless it has
  to be there, and its shape. -/
  | record (fields : List (String × Option Json × Shape))
  /-- An array of items of one shape. -/
  | list (item : Shape)

/-- A field of a record. -/
abbrev Field := String × Option Json × Shape

/-- The second value is another way to write the first. -/
inductive Varies : Shape → Json → Json → Prop
  | refl (shape : Shape) (j : Json) : Varies shape j j
  | trans {shape : Shape} {j j' j'' : Json} (h : Varies shape j j') (h' : Varies shape j' j'') :
      Varies shape j j''
  /-- The members stand in another order. -/
  | perm {fields : List Field} {ms ms' : List (Option String × Json)} (h : ms.Perm ms') :
      Varies (.record fields) (.object ms) (.object ms')
  /-- A member is missing that stands for the value of an absent field. -/
  | drop {fields : List Field} {name : String} {default v : Json} {shape : Shape}
      {ms : List (Option String × Json)} (hfield : (name, some default, shape) ∈ fields)
      (h : Varies shape default v) :
      Varies (.record fields) (.object ((some name, v) :: ms)) (.object ms)
  /-- There is another member, of a name that no field has. -/
  | insert {fields : List Field} {name : String} {v : Json} {ms : List (Option String × Json)}
      (hname : name ∉ fields.map (·.1)) (hv : v.complete = true) :
      Varies (.record fields) (.object ms) (.object ((some name, v) :: ms))
  /-- The value of a field is written in another way. -/
  | inside {fields : List Field} {name : String} {default : Option Json} {v v' : Json}
      {shape : Shape} {ms : List (Option String × Json)} (hfield : (name, default, shape) ∈ fields)
      (h : Varies shape v v') :
      Varies (.record fields) (.object ((some name, v) :: ms)) (.object ((some name, v') :: ms))
  /-- An item is written in another way. -/
  | item {shape : Shape} {v v' : Json} {vs ws : List Json} (h : Varies shape v v') :
      Varies (.list shape) (.array (vs ++ v :: ws)) (.array (vs ++ v' :: ws))

/-- Whatever the decoder reads, it reads from every other way to write the value. -/
def Tolerates {α : Type} (d : Decoder α) (shape : Shape) : Prop :=
  ∀ depth j j' a, Varies shape j j' → d depth j = .ok a → d depth j' = .ok a

/-- Every way to write the value of an absent field reads as `a`, if it can be read. -/
def DefaultsTo {α : Type} (d : Decoder α) (shape : Shape) (default : Option Json) (a : α) : Prop :=
  ∀ w, default = some w → ∀ depth v b, Varies shape w v → d depth v = .ok b → b = a

section Values

variable {α : Type} {d : Decoder α} {shape : Shape} {j j' : Json}

/-! ## Values that stay what they are -/

/-- A value stays an object, stays an array, or stays as it is. -/
theorem Varies.cases (h : Varies shape j j') :
    j = j' ∨ (∃ ms ms', j = .object ms ∧ j' = .object ms') ∨
      ∃ vs vs', j = .array vs ∧ j' = .array vs' := by
  induction h with
  | refl => exact .inl rfl
  | trans h h' ih ih' =>
    obtain rfl | ⟨ms, ms', rfl, rfl⟩ | ⟨vs, vs', rfl, rfl⟩ := ih
    · exact ih'
    · obtain rfl | ⟨_, ms'', _, rfl⟩ | ⟨_, _, h, _⟩ := ih'
      · exact .inr (.inl ⟨_, _, rfl, rfl⟩)
      · exact .inr (.inl ⟨_, _, rfl, rfl⟩)
      · cases h
    · obtain rfl | ⟨_, _, h, _⟩ | ⟨_, vs'', _, rfl⟩ := ih'
      · exact .inr (.inr ⟨_, _, rfl, rfl⟩)
      · cases h
      · exact .inr (.inr ⟨_, _, rfl, rfl⟩)
  | perm | drop | insert | inside => exact .inr (.inl ⟨_, _, rfl, rfl⟩)
  | item => exact .inr (.inr ⟨_, _, rfl, rfl⟩)

/-- The first member goes to the end. -/
theorem Varies.rotate {fields : List Field} (m : Option String × Json)
    (ms : List (Option String × Json)) :
    Varies (.record fields) (.object (m :: ms)) (.object (ms ++ [m])) :=
  .perm (List.perm_append_singleton m ms).symm

/-- A member that is `null` is missing. -/
theorem Varies.drop_null {fields : List Field} {name : String} {ms : List (Option String × Json)}
    (hfield : (name, some .null, shape) ∈ fields) :
    Varies (.record fields) (.object ((some name, .null) :: ms)) (.object ms) :=
  .drop hfield (.refl shape .null)

theorem Varies.eq_of_null (h : Varies shape .null j') : j' = .null := by
  obtain h | ⟨_, _, h, _⟩ | ⟨_, _, h, _⟩ := h.cases
  · exact h.symm
  · cases h
  · cases h

theorem Varies.eq_of_leaf (h : Varies .leaf j j') : j = j' := by
  generalize hleaf : Shape.leaf = shape at h
  induction h with
  | refl => rfl
  | trans _ _ ih ih' => exact (ih hleaf).trans (ih' hleaf)
  | _ => cases hleaf

/-- No item comes to an array that has none. -/
theorem Varies.eq_of_empty (h : Varies (.list shape) (.array []) j') : j' = .array [] := by
  generalize hlist : Shape.list shape = list at h
  generalize hempty : Json.array [] = j at h
  induction h with
  | refl => rfl
  | trans _ _ ih ih' =>
    subst hempty
    obtain rfl := ih hlist rfl
    exact ih' hlist rfl
  | item => simp at hempty
  | _ => cases hlist

/-! ## Decoders of values -/

theorem tolerates_leaf (d : Decoder α) : Tolerates d .leaf := by
  intro depth j j' a h hj
  rwa [← h.eq_of_leaf]

theorem nullable_eq {depth : Nat} (h : j ≠ .null) :
    d.nullable depth j = (d depth j).map some := by
  unfold Decoder.nullable
  split
  · exact absurd rfl h
  · rfl

theorem map_eq_ok_iff {β ε : Type} {x : Except ε α} {f : α → β} {b : β} :
    x.map f = .ok b ↔ ∃ a, x = .ok a ∧ f a = b := by
  cases x <;> simp [Except.map]

theorem Tolerates.nullable (hd : Tolerates d shape) : Tolerates d.nullable shape := by
  intro depth j j' a h hj
  by_cases hnull : j = .null
  · subst hnull
    rwa [h.eq_of_null]
  · have hnull' : j' ≠ .null := by
      obtain rfl | ⟨_, _, _, rfl⟩ | ⟨_, _, _, rfl⟩ := h.cases
      · exact hnull
      · exact Json.noConfusion
      · exact Json.noConfusion
    rw [nullable_eq hnull, map_eq_ok_iff] at hj
    obtain ⟨a, ha, rfl⟩ := hj
    rw [nullable_eq hnull', hd depth j j' a h ha]
    rfl

theorem mapM_replace {β ε : Type} {f : β → Except ε α} {v v' : β} {vs ws : List β} {as : List α}
    (hv : ∀ a, f v = .ok a → f v' = .ok a) (h : (vs ++ v :: ws).mapM f = .ok as) :
    (vs ++ v' :: ws).mapM f = .ok as := by
  simp only [List.mapM_append, List.mapM_cons, bind_eq_ok_iff] at h ⊢
  obtain ⟨front, hfront, rest, ⟨a, ha, hrest⟩, has⟩ := h
  exact ⟨front, hfront, rest, ⟨a, hv a ha, hrest⟩, has⟩

theorem Tolerates.list (hd : Tolerates d shape) : Tolerates d.list (.list shape) := by
  intro depth j j' items h
  generalize hlist : Shape.list shape = list at h
  induction h with
  | refl => exact id
  | trans _ _ ih ih' => exact fun hj => ih' hlist (ih hlist hj)
  | @item shape v v' vs ws hv =>
    obtain rfl := Shape.list.inj hlist
    intro hj
    cases depth with
    | zero => cases hj
    | succ depth => exact mapM_replace (fun a => hd depth v v' a hv) hj
  | _ => cases hlist

end Values

/-! ## Fields -/

/-- What becomes of the values that the name of a field has, in one step. -/
inductive Turns (default : Option Json) (shape : Shape) : List Json → List Json → Prop
  | perm {vs vs' : List Json} (h : vs.Perm vs') : Turns default shape vs vs'
  | inside {v v' : Json} {vs : List Json} (h : Varies shape v v') :
      Turns default shape (v :: vs) (v' :: vs)
  | drop {w v : Json} {vs : List Json} (hw : default = some w) (h : Varies shape w v) :
      Turns default shape (v :: vs) vs

/-- What becomes of the members of a record in one step. -/
structure Moves (fields : List Field) (ms ms' : List (Option String × Json)) : Prop where
  clean : Clean (fields.map (·.1)) ms → Clean (fields.map (·.1)) ms'
  turns : ∀ name default shape, (name, default, shape) ∈ fields →
    Turns default shape (valuesFor name ms) (valuesFor name ms')

section Fields

variable {α : Type} {d : Decoder α} {fields : List Field} {name : String} {default : Option Json}
  {shape : Shape} {ms ms' : List (Option String × Json)} {depth : Nat} {a a₀ : α} {v v' : Json}

theorem Moves.perm (h : ms.Perm ms') : Moves fields ms ms' :=
  ⟨fun hclean m hm => hclean m (h.mem_iff.2 hm), fun _ _ _ _ => .perm (h.filterMap _)⟩

theorem Moves.insert (hname : name ∉ fields.map (·.1)) (hv : v.complete = true) :
    Moves fields ms ((some name, v) :: ms) := by
  constructor
  · exact fun hclean => List.forall_mem_cons.2 ⟨⟨name, rfl, .inr hv⟩, hclean⟩
  · intro name' default shape hfield
    have hne : name ≠ name' := by
      rintro rfl
      exact hname (List.mem_map_of_mem hfield)
    rw [valuesFor_some, if_neg hne]
    exact .perm (.refl _)

/-- A name has one field. -/
theorem field_unique (hnodup : (fields.map (·.1)).Nodup) {default' : Option Json} {shape' : Shape}
    (h : (name, default, shape) ∈ fields) (h' : (name, default', shape') ∈ fields) :
    default = default' ∧ shape = shape' := by
  have heq := List.inj_on_of_nodup_map hnodup h h' rfl
  simpa using heq

theorem Moves.inside (hnodup : (fields.map (·.1)).Nodup) (hfield : (name, default, shape) ∈ fields)
    (hv : Varies shape v v') : Moves fields ((some name, v) :: ms) ((some name, v') :: ms) := by
  constructor
  · intro hclean
    exact List.forall_mem_cons.2
      ⟨⟨name, rfl, .inl (List.mem_map_of_mem hfield)⟩, (List.forall_mem_cons.1 hclean).2⟩
  · intro name' default' shape' hfield'
    rw [valuesFor_some, valuesFor_some]
    split_ifs with hname
    · subst hname
      obtain ⟨rfl, rfl⟩ := field_unique hnodup hfield hfield'
      exact .inside hv
    · exact .perm (.refl _)

theorem Moves.drop (hnodup : (fields.map (·.1)).Nodup) {w : Json}
    (hfield : (name, some w, shape) ∈ fields) (hv : Varies shape w v) :
    Moves fields ((some name, v) :: ms) ms := by
  constructor
  · exact fun hclean => (List.forall_mem_cons.1 hclean).2
  · intro name' default' shape' hfield'
    rw [valuesFor_some]
    split_ifs with hname
    · subst hname
      obtain ⟨rfl, rfl⟩ := field_unique hnodup hfield hfield'
      exact .drop rfl hv
    · exact .perm (.refl _)

theorem Moves.reads (h : Moves fields ms ms') (hfield : (name, none, shape) ∈ fields)
    (hd : Tolerates d shape) (hreads : Reads name ms depth d a) : Reads name ms' depth d a := by
  obtain ⟨j, hj, ha⟩ := hreads
  have hturns := h.turns _ _ _ hfield
  rw [hj] at hturns
  generalize hvs : valuesFor name ms' = vs at hturns
  cases hturns with
  | perm h => exact ⟨j, hvs.trans (List.singleton_perm.1 h).symm, ha⟩
  | inside hv => exact ⟨_, hvs, hd _ _ _ _ hv ha⟩
  | drop hw => cases hw

theorem Moves.readsD (h : Moves fields ms ms') (hfield : (name, default, shape) ∈ fields)
    (hd : Tolerates d shape) (hdefault : DefaultsTo d shape default a₀)
    (hreads : ReadsD name ms depth a₀ d a) : ReadsD name ms' depth a₀ d a := by
  have hturns := h.turns _ _ _ hfield
  obtain ⟨hnone, rfl⟩ | ⟨j, hj, ha⟩ := hreads
  · rw [hnone] at hturns
    generalize hvs : valuesFor name ms' = vs at hturns
    cases hturns with
    | perm h => exact .inl ⟨hvs.trans (List.nil_perm.1 h), rfl⟩
  · rw [hj] at hturns
    generalize hvs : valuesFor name ms' = vs at hturns
    cases hturns with
    | perm h => exact .inr ⟨j, hvs.trans (List.singleton_perm.1 h).symm, ha⟩
    | inside hv => exact .inr ⟨_, hvs, hd _ _ _ _ hv ha⟩
    | drop hw hv => exact .inl ⟨hvs, hdefault _ hw _ _ _ hv ha⟩

/-! ## Decoders of records -/

/-- **A record is tolerant if it is so in every step.** -/
theorem tolerates_record (hnodup : (fields.map (·.1)).Nodup)
    (hzero : ∀ ms a, d 0 (.object ms) ≠ .ok a)
    (hmoves : ∀ depth ms ms' a, Moves fields ms ms' → d (depth + 1) (.object ms) = .ok a →
      d (depth + 1) (.object ms') = .ok a) : Tolerates d (.record fields) := by
  have hstep {depth : Nat} {ms ms' : List (Option String × Json)} {a : α}
      (h : Moves fields ms ms') (ha : d depth (.object ms) = .ok a) :
      d depth (.object ms') = .ok a := by
    cases depth with
    | zero => exact absurd ha (hzero ms a)
    | succ depth => exact hmoves depth ms ms' a h ha
  intro depth j j' a h
  generalize hrecord : Shape.record fields = record at h
  induction h with
  | refl => exact id
  | trans _ _ ih ih' => exact fun ha => ih' hrecord (ih hrecord ha)
  | item => cases hrecord
  | perm h => exact hstep (.perm h)
  | insert hname hv =>
    obtain rfl := Shape.record.inj hrecord
    exact hstep (.insert hname hv)
  | inside hfield hv =>
    obtain rfl := Shape.record.inj hrecord
    exact hstep (.inside hnodup hfield hv)
  | drop hfield hv =>
    obtain rfl := Shape.record.inj hrecord
    exact hstep (.drop hnodup hfield hv)

end Fields

/-! ## Values of absent fields -/

section Defaults

variable {α : Type} {d : Decoder α} {shape : Shape}

theorem defaultsTo_null : DefaultsTo d.nullable shape (some .null) none := by
  intro w hw depth v a hv ha
  cases hw
  rw [hv.eq_of_null] at ha
  cases ha
  rfl

/-- A field that may be `null` or absent is read alike after every step. -/
theorem Moves.nullable {fields : List Field} {name : String} {ms ms' : List (Option String × Json)}
    {depth : Nat} {a : Option α} (h : Moves fields ms ms')
    (hfield : (name, some .null, shape) ∈ fields) (hd : Tolerates d shape)
    (hreads : ReadsD name ms depth none d.nullable a) : ReadsD name ms' depth none d.nullable a :=
  h.readsD hfield hd.nullable defaultsTo_null hreads

theorem defaultsTo_empty : DefaultsTo d.list (.list shape) (some (.array [])) [] := by
  intro w hw depth v a hv ha
  cases hw
  rw [hv.eq_of_empty] at ha
  cases depth <;> cases ha
  rfl

theorem defaultsTo_text (s : String) : DefaultsTo .text .leaf (some (.text s)) s := by
  intro w hw depth v a hv ha
  cases hw
  rw [← hv.eq_of_leaf] at ha
  cases ha
  rfl

end Defaults

end TabBoard.Json
