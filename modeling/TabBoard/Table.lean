/-!
# Tables

A table maps keys to values and keeps the order in which the keys came. Inserting a key that is
there replaces its value in place. `get?` is the view: the laws say what each operation does to it.
-/

namespace TabBoard

/-- A finite map in order of insertion. -/
structure Table (κ υ : Type) where
  entries : List (κ × υ) := []
  deriving Repr, DecidableEq, Inhabited

namespace Table

variable {κ υ : Type} [DecidableEq κ]

def get? (t : Table κ υ) (k : κ) : Option υ := (t.entries.find? (·.1 = k)).map (·.2)

def contains (t : Table κ υ) (k : κ) : Bool := t.entries.any (·.1 = k)

def size (t : Table κ υ) : Nat := t.entries.length

def keys (t : Table κ υ) : List κ := t.entries.map (·.1)

def erase (t : Table κ υ) (k : κ) : Table κ υ := ⟨t.entries.filter (·.1 ≠ k)⟩

def insertIn (k : κ) (v : υ) : List (κ × υ) → List (κ × υ)
  | [] => [(k, v)]
  | (k', v') :: rest => if k' = k then (k, v) :: rest else (k', v') :: insertIn k v rest

def insert (t : Table κ υ) (k : κ) (v : υ) : Table κ υ := ⟨insertIn k v t.entries⟩

/-- Changes the value of a key that is there. -/
def modify (t : Table κ υ) (k : κ) (f : υ → υ) : Table κ υ :=
  ⟨t.entries.map fun e => if e.1 = k then (e.1, f e.2) else e⟩

@[simp] theorem get?_empty (k : κ) : ({} : Table κ υ).get? k = none := rfl

theorem contains_eq_isSome (t : Table κ υ) (k : κ) : t.contains k = (t.get? k).isSome := by
  simp only [contains, get?, Option.isSome_map]
  induction t.entries with
  | nil => rfl
  | cons e es ih => by_cases h : e.1 = k <;> simp [h, ih]

theorem get?_insert (t : Table κ υ) (k k' : κ) (v : υ) :
    (t.insert k v).get? k' = if k = k' then some v else t.get? k' := by
  simp only [get?, insert]
  induction t.entries with
  | nil => by_cases h : k = k' <;> simp [insertIn, h]
  | cons e es ih => grind [insertIn]

theorem get?_erase (t : Table κ υ) (k k' : κ) :
    (t.erase k).get? k' = if k = k' then none else t.get? k' := by
  simp only [get?, erase]
  induction t.entries with
  | nil => simp
  | cons e es ih => grind

end Table

end TabBoard
