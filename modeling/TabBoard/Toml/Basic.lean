import TabBoard.Json.Basic

/-!
# TOML values

A document is a table. What may be added to a table later depends on how it came to be, so a table
remembers that (`TableKind`):

- a header names a table once, but a table that was only passed by headers of its parts may still be
  named;
- a dotted key goes only through tables that dotted keys made, or that headers passed on their way
  to something else, and adds only to the former;
- a table in braces is complete.

`addPair` and `addTable` are these rules.
-/

namespace TabBoard

namespace Toml

/-- How a table came to be. -/
inductive TableKind where
  /-- By a header of its own; the document itself counts as such. -/
  | named
  /-- On the way to a table that a header names. -/
  | passed
  /-- On the way to a dotted key. -/
  | dotted
  /-- In braces. -/
  | inline
  deriving Repr, DecidableEq, Inhabited

end Toml

inductive Toml where
  | text (s : String)
  | integer (n : Int)
  /-- A number with a point or a power of ten; nothing for infinity and what is not a number. -/
  | float (n : Option Json.Number)
  | bool (b : Bool)
  /-- A date, a time, or both. -/
  | moment (s : String)
  | array (items : List Toml)
  /-- Tables that headers in double brackets name, one after the other. -/
  | tables (items : List Toml)
  | table (kind : Toml.TableKind) (entries : List (String × Toml))
  deriving Repr, Inhabited

namespace Toml

abbrev Entries := List (String × Toml)

/-- Puts a value under a key that is not there yet. -/
def addNew (es : Entries) (key : String) (v : Toml) : Option Entries :=
  if es.any (·.1 = key) then none else some (es ++ [(key, v)])

/-- Puts another value under a key that is there. -/
def replace (es : Entries) (key : String) (v : Toml) : Entries :=
  es.map fun e => if e.1 = key then (key, v) else e

/-- Changes the entries of the last of several tables. -/
def changeLast (items : List Toml) (f : TableKind → Entries → Option Entries) :
    Option (List Toml) :=
  match items.reverse with
  | .table kind entries :: before =>
    (f kind entries).map fun entries => before.reverse ++ [.table kind entries]
  | _ => none

/-- Adds a pair with a dotted key to a table of the given kind. `top` says that no part of the key
was followed yet. -/
def addDotted : TableKind → Bool → List String → Toml → Entries → Option Entries
  | _, _, [], _, _ => none
  | kind, top, [key], v, es => if (kind == .dotted) == top then none else addNew es key v
  | _, _, key :: path, v, es =>
    match es.lookup key with
    | none =>
      (addDotted .dotted false path v []).map fun inner => es ++ [(key, .table .dotted inner)]
    | some (.table kind inner) =>
      if kind == .inline || kind == .named then none
      else
        (addDotted kind false path v inner).map fun inner => replace es key (.table kind inner)
    | some (.tables items) =>
      (changeLast items fun kind inner => addDotted kind false path v inner).map
        fun items => replace es key (.tables items)
    | some _ => none

/-- Adds a pair to a table of its own header. -/
def addPair (es : Entries) (p : List String × Toml) : Option Entries :=
  addDotted .named true p.1 p.2 es

/-- The part of a document behind one header. -/
structure Part where
  path : List String
  /-- The header stands in double brackets. -/
  isItem : Bool
  pairs : List (List String × Toml)
  deriving Repr, Inhabited

/-- Adds the table that a header names, which is found by what is left of its path. -/
def addTable (isItem : Bool) (pairs : List (List String × Toml)) :
    List String → Entries → Option Entries
  | [], _ => none
  | [key], es =>
    match es.lookup key, isItem with
    | none, false =>
      (pairs.foldlM addPair []).map fun inner => es ++ [(key, .table .named inner)]
    | some (.table .passed inner), false =>
      (pairs.foldlM addPair inner).map fun inner => replace es key (.table .named inner)
    | none, true =>
      (pairs.foldlM addPair []).map fun inner => es ++ [(key, .tables [.table .named inner])]
    | some (.tables items), true =>
      (pairs.foldlM addPair []).map
        fun inner => replace es key (.tables (items ++ [.table .named inner]))
    | _, _ => none
  | key :: path, es =>
    match es.lookup key with
    | none =>
      (addTable isItem pairs path []).map fun inner => es ++ [(key, .table .passed inner)]
    | some (.table kind inner) =>
      if kind == .inline then none
      else
        (addTable isItem pairs path inner).map fun inner => replace es key (.table kind inner)
    | some (.tables items) =>
      (changeLast items fun _ inner => addTable isItem pairs path inner).map
        fun items => replace es key (.tables items)
    | some _ => none

/-- The document that consists of the pairs in front of the first header and the parts behind it. -/
def ofParts (front : List (List String × Toml)) (parts : List Part) : Option Toml := do
  let root ← front.foldlM addPair []
  let root ← parts.foldlM (fun es p => addTable p.isItem p.pairs p.path es) root
  return .table .named root

/-! ## As JSON -/

/-- The number has at most 128 bits. -/
def isRepresentable (n : Int) : Bool :=
  -(Int.ofNat (Nat.pow 2 127)) ≤ n && n < Int.ofNat (Nat.pow 2 128)

mutual

/-- The value as JSON, to be read by the same decoders. A date becomes an object of its own. What no
JSON text shows becomes a string without text, and a number too large for any reader is broken. -/
def toJson : Toml → Json
  | .text s => .text s
  | .integer n => if isRepresentable n then .int n else .broken
  | .float (some n) => if n.isDouble then .number n else .broken
  | .float none => .string none
  | .bool b => .bool b
  | .moment s => .ofMembers [("date-time", .text s)]
  | .array items => .array (itemsToJson items)
  | .tables items => .array (itemsToJson items)
  | .table _ entries => .object (entriesToJson entries)

def itemsToJson : List Toml → List Json
  | [] => []
  | item :: items => item.toJson :: itemsToJson items

def entriesToJson : List (String × Toml) → List (Option String × Json)
  | [] => []
  | (key, v) :: entries => (some key, v.toJson) :: entriesToJson entries

end

end Toml

end TabBoard
