import TabBoard.Files.Basic
import TabBoard.Table
import TabBoard.Text.Blank

/-!
# Files as a value

A tree of files and directories, in which the program can be run without touching anything. A path
leads from name to name; every name but the last has to be that of a directory, and a slash at the
end makes that hold for the last one too.
-/

namespace TabBoard

inductive FileNode where
  | file (content : Text.Utf8.Octets)
  | directory
  deriving Repr, DecidableEq, Inhabited

/-- Files and directories by their names from the root, and the directory that paths start from. -/
structure FileTree where
  nodes : Table (List String) FileNode := {}
  current : List String := []
  deriving Repr, DecidableEq, Inhabited

namespace FileTree

def node? (t : FileTree) (place : List String) : Option FileNode :=
  if place.isEmpty then some .directory else t.nodes.get? place

def isDirectory (t : FileTree) (place : List String) : Bool := t.node? place == some .directory

/-- The names of a path, and the place that it starts from. -/
def start (t : FileTree) (path : String) : List String × List String :=
  (if Files.isAbsolute path then [] else t.current,
    (Text.splitAll '/' path.toList).map String.ofList)

/-- The place that names lead to, if something is there. -/
def follow (t : FileTree) (place : List String) : List String → Option (List String)
  | [] => if (t.node? place).isSome then some place else none
  | name :: names =>
    if !t.isDirectory place then none
    else if name = "" ∨ name = "." then t.follow place names
    else if name = ".." then t.follow place.dropLast names
    else t.follow (place ++ [name]) names

def place? (t : FileTree) (path : String) : Option (List String) :=
  if path = "" then none else let (place, names) := t.start path; t.follow place names

def present (t : FileTree) (path : String) : Bool := (t.place? path).isSome

def content? (t : FileTree) (path : String) : Option Text.Utf8.Octets :=
  match (t.place? path).bind t.node? with
  | some (.file content) => some content
  | _ => none

def makeAlong (t : FileTree) (place : List String) : List String → Bool × FileTree
  | [] => (t.isDirectory place, t)
  | name :: names =>
    if !t.isDirectory place then (false, t)
    else if name = "" ∨ name = "." then t.makeAlong place names
    else if name = ".." then t.makeAlong place.dropLast names
    else
      let next := place ++ [name]
      match t.node? next with
      | some _ => t.makeAlong next names
      | none => makeAlong { t with nodes := t.nodes.insert next .directory } next names

def makeDirectories (t : FileTree) (path : String) : Bool × FileTree :=
  if path = "" then (true, t) else let (place, names) := t.start path; t.makeAlong place names

/-- The place of a path whose last name need not be there. -/
def target? (t : FileTree) (path : String) : Option (List String) :=
  let (place, names) := t.start path
  match names.reverse with
  | name :: before =>
    if name = "" ∨ name = "." ∨ name = ".." then none
    else ((t.follow place before.reverse).filter t.isDirectory).map (· ++ [name])
  | [] => none

def append (t : FileTree) (path text : String) : Bool × FileTree :=
  match t.target? path with
  | none => (false, t)
  | some place =>
    match t.node? place with
    | some .directory => (false, t)
    | some (.file content) =>
      (true, { t with nodes := t.nodes.insert place (.file (content ++ Text.Utf8.encode text)) })
    | none => (true, { t with nodes := t.nodes.insert place (.file (Text.Utf8.encode text)) })

/-- Puts something in the place of a path, in directories that are made for it. -/
def put (t : FileTree) (path : String) (node : FileNode) : FileTree :=
  let (place, names) := t.start path
  let t := (t.makeAlong place names.dropLast).2
  { t with nodes := t.nodes.insert (place ++ names) node }

instance : FileSystem (StateM FileTree) where
  present path := fun t => (t.present path, t)
  isFile path := fun t => ((t.content? path).isSome, t)
  read path := fun t => (t.content? path, t)
  makeDirectories path := fun t => t.makeDirectories path
  append path text := fun t => t.append path text

end FileTree

end TabBoard
