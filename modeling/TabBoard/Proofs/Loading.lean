import TabBoard.Config.Load
import TabBoard.Files.Tree
import Mathlib.Tactic.SplitIfs

/-!
# Loading in a tree of files

What is loaded from a directory is what its configuration file says (`said`), with what the
environment says over it (`loadFrom_eq`). A directory that is not there is made first.
-/

namespace TabBoard

namespace Config

variable {env : Environment} {t t' : FileTree} {dir path : String} {c file : Config}

/-! ## What is loaded -/

/-- What a configuration file says. One that is not there says nothing. -/
def said (t : FileTree) (path : String) : Except Error Config :=
  if t.present path then
    match (t.content? path).bind Text.Utf8.decode? with
    | none => .error (.unreadable path)
    | some text =>
      match ofText? text with
      | none => .error (.toml path)
      | some c => .ok c
  else .ok {}

/-- Loads the configuration of a directory in a tree of files. -/
def loadFrom (t : FileTree) (env : Environment) (dir : String) :
    Except Error Config × FileTree :=
  (load env dir : StateM FileTree (Except Error Config)).run t

theorem bind_at {α β : Type} (x : StateM FileTree α) (f : α → StateM FileTree β) (t : FileTree) :
    (x >>= f) t = f (x t).1 (x t).2 := rfl

theorem readFile_eq (t : FileTree) (path : String) :
    (readFile path : StateM FileTree (Except Error Config)) t = (said t path, t) := by
  have hread : (Files.readText path : StateM FileTree (Option String)) =
      fun t => ((t.content? path).bind Text.Utf8.decode?, t) := rfl
  have hpresent : (FileSystem.present path : StateM FileTree Bool) = fun t => (t.present path, t) :=
    rfl
  unfold readFile said
  simp only [bind_at, hpresent]
  cases t.present path with
  | false => rfl
  | true =>
    simp only [if_true, bind_at, hread]
    cases (t.content? path).bind Text.Utf8.decode? with
    | none => rfl
    | some text =>
      dsimp only
      cases ofText? text <;> rfl

/-- The tree of files in which a directory is made unless it is there, and whether that worked. -/
def withDirectory (t : FileTree) (dir : String) : Bool × FileTree :=
  if t.present dir then (true, t) else t.makeDirectories dir

theorem loadFrom_eq (t : FileTree) (env : Environment) (dir : String) :
    loadFrom t env dir =
      if (withDirectory t dir).1 then
        ((said (withDirectory t dir).2 (fileOf dir)).map (overlay env), (withDirectory t dir).2)
      else (.error (.unreadable dir), (withDirectory t dir).2) := by
  have hpresent : (FileSystem.present dir : StateM FileTree Bool) = fun t => (t.present dir, t) :=
    rfl
  have hmade : (FileSystem.makeDirectories dir : StateM FileTree Bool) =
      fun t => t.makeDirectories dir := rfl
  have hread : (readFile (fileOf dir) : StateM FileTree (Except Error Config)) =
      fun t => (said t (fileOf dir), t) := funext fun t => readFile_eq t _
  unfold loadFrom load withDirectory
  simp only [hpresent, hmade, hread, StateT.run, bind_at]
  cases t.present dir with
  | true => rfl
  | false =>
    simp only [Bool.false_eq_true, if_false, bind_at]
    cases (t.makeDirectories dir).1 <;> rfl

/-- What is loaded is what the file says, with what the environment says over it. -/
theorem exists_of_loadFrom (h : loadFrom t env dir = (.ok c, t')) :
    ∃ file, said t' (fileOf dir) = .ok file ∧ c = overlay env file := by
  rw [loadFrom_eq] at h
  split_ifs at h
  · obtain ⟨hloaded, rfl⟩ := Prod.mk.inj h
    cases hsaid : said (withDirectory t dir).2 (fileOf dir) with
    | error e =>
      rw [hsaid] at hloaded
      cases hloaded
    | ok file =>
      rw [hsaid] at hloaded
      cases hloaded
      exact ⟨file, rfl, rfl⟩
  · cases (Prod.mk.inj h).1

end Config

end TabBoard
