import TabBoard.Files.Tree
import TabBoard.Startup.Log

/-!
# A session as a value

Files, a clock that stands still, and the lines that were printed: all that the start of the program
touches, so that it can be run without touching anything.
-/

namespace TabBoard.Startup

structure Session where
  files : FileTree := {}
  now : Moment := ⟨0, 0⟩
  printed : List String := []
  deriving Repr, DecidableEq, Inhabited

namespace Session

/-- What was done with the files. -/
def onFiles {α : Type} (f : FileTree → α × FileTree) (s : Session) : α × Session :=
  let (a, files) := f s.files
  (a, { s with files })

instance : FileSystem (StateM Session) where
  present path := onFiles fun t => (t.present path, t)
  isFile path := onFiles fun t => ((t.content? path).isSome, t)
  read path := onFiles fun t => (t.content? path, t)
  makeDirectories path := onFiles fun t => t.makeDirectories path
  append path text := onFiles fun t => t.append path text

instance : Terminal (StateM Session) where
  now := fun s => (s.now, s)
  print text := fun s => ((), { s with printed := s.printed ++ [text] })

end Session

end TabBoard.Startup
