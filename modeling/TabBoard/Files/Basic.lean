import TabBoard.Text.Blank
import TabBoard.Text.Utf8

/-!
# Files

What the program does with files, for any monad that can do it (`FileSystem`), and how paths are put
together. Paths are texts with slashes and are kept as they were given.
-/

namespace TabBoard

class FileSystem (m : Type → Type) where
  /-- Something is there. -/
  present : String → m Bool
  isFile : String → m Bool
  /-- The content of a file, if it can be read. -/
  read : String → m (Option Text.Utf8.Octets)
  /-- Makes a directory and those around it, and says whether all of them are there. -/
  makeDirectories : String → m Bool
  /-- Makes a file if it is not there and writes to its end, and says whether that was possible. -/
  append : String → String → m Bool

namespace Files

variable {m : Type → Type} [Monad m] [FileSystem m]

/-- The content of a file, if it can be read and is text. -/
def readText (path : String) : m (Option String) := do
  return (← FileSystem.read path).bind Text.Utf8.decode?

/-- A path that does not depend on where it is used. -/
def isAbsolute (path : String) : Bool := path.startsWith "/"

def join (dir path : String) : String :=
  if isAbsolute path || dir = "" then path
  else if dir.endsWith "/" then dir ++ path
  else dir ++ "/" ++ path

/-- The directories that names lead to, last name first, and those around it. -/
def upwardsFrom : List (List Char) → List String
  | [] => ["/"]
  | name :: names =>
    let rest := upwardsFrom names
    if name = [] then rest
    else join ((rest.head?).getD "/") (String.ofList name) :: rest

/-- A directory and those around it, from the inside out. -/
def upwards (dir : String) : List String := upwardsFrom (Text.splitAll '/' dir.toList).reverse

end Files

end TabBoard
