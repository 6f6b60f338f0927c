import TabBoard.Config.Validate
import TabBoard.Toml.Reader

/-!
# Loading the configuration

The configuration is read from `config.toml` in its directory, which is made if it is not there; a
missing file stands for an empty one. The tabs are read from a file of their own.
-/

namespace TabBoard.Config

/-- What a document says, read with a decoder. -/
def ofToml? {α : Type} (d : Json.Decoder α) (text : String) : Option α :=
  (Toml.ofText? text).bind fun t => (d Json.depthLimit t.toJson).toOption

def ofText? (text : String) : Option Config := ofToml? decoder text

def tabsOfText? (text : String) : Option (List Tab) :=
  ofToml? (fun depth j => do
    let r ← Json.record ["tabs"] depth j
    r.getD "tabs" [] (.list Tab.decoder)) text

variable {m : Type → Type} [Monad m] [FileSystem m]

def fileOf (dir : String) : String := Files.join dir "config.toml"

def readFile (path : String) : m (Except Error Config) := do
  if ← FileSystem.present path then
    match ← Files.readText path with
    | none => return .error (.unreadable path)
    | some text =>
      match ofText? text with
      | none => return .error (.toml path)
      | some c => return .ok c
  else return .ok {}

def load (env : Environment) (dir : String) : m (Except Error Config) := do
  let made ← do
    if ← FileSystem.present dir then pure true else FileSystem.makeDirectories dir
  if made then return (← readFile (fileOf dir)).map (overlay env)
  else return .error (.unreadable dir)

/-- The directory of the configuration: the one that the environment names, or else one in the
current directory. -/
def directory (env : Environment) (current : String) : String :=
  (env.get? "DH_CONFIG_DIR").getD (Files.join current ".deckhand")

def check (c : Config) (dir : String) : m (Except Error Unit) := do
  let isFile ← match c.auth.keyFile? dir with
    | some path => FileSystem.isFile path
    | none => pure false
  return (c.validate dir isFile).mapError .fault

def tabsFile (c : Config) (dir : String) : String := Files.join dir c.tabs.path

def loadTabs (c : Config) (dir : String) : m (Except Error Catalog) := do
  let path := c.tabsFile dir
  if !(← FileSystem.present path) then return .error (.fault (.tabsNotFound path))
  if !(← FileSystem.isFile path) then return .error (.fault (.tabsNotFile path))
  match ← Files.readText path with
  | none => return .error (.unreadable path)
  | some text =>
    match tabsOfText? text with
    | none => return .error (.toml path)
    | some tabs => return (Catalog.ofTabs tabs).mapError (.catalog path)

end TabBoard.Config
