import TabBoard.CommandLine
import TabBoard.Config.EnvFile
import TabBoard.Startup.Wiring

/-!
# The start of the program

The start reads the file of variables in the current directory, or in the nearest one above that
has one, then the command line and the configuration, which it checks; then it opens the log and
says there what it is going to do. If it was asked to look at the configuration only, it looks at
the tabs too and ends; otherwise it puts the parts of the dashboard together.
-/

namespace TabBoard.Startup

def programName : String := "dh-server"

def programVersion : String := "0.1.0"

def helpLines : List String :=
  ["Dashboard backend with deployment restarts",
    "",
    s!"Usage: {programName} [OPTIONS]",
    "",
    "Options:",
    "      --config-dir <DIR>  Configuration directory (overrides DH_CONFIG_DIR)",
    "      --check-config      Load and validate configuration and tabs, print the summary, " ++
      "then exit",
    "  -h, --help              Print help",
    "  -V, --version           Print version"]

inductive Failure where
  | config (e : Config.Error)
  | logDirectory (path : String)
  | logFile (path : String)
  | wiring (e : Wiring.Error)
  deriving Repr, DecidableEq

def Failure.message : Failure → String
  | .config e => e.message
  | .logDirectory path => s!"Cannot make the log directory {path}"
  | .logFile path => s!"Logger error: Failed to open log file {path}"
  | .wiring e => e.message

/-- How the start ends. -/
inductive Outcome where
  /-- The command line asks for something else. -/
  | refused (r : CommandLine.Refusal)
  | failed (f : Failure)
  /-- The configuration is in order, and that was the question. -/
  | checked
  /-- The dashboard is ready to serve. -/
  | ready (log : Log) (wiring : Wiring)
  deriving Repr

namespace Outcome

def exitCode : Outcome → Nat
  | .refused r => if r.isAnswer then 0 else 2
  | .failed _ => 1
  | .checked => 0
  | .ready .. => 0

end Outcome

/-- The directory of the log file and its path. -/
def logPlace (c : Config) (dir : String) : Option (String × String) :=
  c.logging.file.map fun name =>
    let logDir := Files.join dir c.logging.dir
    (logDir, Files.join logDir name)

def openingNotices (log : Log) (c : Config) (dir : String) : List Notice :=
  [(.info, s!"Logger initialized: level={log.level.name}, output={log.target}"),
    (.info, s!"Starting {programName} v{programVersion}"),
    (.info, s!"Config directory: {dir}")] ++ c.summary

/-- What is logged about tabs that are in order. -/
def checkedNotice (catalog : Catalog) : Notice :=
  (.info, s!"Configuration OK: {catalog.size} tabs, " ++
    s!"{catalog.deployments.length} restartable deployments")

variable {m : Type → Type} [Monad m] [FileSystem m] [Terminal m]

def firstFile : List String → m (Option String)
  | [] => pure none
  | path :: paths => do
    if ← FileSystem.isFile path then return some path else firstFile paths

/-- The environment with the variables of the nearest file in the current directory or above it. -/
def withEnvFile (env : Environment) (current : String) : m Environment := do
  match ← firstFile ((Files.upwards current).map (Files.join · ".env")) with
  | none => return env
  | some path =>
    match ← FileSystem.read path with
    | some content => return Config.EnvFile.addFile env content
    | none => return env

/-- The configuration of a directory, if it can be used. -/
def usable (env : Environment) (dir : String) : m (Except Config.Error Config) := do
  match ← Config.load env dir with
  | .error e => return .error e
  | .ok c => return (← c.check dir).map fun _ => c

def openLog (c : Config) (dir : String) : m (Except Failure Log) := do
  let log : Log := { level := c.logging.level, colored := c.logging.colored }
  match logPlace c dir with
  | none => return .ok log
  | some (logDir, path) =>
    if !(← FileSystem.makeDirectories logDir) then return .error (.logDirectory logDir)
    let log := { log with file := some path }
    if ← log.start then return .ok log
    else return .error (.logFile path)

/-- Starts with the configuration in a directory. -/
def startIn (env : Environment) (dir : String) (checkOnly : Bool) : m Outcome := do
  match ← usable env dir with
  | .error e => return .failed (.config e)
  | .ok c =>
  match ← openLog c dir with
  | .error f => return .failed f
  | .ok log =>
  log.writeAll (openingNotices log c dir)
  if checkOnly then
    match ← c.loadTabs dir with
    | .error e => return .failed (.config e)
    | .ok catalog =>
      log.write (checkedNotice catalog)
      return .checked
  else
    match ← Wiring.ofConfig log env c dir with
    | .error e => return .failed (.wiring e)
    | .ok wiring => return .ready log wiring

def printAll : List String → m Unit
  | [] => pure ()
  | text :: texts => do
    Terminal.print text
    printAll texts

/-- Starts the program in a directory, with its environment and its arguments. -/
def start (env : Environment) (current : String) (args : List String) : m Outcome := do
  let env ← withEnvFile env current
  match CommandLine.ofArgs args with
  | .error r =>
    match r with
    | .help => printAll helpLines
    | .version => Terminal.print s!"{programName} {programVersion}"
    | _ => pure ()
    return .refused r
  | .ok line => startIn env (line.configDir.getD (Config.directory env current)) line.checkConfig

end TabBoard.Startup
