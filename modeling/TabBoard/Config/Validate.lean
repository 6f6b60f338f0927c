import TabBoard.Catalog
import TabBoard.Config.Basic
import TabBoard.Files.Basic

/-!
# Checking the configuration

A configuration is checked section by section, and the first setting that cannot be used is named.
The file of a key has to be there; whether it holds a key is found out when it is used.

The messages of faults are complete. Those for a file that cannot be read or is not TOML
(`Error.message`) end before the cause, which the program adds in the words of the system or of its
TOML reader.
-/

namespace TabBoard.Config

/-- Why a setting cannot be used. -/
inductive Fault where
  | lowPort (port : Nat)
  | blankHost
  | blankEnvironment
  | blankCookieName
  | twoKeys
  | noKey
  | shortSecret (octets : Nat)
  | keyNotFound (path : String)
  /-- There is no key when one is needed. -/
  | noKeySource
  | restartTimeout (secs : Nat)
  | drainTimeout (secs : Nat)
  | apiServer (url : String)
  | heartbeat (secs : Nat)
  | transport (name : String)
  | gatewayUrl (url : String)
  | gatewayTimeout (secs : Nat)
  | blankTabsPath
  | tabsNotFound (path : String)
  | tabsNotFile (path : String)
  deriving Repr, DecidableEq, Inhabited

namespace Fault

def category : Fault → String
  | .blankCookieName => "Auth"
  | .twoKeys => "Auth"
  | .noKey => "Auth"
  | .shortSecret _ => "Auth"
  | .keyNotFound _ => "Auth"
  | .noKeySource => "Auth"
  | .blankTabsPath => "Tabs"
  | .tabsNotFound _ => "Tabs"
  | .tabsNotFile _ => "Tabs"
  | _ => "Config"

def text : Fault → String
  | .lowPort port => s!"server.port must be 0 (auto) or >= 1024, got {port}"
  | .blankHost => "server.host must not be empty"
  | .blankEnvironment => "server.environment must not be empty"
  | .blankCookieName => "auth.cookie_name must not be empty"
  | .twoKeys => "auth.jwt_secret and auth.jwt_public_key_path are mutually exclusive"
  | .noKey => "auth.enabled requires auth.jwt_secret or auth.jwt_public_key_path"
  | .shortSecret octets => s!"auth.jwt_secret must be at least 32 bytes, got {octets}"
  | .keyNotFound path => s!"auth.jwt_public_key_path not found: {path}"
  | .noKeySource => "auth.enabled requires a JWT key source"
  | .restartTimeout secs => s!"restart.timeout_secs must be 1-3600, got {secs}"
  | .drainTimeout secs => s!"restart.drain_timeout_secs must be at most 600, got {secs}"
  | .apiServer url => s!"kubernetes.api_server must be an http(s) URL, got {url}"
  | .heartbeat secs => s!"sse.heartbeat_interval_secs must be 1-300, got {secs}"
  | .transport name => s!"sse.transport must be 'direct' or 'gateway', got '{name}'"
  | .gatewayUrl url => s!"sse.gateway_url must be an http(s) URL, got '{url}'"
  | .gatewayTimeout secs => s!"sse.gateway_timeout_secs must be 1-60, got {secs}"
  | .blankTabsPath => "tabs.path must not be empty"
  | .tabsNotFound path => s!"tabs file not found (path={path})"
  | .tabsNotFile path => s!"tabs path is not a file (path={path})"

def message (f : Fault) : String := s!"{f.category} error: {f.text}"

end Fault

/-- Why there is no configuration, or no catalog. -/
inductive Error where
  | fault (f : Fault)
  | unreadable (path : String)
  /-- The file is not TOML, or does not say what it should. -/
  | toml (path : String)
  | catalog (path : String) (cause : Catalog.Error)
  deriving Repr, DecidableEq

def Error.message : Error → String
  | .fault f => f.message
  | .unreadable path => s!"IO error reading {path}"
  | .toml path => s!"TOML parse error in {path}"
  | .catalog path cause => s!"Tabs configuration invalid in {path}: {cause.message}"

/-- An address that starts like one of the web. -/
def isWebAddress (url : String) : Bool := url.startsWith "http://" || url.startsWith "https://"

def Server.validate (s : Server) : Except Fault Unit := do
  if s.port ≠ 0 ∧ s.port < 1024 then throw (.lowPort s.port)
  if Text.isBlankText s.host then throw .blankHost
  if Text.isBlankText s.environment then throw .blankEnvironment

def Auth.keyFile? (a : Auth) (dir : String) : Option String := a.jwtKeyPath.map (Files.join dir)

/-- `isFile` says whether the key file is there. -/
def Auth.validate (a : Auth) (dir : String) (isFile : Bool) : Except Fault Unit := do
  if Text.isBlankText a.cookieName then throw .blankCookieName
  if a.enabled then
    match a.jwtSecret, a.jwtKeyPath with
    | some _, some _ => throw .twoKeys
    | none, none => throw .noKey
    | some secret, none =>
      if secret.utf8ByteSize < 32 then throw (.shortSecret secret.utf8ByteSize)
    | none, some path => if !isFile then throw (.keyNotFound (Files.join dir path))

def Restart.validate (r : Restart) : Except Fault Unit := do
  if r.timeoutSecs < 1 ∨ 3600 < r.timeoutSecs then throw (.restartTimeout r.timeoutSecs)
  if 600 < r.drainTimeoutSecs then throw (.drainTimeout r.drainTimeoutSecs)

def Kubernetes.validate (k : Kubernetes) : Except Fault Unit :=
  match k.apiServer with
  | some url => if isWebAddress url then .ok () else .error (.apiServer url)
  | none => .ok ()

def Sse.validate (s : Sse) : Except Fault Unit := do
  if s.heartbeatSecs < 1 ∨ 300 < s.heartbeatSecs then throw (.heartbeat s.heartbeatSecs)
  if s.transport = .gateway then
    if !isWebAddress s.gatewayUrl then throw (.gatewayUrl s.gatewayUrl)
    if s.gatewayTimeoutSecs < 1 ∨ 60 < s.gatewayTimeoutSecs then
      throw (.gatewayTimeout s.gatewayTimeoutSecs)

def Tabs.validate (t : Tabs) : Except Fault Unit :=
  if Text.isBlankText t.path then .error .blankTabsPath else .ok ()

/-- Checks the configuration in its directory. `isFile` says whether the key file is there. -/
def validate (c : Config) (dir : String) (isFile : Bool) : Except Fault Unit := do
  c.server.validate
  c.auth.validate dir isFile
  c.restart.validate
  c.kubernetes.validate
  c.sse.validate
  c.tabs.validate

end TabBoard.Config
