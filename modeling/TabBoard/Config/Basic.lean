import TabBoard.Config.Names
import TabBoard.Decimal.Natural
import TabBoard.Json.Decode
import TabBoard.Table

/-!
# The configuration

The configuration has seven sections, every field of which has a default. What a file says comes
over the defaults (`Config.decoder`), and what the environment says over both (`Config.overlay`).

Each variable of the environment belongs to one field. One that is not set, or cannot be read as a
value of its field, leaves the field as it is; the empty text clears a field that may be unset.
-/

namespace TabBoard

namespace Config

structure Server where
  host : String := "127.0.0.1"
  /-- Port 0 leaves the choice to the system. -/
  port : Nat := 8000
  environment : String := "development"
  deriving Repr, DecidableEq, Inhabited

structure Logging where
  level : LogLevel := .info
  /-- The directory of log files, as seen from the directory of the configuration. -/
  dir : String := "log"
  /-- The name of the log file; what is logged goes to the standard output if there is none. -/
  file : Option String := none
  colored : Bool := true
  deriving Repr, DecidableEq, Inhabited

structure Auth where
  enabled : Bool := false
  jwtSecret : Option String := none
  jwtKeyPath : Option String := none
  cookieName : String := "access_token"
  deriving Repr, DecidableEq, Inhabited

structure Restart where
  timeoutSecs : Nat := 180
  drainTimeoutSecs : Nat := 30
  deriving Repr, DecidableEq, Inhabited

structure Kubernetes where
  /-- The cluster that the program itself runs in if there is none. -/
  apiServer : Option String := none
  tokenPath : Option String := none
  caCertPath : Option String := none
  acceptInvalidCerts : Bool := false
  deriving Repr, DecidableEq, Inhabited

structure Sse where
  transport : Transport := .direct
  heartbeatSecs : Nat := 5
  gatewayUrl : String := "http://localhost:3001"
  gatewayTimeoutSecs : Nat := 5
  callbackSecret : Option String := none
  deriving Repr, DecidableEq, Inhabited

structure Tabs where
  path : String := "tabs.toml"
  deriving Repr, DecidableEq, Inhabited

end Config

structure Config where
  server : Config.Server := {}
  logging : Config.Logging := {}
  auth : Config.Auth := {}
  restart : Config.Restart := {}
  kubernetes : Config.Kubernetes := {}
  sse : Config.Sse := {}
  tabs : Config.Tabs := {}
  deriving Repr, DecidableEq, Inhabited

namespace Config

def Server.isProduction (s : Server) : Bool := Text.sameIgnoringCase s.environment "production"

/-! ## From a file -/

/-- A record whose fields may stand in an array, with anything behind them. -/
def fieldsOf (names : List String) : Json.Decoder Json.Record := fun depth j =>
  match j with
  | .array items => Json.record names depth (.array (items.take names.length))
  | j => Json.record names depth j

/-- A level. Whatever is no text counts as the default. -/
def LogLevel.decoder : Json.Decoder LogLevel := fun _ j =>
  match j with
  | .string (some s) => .ok (.ofText s)
  | _ => .ok .info

/-- A delivery, as a name or as the only key of a table, with nothing in it. -/
def Transport.decoder : Json.Decoder Transport := fun _ j =>
  let named := fun (s : String) => ((table.lookup s).map Except.ok).getD (.error .mismatch)
  match j with
  | .string (some s) => named s
  | .object [(some s, .object [])] => named s
  | .object [(some s, .array [])] => named s
  | j => .error (Json.blame j)

def secsDecoder : Json.Decoder Nat := .nat Decimal.max64

def Server.decoder : Json.Decoder Server := fun depth j => do
  let d : Server := {}
  let r ← fieldsOf ["host", "port", "environment"] depth j
  return {
    host := ← r.getD "host" d.host .text
    port := ← r.getD "port" d.port (.nat Decimal.max16)
    environment := ← r.getD "environment" d.environment .text }

def Logging.decoder : Json.Decoder Logging := fun depth j => do
  let d : Logging := {}
  let r ← fieldsOf ["level", "dir", "file", "colored"] depth j
  return {
    level := ← r.getD "level" d.level LogLevel.decoder
    dir := ← r.getD "dir" d.dir .text
    file := ← r.get? "file" .text
    colored := ← r.getD "colored" d.colored .bool }

def Auth.decoder : Json.Decoder Auth := fun depth j => do
  let d : Auth := {}
  let r ← fieldsOf ["enabled", "jwt_secret", "jwt_public_key_path", "cookie_name"] depth j
  return {
    enabled := ← r.getD "enabled" d.enabled .bool
    jwtSecret := ← r.get? "jwt_secret" .text
    jwtKeyPath := ← r.get? "jwt_public_key_path" .text
    cookieName := ← r.getD "cookie_name" d.cookieName .text }

def Restart.decoder : Json.Decoder Restart := fun depth j => do
  let d : Restart := {}
  let r ← fieldsOf ["timeout_secs", "drain_timeout_secs"] depth j
  return {
    timeoutSecs := ← r.getD "timeout_secs" d.timeoutSecs secsDecoder
    drainTimeoutSecs := ← r.getD "drain_timeout_secs" d.drainTimeoutSecs secsDecoder }

def Kubernetes.decoder : Json.Decoder Kubernetes := fun depth j => do
  let r ← fieldsOf ["api_server", "token_path", "ca_cert_path", "accept_invalid_certs"] depth j
  return {
    apiServer := ← r.get? "api_server" .text
    tokenPath := ← r.get? "token_path" .text
    caCertPath := ← r.get? "ca_cert_path" .text
    acceptInvalidCerts := ← r.getD "accept_invalid_certs" false .bool }

def Sse.decoder : Json.Decoder Sse := fun depth j => do
  let d : Sse := {}
  let r ← fieldsOf ["transport", "heartbeat_interval_secs", "gateway_url", "gateway_timeout_secs",
    "callback_secret"] depth j
  return {
    transport := ← r.getD "transport" d.transport Transport.decoder
    heartbeatSecs := ← r.getD "heartbeat_interval_secs" d.heartbeatSecs secsDecoder
    gatewayUrl := ← r.getD "gateway_url" d.gatewayUrl .text
    gatewayTimeoutSecs := ← r.getD "gateway_timeout_secs" d.gatewayTimeoutSecs secsDecoder
    callbackSecret := ← r.get? "callback_secret" .text }

def Tabs.decoder : Json.Decoder Tabs := fun depth j => do
  let d : Tabs := {}
  let r ← fieldsOf ["path"] depth j
  return { path := ← r.getD "path" d.path .text }

def decoder : Json.Decoder Config := fun depth j => do
  let r ← fieldsOf ["server", "logging", "auth", "restart", "kubernetes", "sse", "tabs"] depth j
  return {
    server := ← r.getD "server" {} Server.decoder
    logging := ← r.getD "logging" {} Logging.decoder
    auth := ← r.getD "auth" {} Auth.decoder
    restart := ← r.getD "restart" {} Restart.decoder
    kubernetes := ← r.getD "kubernetes" {} Kubernetes.decoder
    sse := ← r.getD "sse" {} Sse.decoder
    tabs := ← r.getD "tabs" {} Tabs.decoder }

end Config

/-! ## From the environment -/

/-- The variables that are set. One whose value is not text counts as one that is not. -/
abbrev Environment := Table String String

namespace Environment

def text (env : Environment) (name : String) (old : String) : String := (env.get? name).getD old

/-- `true` and `1` stand for yes, and everything else for no. -/
def flag (env : Environment) (name : String) (old : Bool) : Bool :=
  match env.get? name with
  | some v => v = "true" || v = "1"
  | none => old

def parsed {α : Type} (env : Environment) (name : String) (read : String → Option α) (old : α) :
    α :=
  ((env.get? name).bind read).getD old

/-- The value of a variable, or nothing if it is empty. -/
def optional (env : Environment) (name : String) (old : Option String) : Option String :=
  match env.get? name with
  | some v => if v = "" then none else some v
  | none => old

def secs (env : Environment) (name : String) (old : Nat) : Nat :=
  env.parsed name (Decimal.natural? Decimal.max64) old

end Environment

namespace Config

/-- The configuration with what the environment says. -/
def overlay (env : Environment) (c : Config) : Config where
  server := {
    host := env.text "DH_SERVER_HOST" c.server.host
    port := env.parsed "DH_SERVER_PORT" (Decimal.natural? Decimal.max16) c.server.port
    environment := env.text "DH_ENVIRONMENT" c.server.environment }
  logging := {
    level := env.parsed "DH_LOG_LEVEL" (fun s => some (.ofText s)) c.logging.level
    dir := c.logging.dir
    file := env.optional "DH_LOG_FILE" c.logging.file
    colored := env.flag "DH_LOG_COLORED" c.logging.colored }
  auth := {
    enabled := env.flag "DH_AUTH_ENABLED" c.auth.enabled
    jwtSecret := env.optional "DH_AUTH_JWT_SECRET" c.auth.jwtSecret
    jwtKeyPath := env.optional "DH_AUTH_JWT_PUBLIC_KEY_PATH" c.auth.jwtKeyPath
    cookieName := env.text "DH_AUTH_COOKIE_NAME" c.auth.cookieName }
  restart := {
    timeoutSecs := env.secs "DH_RESTART_TIMEOUT_SECS" c.restart.timeoutSecs
    drainTimeoutSecs := env.secs "DH_RESTART_DRAIN_TIMEOUT_SECS" c.restart.drainTimeoutSecs }
  kubernetes := { c.kubernetes with
    apiServer := env.optional "DH_K8S_API_SERVER" c.kubernetes.apiServer }
  sse := {
    transport :=
      env.parsed "DH_SSE_TRANSPORT" (fun s => (Transport.ofText s).toOption) c.sse.transport
    heartbeatSecs := env.secs "DH_SSE_HEARTBEAT_INTERVAL_SECS" c.sse.heartbeatSecs
    gatewayUrl := env.text "DH_SSE_GATEWAY_URL" c.sse.gatewayUrl
    gatewayTimeoutSecs := env.secs "DH_SSE_GATEWAY_TIMEOUT_SECS" c.sse.gatewayTimeoutSecs
    callbackSecret := env.optional "DH_SSE_CALLBACK_SECRET" c.sse.callbackSecret }
  tabs := { path := env.text "DH_TABS_PATH" c.tabs.path }

def bindAddress (c : Config) : String := s!"{c.server.host}:{c.server.port}"

/-! ## Summary -/

/-- The kind of key that tokens are checked with. -/
def Auth.keyKind (a : Auth) : String :=
  if a.jwtSecret.isSome then "HS256" else if a.jwtKeyPath.isSome then "RS256" else "none"

def Sse.summary (s : Sse) : String :=
  match s.transport with
  | .direct => s!"  sse: direct (heartbeat={s.heartbeatSecs}s)"
  | .gateway =>
    let secret := if s.callbackSecret.isSome then "set" else "unset"
    s!"  sse: gateway {s.gatewayUrl} (timeout={s.gatewayTimeoutSecs}s, callback secret {secret})"

def lacksSecret (c : Config) : Bool :=
  c.server.isProduction && c.sse.transport == .gateway && c.sse.callbackSecret.isNone

/-- The configuration as it is logged, without its secrets. -/
def summary (c : Config) : List (LogLevel × String) :=
  let access := if c.auth.enabled then "enabled" else "disabled"
  let cluster := c.kubernetes.apiServer.getD "in-cluster service account"
  [(.info, "Configuration loaded:"),
    (.info, s!"  server: {c.bindAddress} ({c.server.environment})"),
    (.info, s!"  logging: {c.logging.level.name} (colored: {c.logging.colored})"),
    (.info, s!"  auth: {access} ({c.auth.keyKind}, cookie={c.auth.cookieName})"),
    (.info,
      s!"  restart: timeout={c.restart.timeoutSecs}s, drain={c.restart.drainTimeoutSecs}s"),
    (.info, s!"  kubernetes: {cluster}"),
    (.info, c.sse.summary)] ++
  (if c.lacksSecret then
    [(.warn, "  sse: no callback secret configured; gateway callbacks will be rejected")]
  else []) ++
  [(.info, s!"  tabs: {c.tabs.path}")]

end Config

end TabBoard
