import TabBoard.Proofs.Loading
import TabBoard.Proofs.Table

/-!
# The environment over the configuration

Every variable belongs to one field (`settings`). What a text of the environment means for a field
is said by its `Setting.read`: any text stands for itself, `true` and `1` for yes and all others for
no, the empty text for nothing where a field may be unset, and digits for a number that the field
can hold. A variable that is not text counts as one that is not set.

**Theorem (`load_overlaid`).** Whether a configuration is loaded does not depend on the environment.
If it is, each field with a variable has the value that this variable stands for, and what the file
says or the default if there is none; no other variable has a part in it, and the fields without a
variable stay (`Overlaid`).

The settings and the four fields without a variable are the whole configuration (`ext_of_settings`).
So what holds of each setting for itself, such as that a second overlay changes nothing, holds of
the configuration.
-/

namespace TabBoard.Config

variable {env env' : Environment} {c c' : Config}

/-! ## Settings -/

/-- A field that a variable of the environment can change. -/
structure Setting where
  /-- The variable. -/
  name : String
  Value : Type
  /-- What a text stands for, if it stands for anything. -/
  read : String → Option Value
  field : Config → Value

namespace Setting

/-- A field that takes any text. -/
def text (name : String) (field : Config → String) : Setting := ⟨name, String, some, field⟩

/-- A field that is on or off. -/
def flag (name : String) (field : Config → Bool) : Setting :=
  ⟨name, Bool, fun v => some (v = "true" || v = "1"), field⟩

/-- A field that takes a text and may be unset. -/
def optional (name : String) (field : Config → Option String) : Setting :=
  ⟨name, Option String, fun v => some (if v = "" then none else some v), field⟩

/-- A number up to a limit. -/
def number (name : String) (limit : Nat) (field : Config → Nat) : Setting :=
  ⟨name, Nat, Decimal.natural? limit, field⟩

def level (name : String) (field : Config → LogLevel) : Setting :=
  ⟨name, LogLevel, fun v => some (.ofText v), field⟩

def transport (name : String) (field : Config → Transport) : Setting :=
  ⟨name, Transport, fun v => (Transport.ofText v).toOption, field⟩

/-- The value in an environment: the one that the variable stands for, or else the old one. -/
def value (s : Setting) (env : Environment) (old : s.Value) : s.Value :=
  ((env.get? s.name).bind s.read).getD old

theorem value_value (s : Setting) (env : Environment) (old : s.Value) :
    s.value env (s.value env old) = s.value env old := by
  unfold value
  cases (env.get? s.name).bind s.read <;> rfl

theorem value_empty (s : Setting) (old : s.Value) : s.value {} old = old := rfl

end Setting

/-- The settings, each with its variable. -/
def settings : List Setting := [
  .text "DH_SERVER_HOST" (·.server.host),
  .number "DH_SERVER_PORT" Decimal.max16 (·.server.port),
  .text "DH_ENVIRONMENT" (·.server.environment),
  .level "DH_LOG_LEVEL" (·.logging.level),
  .flag "DH_LOG_COLORED" (·.logging.colored),
  .optional "DH_LOG_FILE" (·.logging.file),
  .flag "DH_AUTH_ENABLED" (·.auth.enabled),
  .optional "DH_AUTH_JWT_SECRET" (·.auth.jwtSecret),
  .optional "DH_AUTH_JWT_PUBLIC_KEY_PATH" (·.auth.jwtKeyPath),
  .text "DH_AUTH_COOKIE_NAME" (·.auth.cookieName),
  .number "DH_RESTART_TIMEOUT_SECS" Decimal.max64 (·.restart.timeoutSecs),
  .number "DH_RESTART_DRAIN_TIMEOUT_SECS" Decimal.max64 (·.restart.drainTimeoutSecs),
  .optional "DH_K8S_API_SERVER" (·.kubernetes.apiServer),
  .transport "DH_SSE_TRANSPORT" (·.sse.transport),
  .number "DH_SSE_HEARTBEAT_INTERVAL_SECS" Decimal.max64 (·.sse.heartbeatSecs),
  .text "DH_SSE_GATEWAY_URL" (·.sse.gatewayUrl),
  .number "DH_SSE_GATEWAY_TIMEOUT_SECS" Decimal.max64 (·.sse.gatewayTimeoutSecs),
  .optional "DH_SSE_CALLBACK_SECRET" (·.sse.callbackSecret),
  .text "DH_TABS_PATH" (·.tabs.path)]

theorem nodup_settings : (settings.map (·.name)).Nodup := by decide

/-- The fields that no variable belongs to are the same. -/
structure SameFixed (c c' : Config) : Prop where
  dir : c'.logging.dir = c.logging.dir
  tokenPath : c'.kubernetes.tokenPath = c.kubernetes.tokenPath
  caCertPath : c'.kubernetes.caCertPath = c.kubernetes.caCertPath
  acceptInvalidCerts : c'.kubernetes.acceptInvalidCerts = c.kubernetes.acceptInvalidCerts

/-- **The settings and the fixed fields are the whole configuration.** -/
theorem ext_of_settings (hfixed : SameFixed c c') (h : ∀ s ∈ settings, s.field c' = s.field c) :
    c' = c := by
  obtain ⟨hdir, htoken, hcert, haccept⟩ := hfixed
  simp only [settings, List.forall_mem_cons, Setting.text, Setting.flag, Setting.optional,
    Setting.number, Setting.level, Setting.transport] at h
  obtain ⟨⟨_, _, _⟩, ⟨_, _, _, _⟩, ⟨_, _, _, _⟩, ⟨_, _⟩, ⟨_, _, _, _⟩, ⟨_, _, _, _, _⟩, ⟨_⟩⟩ := c
  obtain ⟨⟨_, _, _⟩, ⟨_, _, _, _⟩, ⟨_, _, _, _⟩, ⟨_, _⟩, ⟨_, _, _, _⟩, ⟨_, _, _, _, _⟩, ⟨_⟩⟩ := c'
  simp_all

/-! ## What the environment does to a setting -/

theorem text_eq (env : Environment) (name old : String) :
    env.text name old = ((env.get? name).bind some).getD old := by
  unfold Environment.text
  cases env.get? name <;> rfl

theorem flag_eq (env : Environment) (name : String) (old : Bool) :
    env.flag name old =
      ((env.get? name).bind fun v => some (decide (v = "true") || decide (v = "1"))).getD old := by
  unfold Environment.flag
  cases env.get? name <;> rfl

theorem optional_eq (env : Environment) (name : String) (old : Option String) :
    env.optional name old =
      ((env.get? name).bind fun v => some (if v = "" then none else some v)).getD old := by
  unfold Environment.optional
  cases env.get? name <;> rfl

/-- **Each setting has the value of its variable**, or else its own. -/
theorem field_overlay (env : Environment) (c : Config) :
    ∀ s ∈ settings, s.field (overlay env c) = s.value env (s.field c) := by
  simp only [settings, List.forall_mem_cons, Setting.text, Setting.flag, Setting.optional,
    Setting.number, Setting.level, Setting.transport, Setting.value, overlay, text_eq, flag_eq,
    optional_eq, Environment.secs, Environment.parsed, List.not_mem_nil, true_and,
    false_imp_iff, implies_true]

theorem sameFixed_overlay (env : Environment) (c : Config) : SameFixed c (overlay env c) :=
  ⟨rfl, rfl, rfl, rfl⟩

theorem overlay_overlay (env : Environment) (c : Config) :
    overlay env (overlay env c) = overlay env c := by
  refine ext_of_settings (sameFixed_overlay env _) ?_
  intro s hs
  rw [field_overlay env _ s hs, field_overlay env c s hs, s.value_value]

theorem overlay_empty (c : Config) : overlay {} c = c := by
  refine ext_of_settings (sameFixed_overlay {} c) ?_
  intro s hs
  rw [field_overlay {} c s hs, s.value_empty]

/-- Only its own variable has a part in a setting. -/
theorem field_overlay_congr {s : Setting} (hs : s ∈ settings)
    (h : env'.get? s.name = env.get? s.name) (c : Config) :
    s.field (overlay env' c) = s.field (overlay env c) := by
  rw [field_overlay env' c s hs, field_overlay env c s hs, Setting.value, Setting.value, h]

/-! ## Numbers -/

/-- The text writes a number up to the limit: in digits, perhaps behind a plus sign. -/
def Writes (limit : Nat) (v : String) (n : Nat) : Prop :=
  ∃ digits, (v.toList = digits ∨ v.toList = '+' :: digits) ∧ digits ≠ [] ∧
    (∀ d ∈ digits, d.isDigit = true) ∧ Decimal.ofDigits digits = n ∧ n ≤ limit

theorem unsigned_of_digits {digits : List Char} (h : ∀ d ∈ digits, d.isDigit = true) :
    Decimal.unsigned digits = digits := by
  unfold Decimal.unsigned
  split
  · exact absurd (h '+' List.mem_cons_self) (by decide)
  · rfl

theorem natural?_eq_some_iff {limit n : Nat} {v : String} :
    Decimal.natural? limit v = some n ↔ Writes limit v n := by
  have hcases : ∀ digits, (∀ d ∈ digits, d.isDigit = true) →
      (Decimal.unsigned v.toList = digits ↔ v.toList = digits ∨ v.toList = '+' :: digits) := by
    intro digits hdigits
    constructor
    · unfold Decimal.unsigned
      split
      · next cs hv => exact fun heq => .inr (heq ▸ hv)
      · exact .inl
    · rintro (hv | hv)
      · rw [hv, unsigned_of_digits hdigits]
      · rw [hv]
        rfl
  simp only [Decimal.natural?, Option.ite_none_right_eq_some, Bool.and_eq_true, decide_eq_true_eq,
    Bool.not_eq_true', List.isEmpty_eq_false_iff, List.all_eq_true, Option.some.injEq]
  constructor
  · rintro ⟨⟨⟨hne, hdigits⟩, hlimit⟩, rfl⟩
    exact ⟨_, (hcases _ hdigits).1 rfl, hne, hdigits, rfl, hlimit⟩
  · rintro ⟨digits, hv, hne, hdigits, rfl, hlimit⟩
    rw [(hcases digits hdigits).2 hv]
    exact ⟨⟨⟨hne, hdigits⟩, hlimit⟩, rfl⟩

/-! ## Loading -/

/-- **What is loaded is what is loaded without an environment**, with the environment over it. -/
theorem load_eq {m : Type → Type} [Monad m] [LawfulMonad m] [FileSystem m] (env : Environment)
    (dir : String) :
    (load env dir : m (Except Error Config)) = Except.map (overlay env) <$> load {} dir := by
  have hover : ∀ r : Except Error Config,
      Except.map (overlay env) (Except.map (overlay {}) r) = Except.map (overlay env) r := by
    intro r
    cases r with
    | error e => rfl
    | ok c => simp only [Except.map, overlay_empty]
  have hbehind : ∀ made : Bool,
      (if made = true then Except.map (overlay env) <$> readFile (fileOf dir)
        else pure (.error (.unreadable dir)) : m (Except Error Config)) =
      Except.map (overlay env) <$>
        if made = true then Except.map (overlay {}) <$> readFile (fileOf dir)
        else pure (.error (.unreadable dir)) := by
    intro made
    split_ifs
    · simp only [Functor.map_map, hover]
    · simp only [map_pure, Except.map]
  unfold load
  simp only [bind_pure_comp, map_bind]
  refine congrArg _ (funext fun present => ?_)
  split_ifs
  · simpa only [pure_bind] using hbehind true
  · simp only [map_bind, hbehind]

/-- What the environment does to the configuration that a file stands for. -/
structure Overlaid (file : Config) : Prop where
  /-- Each setting depends on its variable and on the file alone: it has the value that the variable
  stands for, or else that of the file. -/
  settings : ∀ env, ∀ s ∈ settings, s.field (overlay env file) = s.value env (s.field file)
  /-- Yes is `true` or `1`. -/
  flag : ∀ name field env v, .flag name field ∈ Config.settings → env.get? name = some v →
    (field (overlay env file) = true ↔ v = "true" ∨ v = "1")
  /-- The empty text unsets a field that may be unset. -/
  cleared : ∀ name field env, .optional name field ∈ Config.settings → env.get? name = some "" →
    field (overlay env file) = none
  /-- Every text is a level. -/
  level : ∀ env v, env.get? "DH_LOG_LEVEL" = some v →
    (overlay env file).logging.level = .ofText v
  /-- A text that writes no number up to the limit changes nothing. -/
  number : ∀ name limit field env v, .number name limit field ∈ Config.settings →
    env.get? name = some v →
    (∀ n, Writes limit v n → field (overlay env file) = n) ∧
      ((∀ n, ¬ Writes limit v n) → field (overlay env file) = field file)
  /-- A variable changes no field but its own, and each has its own. -/
  apart : ∀ env env' name, (∀ n ≠ name, env'.get? n = env.get? n) →
    ∀ s ∈ Config.settings, s.name ≠ name → s.field (overlay env' file) = s.field (overlay env file)
  distinct : (Config.settings.map (·.name)).Nodup
  /-- The fields without a variable stay, and there are no others. -/
  fixed : ∀ env, SameFixed file (overlay env file)
  all : ∀ c c', SameFixed c c' → (∀ s ∈ Config.settings, s.field c' = s.field c) → c' = c
  /-- The same environment once more changes nothing. -/
  twice : ∀ env, overlay env (overlay env file) = overlay env file

theorem overlaid (file : Config) : Overlaid file where
  settings env := field_overlay env file
  flag name field env v hs hv := by
    have hfield : field (overlay env file) = (Setting.flag name field).value env (field file) :=
      field_overlay env file _ hs
    rw [hfield]
    simp [Setting.value, Setting.flag, hv]
  cleared name field env hs hv := by
    have hfield : field (overlay env file) = (Setting.optional name field).value env (field file) :=
      field_overlay env file _ hs
    rw [hfield]
    simp [Setting.value, Setting.optional, hv]
  level env v hv := by
    show env.parsed _ _ _ = _
    simp [Environment.parsed, hv]
  number name limit field env v hs hv := by
    have hfield : field (overlay env file) = (Decimal.natural? limit v).getD (field file) := by
      have hvalue := field_overlay env file _ hs
      simpa only [Setting.value, Setting.number, hv, Option.bind_some] using hvalue
    rw [hfield]
    refine ⟨?_, ?_⟩
    · intro n hn
      rw [natural?_eq_some_iff.2 hn, Option.getD_some]
    · intro hnone
      cases hread : Decimal.natural? limit v with
      | none => rfl
      | some n => exact absurd (natural?_eq_some_iff.1 hread) (hnone n)
  apart env env' name h s hs hne := field_overlay_congr hs (h s.name hne) file
  distinct := nodup_settings
  fixed env := sameFixed_overlay env file
  all c c' := ext_of_settings
  twice env := overlay_overlay env file

/-- **The environment changes its fields and nothing else, and makes no loading fail.** Loading from
a directory comes to the same end for every environment: in the same error, or with the environment
over what the same file says. -/
theorem load_overlaid (t : FileTree) (dir : String) :
    (∀ (m : Type → Type) [Monad m] [LawfulMonad m] [FileSystem m] (env : Environment),
      (load env dir : m (Except Error Config)) = Except.map (overlay env) <$> load {} dir) ∧
    ((∃ e t', ∀ env, loadFrom t env dir = (.error e, t')) ∨
      ∃ file t', said t' (fileOf dir) = .ok file ∧
        (∀ env, loadFrom t env dir = (.ok (overlay env file), t')) ∧ Overlaid file) := by
  refine ⟨fun m _ _ _ env => load_eq env dir, ?_⟩
  simp only [loadFrom_eq]
  generalize withDirectory t dir = made
  obtain ⟨worked, t'⟩ := made
  cases worked with
  | false => exact .inl ⟨.unreadable dir, t', fun _ => rfl⟩
  | true =>
    cases hsaid : said t' (fileOf dir) with
    | error e => exact .inl ⟨e, t', fun env => by simp [Except.map]⟩
    | ok file =>
      exact .inr ⟨file, t', hsaid, fun env => by simp [Except.map], overlaid file⟩

/-- A plus sign may stand before a port, a blank may not. -/
example :
    let env := (({} : Environment).insert "DH_SERVER_PORT" "+443").insert "DH_TABS_PATH" ""
    let blank := ({} : Environment).insert "DH_SERVER_PORT" " 443"
    overlay env {} = { server := { port := 443 }, tabs := { path := "" } } ∧
      overlay blank {} = {} := by
  decide

end TabBoard.Config
