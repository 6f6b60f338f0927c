import TabBoard.Startup.Wiring
import TabBoard.Proofs.Http.Callback
import TabBoard.Proofs.Loading

/-!
# The secret of callbacks

The secret comes from the configuration file, or from a variable of the environment that comes over
it. An empty variable leaves the secret unset (`optional_eq_empty_iff`); an empty text in the file
is kept as a secret that is empty.

**Theorem (`secret_judged`).** In production a callback without a secret is refused, whatever was
loaded. One with an empty secret is refused as well, unless the file has an empty secret and the
variable is not set. The same holds of every setting that may be unset: it is empty exactly if the
file says so and its variable is not set.

So the file and the environment do not agree on the empty text: with the file of
`empty_secret_passes` an empty secret is the right one.
-/

namespace TabBoard

namespace Config

variable {env : Environment}

/-! ## Settings that may be unset -/

/-- The settings that may be unset, each with its variable. -/
def optionalSettings : List (String × (Config → Option String)) := [
  ("DH_LOG_FILE", (·.logging.file)),
  ("DH_AUTH_JWT_SECRET", (·.auth.jwtSecret)),
  ("DH_AUTH_JWT_PUBLIC_KEY_PATH", (·.auth.jwtKeyPath)),
  ("DH_K8S_API_SERVER", (·.kubernetes.apiServer)),
  ("DH_SSE_CALLBACK_SECRET", (·.sse.callbackSecret))]

theorem optional_overlay (env : Environment) (file : Config) :
    ∀ s ∈ optionalSettings, s.2 (overlay env file) = env.optional s.1 (s.2 file) := by
  simp [optionalSettings, overlay]

/-- The environment never says that a setting is empty. -/
theorem optional_eq_empty_iff {name : String} {old : Option String} :
    env.optional name old = some "" ↔ env.get? name = none ∧ old = some "" := by
  unfold Environment.optional
  cases env.get? name with
  | none => simp
  | some v => by_cases hv : v = "" <;> simp [hv]

end Config

namespace Http

/-! ## Who is refused -/

/-- Whoever brings another secret than the configured one is unauthorized. -/
theorem checkSecret_wrong {configured supplied : Option String}
    (h : ∀ secret, supplied = some secret → configured ≠ some secret) :
    ∃ message, checkSecret true configured supplied = .error (.unauthorized message) := by
  unfold checkSecret
  cases configured with
  | none => exact ⟨_, rfl⟩
  | some secret =>
    have hne : supplied ≠ some secret := fun hsame => h secret hsame rfl
    exact ⟨_, if_neg hne⟩

/-- **What becomes of callbacks with no secret or an empty one**, under the settings that were
loaded from a file and an environment. -/
structure SecretJudged (env : Environment) (file c : Config) (settings : Settings) : Prop where
  /-- Without a secret a callback is unauthorized. -/
  absent : ∃ message, checkSecret settings.production settings.callbackSecret none =
    .error (.unauthorized message)
  /-- With an empty one it is too, unless the file has an empty one and the variable is not set. -/
  empty : (∃ message, checkSecret settings.production settings.callbackSecret (some "") =
      .error (.unauthorized message)) ↔
    ¬ (env.get? "DH_SSE_CALLBACK_SECRET" = none ∧ file.sse.callbackSecret = some "")
  /-- So every request is answered that would report a connect or a disconnect. -/
  answered : ∀ (b : Board) (now : Moment) (r : Request) (supplied : Option String),
    b.settings = settings → b.registry ≠ none → IsCallback r →
    suppliedSecret? r.query = some supplied → supplied = none ∨ supplied = some "" ∧
      ¬ (env.get? "DH_SSE_CALLBACK_SECRET" = none ∧ file.sse.callbackSecret = some "") →
    ∃ message, b.action now r = .answer (.ofError (.unauthorized message))
  /-- Every setting that may be unset is empty just when the file says so and its variable is not
  set. -/
  optional : ∀ s ∈ Config.optionalSettings,
    s.2 c = some "" ↔ env.get? s.1 = none ∧ s.2 file = some ""

theorem secret_judged {t t' : FileTree} {env : Environment} {dir : String} {c : Config}
    (validator : Option Auth.Validator) (hload : Config.loadFrom t env dir = (.ok c, t'))
    (hproduction : c.server.isProduction = true) :
    ∃ file, Config.said t' (Config.fileOf dir) = .ok file ∧
      SecretJudged env file c (.ofConfig c validator) := by
  obtain ⟨file, hsaid, rfl⟩ := Config.exists_of_loadFrom hload
  have hoptional : ∀ s ∈ Config.optionalSettings,
      s.2 (Config.overlay env file) = some "" ↔ env.get? s.1 = none ∧ s.2 file = some "" := by
    intro s hs
    rw [Config.optional_overlay env file s hs, Config.optional_eq_empty_iff]
  have hsecret := hoptional ("DH_SSE_CALLBACK_SECRET", (·.sse.callbackSecret))
    (by simp [Config.optionalSettings])
  generalize Config.overlay env file = c at *
  dsimp only at hsecret
  have hnone : ∃ message, checkSecret true c.sse.callbackSecret none =
      .error (.unauthorized message) := checkSecret_wrong (by simp)
  have hempty : c.sse.callbackSecret ≠ some "" → ∃ message,
      checkSecret true c.sse.callbackSecret (some "") = .error (.unauthorized message) :=
    fun hne => checkSecret_wrong (by rintro _ ⟨⟩; exact hne)
  refine ⟨file, hsaid, {
    absent := ?_
    empty := ?_
    answered := ?_
    optional := hoptional }⟩
  · rw [Settings.ofConfig, hproduction]
    exact hnone
  · rw [Settings.ofConfig, hproduction, ← hsecret]
    refine ⟨?_, hempty⟩
    rintro ⟨message, hrefused⟩ hsame
    have hok : checkSecret true c.sse.callbackSecret (some "") = .ok () :=
      checkSecret_eq_ok_iff.2 fun _ => ⟨"", hsame, rfl⟩
    cases hok.symm.trans hrefused
  · intro b now r supplied hsettings hregistry hcallback hquery hsupplied
    have hwrong : ∃ message, checkSecret b.settings.production b.settings.callbackSecret supplied =
        .error (.unauthorized message) := by
      rw [hsettings, Settings.ofConfig, hproduction]
      obtain rfl | ⟨rfl, hunless⟩ := hsupplied
      · exact hnone
      · exact hempty fun hsame => hunless (hsecret.1 hsame)
    obtain ⟨message, hrefused⟩ := hwrong
    exact ⟨message, hcallback.action_of_wrong hregistry hquery hrefused⟩

/-- The file has an empty secret, and an empty variable unsets it. -/
theorem secret_judged_unset :
    let text := "server.environment = \"Production\"\nsse.callback_secret = \"\"\n"
    let t := ({} : FileTree).put "etc/config.toml" (.file (Text.Utf8.encode text))
    let env : Environment := ({} : Environment).insert "DH_SSE_CALLBACK_SECRET" ""
    let c : Config := { server := { environment := "Production" } }
    Config.loadFrom t env "etc" = (.ok c, t) ∧ c.server.isProduction = true ∧
      (∃ file, SecretJudged env file c (.ofConfig c none)) ∧
      ∃ message, checkSecret (Settings.ofConfig c none).production
        (Settings.ofConfig c none).callbackSecret (some "") = .error (.unauthorized message) := by
  intro text t env c
  have hload : Config.loadFrom t env "etc" = (.ok c, t) := by decide +kernel
  have hproduction : c.server.isProduction = true := by decide
  obtain ⟨file, -, hjudged⟩ := secret_judged none hload hproduction
  have hset : env.get? "DH_SSE_CALLBACK_SECRET" = some "" := by decide
  exact ⟨hload, hproduction, ⟨file, hjudged⟩, hjudged.empty.2 (by simp [hset])⟩

/-- **An empty secret in the file is kept, and lets callbacks pass that bring an empty one.** -/
theorem empty_secret_passes :
    ¬ ∀ (t t' : FileTree) (env : Environment) (dir : String) (c : Config)
      (validator : Option Auth.Validator) (supplied : Option String),
      Config.loadFrom t env dir = (.ok c, t') → c.server.isProduction = true →
      supplied = none ∨ supplied = some "" →
      ∃ message, checkSecret (Settings.ofConfig c validator).production
        (Settings.ofConfig c validator).callbackSecret supplied =
          .error (.unauthorized message) := by
  intro h
  let text := "server.environment = \"production\"\nsse.callback_secret = \"\"\n"
  let t := ({} : FileTree).put "etc/config.toml" (.file (Text.Utf8.encode text))
  let c : Config :=
    { server := { environment := "production" }, sse := { callbackSecret := some "" } }
  have hload : Config.loadFrom t {} "etc" = (.ok c, t) := by decide +kernel
  obtain ⟨message, hrefused⟩ := h t t {} "etc" c none (some "") hload (by decide) (.inr rfl)
  have hok : checkSecret (Settings.ofConfig c none).production
      (Settings.ofConfig c none).callbackSecret (some "") = .ok () := by decide
  cases hok.symm.trans hrefused

end Http

end TabBoard
