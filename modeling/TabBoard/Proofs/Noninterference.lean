import TabBoard.Startup.Program
import Mathlib.Data.List.Nodup

/-!
# Secrets and what the start says

The configuration holds two secrets, the one that tokens are signed with and the one that callbacks
bring. The start looks at whether they are there, and at the length of the first.

**Theorem (`secrets_undisclosed`).** Two configurations that differ in nothing else are told apart
by nothing that the start says: not by the summary, not by the faults that are found in them, and
not by what is logged or reported while the parts are put together (`Undisclosed`).

The last is an equation between two programs in any monad with files and a terminal. So it is about
all that they read, write and print, and not only about how they end.
-/

namespace TabBoard

namespace Config

/-- The configuration with other secrets. -/
def withSecrets (c : Config) (jwt callback : Option String) : Config :=
  { c with
    auth := { c.auth with jwtSecret := jwt }
    sse := { c.sse with callbackSecret := callback } }

/-- The configurations are equal up to the contents of their secrets. -/
structure Alike (c c' : Config) : Prop where
  others : c' = c.withSecrets c'.auth.jwtSecret c'.sse.callbackSecret
  /-- The secrets of tokens are both unset, or have as many octets. -/
  jwt : c'.auth.jwtSecret.map (·.utf8ByteSize) = c.auth.jwtSecret.map (·.utf8ByteSize)
  /-- The secrets of callbacks are both set or both unset. -/
  callback : c'.sse.callbackSecret.isSome = c.sse.callbackSecret.isSome

variable {c c' : Config}

theorem Alike.kubernetes (h : Alike c c') : c'.kubernetes = c.kubernetes := by
  rw [h.others]
  rfl

/-- What there is to know of the secret of tokens. -/
theorem Alike.jwt_cases (h : Alike c c') :
    (c.auth.jwtSecret = none ∧ c'.auth.jwtSecret = none) ∨
      ∃ secret secret', c.auth.jwtSecret = some secret ∧ c'.auth.jwtSecret = some secret' ∧
        secret'.utf8ByteSize = secret.utf8ByteSize := by
  have hjwt := h.jwt
  cases hold : c.auth.jwtSecret <;> cases hnew : c'.auth.jwtSecret <;> simp [hold, hnew] at hjwt
  · exact .inl ⟨rfl, rfl⟩
  · exact .inr ⟨_, _, rfl, rfl, hjwt⟩

theorem Alike.isSome_jwt (h : Alike c c') : c'.auth.jwtSecret.isSome = c.auth.jwtSecret.isSome := by
  rw [← Option.isSome_map (f := (·.utf8ByteSize)), h.jwt, Option.isSome_map]

/-! ## The summary and the faults -/

theorem Alike.summary (h : Alike c c') : c'.summary = c.summary := by
  have hkind : c'.auth.keyKind = c.auth.keyKind := by
    unfold Auth.keyKind
    rw [h.isSome_jwt, h.others]
    rfl
  have hsse : c'.sse.summary = c.sse.summary := by
    unfold Sse.summary
    rw [h.callback, h.others]
    rfl
  have hlacks : c'.lacksSecret = c.lacksSecret := by
    unfold lacksSecret
    rw [← Option.not_isSome, h.callback, Option.not_isSome, h.others]
    rfl
  unfold Config.summary
  rw [hkind, hsse, hlacks, h.others]
  rfl

/-- A secret that is too short is refused with its length. -/
theorem Alike.validate_auth (h : Alike c c') (dir : String) (isFile : Bool) :
    c'.auth.validate dir isFile = c.auth.validate dir isFile := by
  have hsecrets := h.jwt_cases
  unfold Auth.validate
  obtain ⟨hold, hnew⟩ | ⟨secret, secret', hold, hnew, hlength⟩ := hsecrets
  · rw [hold, hnew, h.others]
    rfl
  · rw [hold, hnew, h.others]
    dsimp only [withSecrets]
    cases c.auth.jwtKeyPath with
    | none => simp only [hlength]
    | some path => rfl

theorem Alike.validate (h : Alike c c') (dir : String) (isFile : Bool) :
    c'.validate dir isFile = c.validate dir isFile := by
  unfold Config.validate
  rw [h.validate_auth, h.others]
  rfl

end Config

namespace Startup

open Config (Alike)

variable {m : Type → Type} [Monad m] [FileSystem m] {c c' : Config}

theorem keyFile_of_alike (h : Alike c c') (dir : String) :
    c'.auth.keyFile? dir = c.auth.keyFile? dir := by
  rw [h.others]
  rfl

theorem enabled_of_alike (h : Alike c c') : c'.auth.enabled = c.auth.enabled := by
  rw [h.others]
  rfl

/-! ## The checks and the log -/

theorem check_of_alike (h : Alike c c') (dir : String) :
    (c'.check dir : m (Except Config.Error Unit)) = c.check dir := by
  unfold Config.check
  simp only [keyFile_of_alike h, h.validate]

theorem openingNotices_of_alike (h : Alike c c') (log : Log) (dir : String) :
    openingNotices log c' dir = openingNotices log c dir := by
  rw [openingNotices, h.summary, openingNotices]

theorem openLog_of_alike (h : Alike c c') (dir : String) :
    (openLog c' dir : m (Except Failure Log)) = openLog c dir := by
  rw [h.others]
  rfl

/-! ## Putting the parts together -/

/-- What is reported when the parts are put together: the text of the error, or the algorithm that
tokens are checked by. -/
def report (r : Except Wiring.Error Wiring) : Except String (Option String) :=
  (r.mapError Wiring.Error.message).map
    (·.board.settings.auth.validator.map (·.key.algorithmName))

/-- The validator is had in the same way. If its key is a secret, it is another secret. -/
theorem validator_of_alike (h : Alike c c') (dir : String) :
    (Wiring.validator c'.auth dir : m (Except Wiring.Error (Option Auth.Validator))) =
        Wiring.validator c.auth dir ∨
      ∃ secret secret', (Wiring.validator c.auth dir : m (Except Wiring.Error _)) =
          pure (.ok (some (.ofSecret secret))) ∧
        (Wiring.validator c'.auth dir : m (Except Wiring.Error _)) =
          pure (.ok (some (.ofSecret secret'))) := by
  have hsecrets := h.jwt_cases
  unfold Wiring.validator
  rw [keyFile_of_alike h, enabled_of_alike h]
  cases c.auth.enabled with
  | false => exact .inl rfl
  | true =>
    obtain ⟨hold, hnew⟩ | ⟨secret, secret', hold, hnew, -⟩ := hsecrets
    · rw [hold, hnew]
      exact .inl rfl
    · rw [hold, hnew]
      exact .inr ⟨secret, secret', rfl, rfl⟩

theorem build_of_alike [LawfulMonad m] [Terminal m] (h : Alike c c') (log : Log)
    (env : Environment) (dir : String) :
    report <$> (Wiring.ofConfig log env c' dir : m (Except Wiring.Error Wiring)) =
      report <$> Wiring.ofConfig log env c dir := by
  have htabs : (c'.loadTabs dir : m (Except Config.Error Catalog)) = c.loadTabs dir := by
    rw [h.others]
    rfl
  unfold Wiring.ofConfig
  rw [htabs, h.kubernetes]
  simp only [map_bind]
  -- up to the validator both do the same
  refine congrArg _ (funext fun catalog => ?_)
  cases catalog with
  | error e => rfl
  | ok catalog =>
    simp only [map_bind]
    refine congrArg _ (funext fun _ => congrArg _ (funext fun cluster => ?_))
    cases cluster with
    | error e => rfl
    | ok cluster =>
      simp only [map_bind]
      refine congrArg _ (funext fun _ => ?_)
      obtain hsame | ⟨secret, secret', hold, hnew⟩ := validator_of_alike (m := m) h dir
      · rw [hsame]
        refine congrArg _ (funext fun validator => ?_)
        cases validator with
        | error e => rfl
        | ok validator =>
          simp only [map_bind, map_pure]
          rfl
      · rw [hold, hnew]
        simp only [pure_bind, map_bind, map_pure]
        rfl

/-- What the start says of two configurations is the same. -/
structure Undisclosed (c c' : Config) : Prop where
  /-- The summary has the same lines at the same levels. -/
  summary : c'.summary = c.summary
  /-- The same fault is found, with the same message. -/
  validate : ∀ dir isFile, c'.validate dir isFile = c.validate dir isFile
  check : ∀ {m : Type → Type} [Monad m] [FileSystem m] dir,
    (c'.check dir : m (Except Config.Error Unit)) = c.check dir
  /-- The log is opened in the same way and starts with the same lines. -/
  openLog : ∀ {m : Type → Type} [Monad m] [FileSystem m] dir,
    (openLog c' dir : m (Except Failure Log)) = Startup.openLog c dir
  opening : ∀ log dir, openingNotices log c' dir = openingNotices log c dir
  /-- Putting the parts together reads, writes, prints and reports the same. -/
  build : ∀ {m : Type → Type} [Monad m] [LawfulMonad m] [FileSystem m] [Terminal m] log env dir,
    report <$> (Wiring.ofConfig log env c' dir : m (Except Wiring.Error Wiring)) =
      report <$> Wiring.ofConfig log env c dir

/-- **The start does not tell secrets apart**, beyond whether they are set and how long the secret
of tokens is. -/
theorem secrets_undisclosed (h : Alike c c') : Undisclosed c c' where
  summary := h.summary
  validate := h.validate
  check := check_of_alike h
  openLog := openLog_of_alike h
  opening := openingNotices_of_alike h
  build := build_of_alike h

/-- For example, of two secrets that are too short only the length is told. -/
theorem secrets_undisclosed_short :
    let c (jwt callback : String) : Config := {
      auth := { enabled := true, jwtSecret := some jwt }
      sse := { transport := .gateway, callbackSecret := some callback } }
    Alike (c "tick" "one") (c "tock" "another") ∧ c "tick" "one" ≠ c "tock" "another" ∧
      Undisclosed (c "tick" "one") (c "tock" "another") ∧
      (c "tock" "another").validate "etc" false = .error (.shortSecret 4) := by
  intro c
  have halike : Alike (c "tick" "one") (c "tock" "another") := ⟨by decide, by decide, by decide⟩
  exact ⟨halike, by decide, secrets_undisclosed halike, by decide +kernel⟩

end Startup

end TabBoard
