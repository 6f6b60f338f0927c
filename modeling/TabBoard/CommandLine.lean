/-!
# The command line

There are two options. `--config-dir` has a value, which may stand behind an equals sign or in the
next argument; `--check-config` has none. Each may be given once. Nothing else is known but the
questions for help and for the version, which are answered as soon as they are read.

An option whose value stands in the next argument is settled when the next option is read, or at the
end: until then it may still lack its value, and what is wrong with it is not noticed.
-/

namespace TabBoard

structure CommandLine where
  configDir : Option String := none
  /-- Only look at the configuration. -/
  checkConfig : Bool := false
  deriving Repr, DecidableEq, Inhabited

namespace CommandLine

/-- Why the program does nothing of the kind. -/
inductive Refusal where
  | help
  | version
  | unknownArgument
  /-- An option lacks its value, or the value is empty. -/
  | missingValue
  /-- An option without a value was given one. -/
  | needlessValue
  /-- An option was given twice. -/
  | repeated
  deriving Repr, DecidableEq, Inhabited

/-- The answer to a question is no failure. -/
def Refusal.isAnswer : Refusal → Bool
  | .help => true
  | .version => true
  | _ => false

structure Reading where
  line : CommandLine := {}
  /-- The option `--config-dir` that is not settled, with its value if there is one. -/
  pending : Option (Option String) := none
  deriving Repr, DecidableEq, Inhabited

namespace Reading

def setDir (p : Reading) (value : String) : Except Refusal Reading :=
  if p.line.configDir.isSome then .error .repeated
  else if value = "" then .error .missingValue
  else .ok { p with line.configDir := some value }

def settle (p : Reading) : Except Refusal Reading :=
  match p.pending with
  | none => .ok p
  | some none => .error .missingValue
  | some (some value) => setDir { p with pending := none } value

/-- Reads an option by its name, with the value behind the equals sign. -/
def option (p : Reading) (name : String) (value : Option String) : Except Refusal Reading :=
  match name, value with
  | "config-dir", some value => do (← p.settle).setDir value
  | "config-dir", none => do return { ← p.settle with pending := some none }
  | "check-config", none => do
    let p ← p.settle
    if p.line.checkConfig then throw .repeated
    return { p with line.checkConfig := true }
  | "help", none => do let _ ← p.settle; throw .help
  | "version", none => do let _ ← p.settle; throw .version
  | "check-config", some _ => .error .needlessValue
  | "help", some _ => .error .needlessValue
  | "version", some _ => .error .needlessValue
  | _, _ => .error .unknownArgument

def letter (p : Reading) (c : Char) : Except Refusal Reading :=
  if c = 'h' then p.option "help" none
  else if c = 'V' then p.option "version" none
  else .error .unknownArgument

def value (p : Reading) (text : String) : Except Refusal Reading :=
  if p.pending = some none then .ok { p with pending := some (some text) }
  else .error .unknownArgument

def argument (p : Reading) (text : String) : Except Refusal Reading :=
  match text.toList with
  | '-' :: '-' :: rest =>
    let name := String.ofList (rest.takeWhile (· ≠ '='))
    match rest.dropWhile (· ≠ '=') with
    | _ :: value => p.option name (some (String.ofList value))
    | [] => p.option name none
  | '-' :: c :: _ => p.letter c
  | _ => p.value text

end Reading

/-- Reads arguments after others. Behind `--` nothing is an option any more. -/
def ofArgsFrom (p : Reading) : List String → Except Refusal CommandLine
  | [] => p.settle.map (·.line)
  | "--" :: [] => p.settle.map (·.line)
  | "--" :: _ :: _ => .error .unknownArgument
  | arg :: args => do ofArgsFrom (← p.argument arg) args

def ofArgs (args : List String) : Except Refusal CommandLine := ofArgsFrom {} args

end CommandLine

end TabBoard
