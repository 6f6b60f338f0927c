import Std.Time.DateTime.Timestamp
import TabBoard.Startup.Program

/-!
# The program

The start of the program on real files, with the real clock and terminal. Listening for requests is
not part of it: once the parts of the dashboard are there, it ends.
-/

namespace TabBoard.Main

def succeeds (action : IO Unit) : IO Bool :=
  try
    action
    return true
  catch _ => return false

instance : FileSystem IO where
  present path := succeeds do
    let _ ← IO.FS.Handle.mk path .read
  isFile path := succeeds do
    let _ ← (← IO.FS.Handle.mk path .read).read 1
  read path :=
    try
      return some (← IO.FS.readBinFile path).toList
    catch _ => return none
  makeDirectories path := if path = "" then pure true else succeeds (IO.FS.createDirAll path)
  append path text := succeeds do
    (← IO.FS.Handle.mk path .append).putStr text

instance : Terminal IO where
  now := do
    let nanos := (← Std.Time.Timestamp.now).toNanosecondsSinceUnixEpoch.val.toNat
    return ⟨nanos / 1000000000, nanos % 1000000000⟩
  print text := do
    let out ← IO.getStdout
    out.putStrLn text
    out.flush

/-- The variables in a block in which each of them ends with a zero octet. One that is not text
counts as one that is not set. -/
def environmentOf (block : Text.Utf8.Octets) : Environment :=
  -- cut at the zeros before anything is decoded, so that one bad variable spoils no other
  let pieces := Text.splitAll '\x00' (block.map fun octet => Char.ofNat octet.toNat)
  let texts := pieces.filterMap fun piece => Text.Utf8.decode? (piece.map (·.toNat.toUInt8))
  texts.foldl (fun env text =>
    match Text.splitOnce '=' text.toList with
    | some (name, value) => env.insert (String.ofList name) (String.ofList value)
    | none => env) {}

def environment : IO Environment := do
  return environmentOf ((← FileSystem.read "/proc/self/environ" : Option Text.Utf8.Octets).getD [])

/-- What is said on the way out. -/
def farewell : Startup.Outcome → Option String
  | .failed f => some s!"Error: {f.message}"
  | .refused .unknownArgument => some "error: unexpected argument found"
  | .refused .missingValue =>
    some "error: a value is required for '--config-dir <DIR>' but none was supplied"
  | .refused .needlessValue => some "error: unexpected value found"
  | .refused .repeated => some "error: an argument cannot be used multiple times"
  | _ => none

end TabBoard.Main

open TabBoard in
def main (args : List String) : IO UInt32 := do
  let current := (← IO.currentDir).toString
  let outcome ← Startup.start (← Main.environment) current args
  match Main.farewell outcome with
  | some text => IO.eprintln text
  | none => pure ()
  return outcome.exitCode.toUInt32
