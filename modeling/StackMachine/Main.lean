import StackMachine.Command

/-!
# The outer layer of the command

It asks the system for words, variables, the configuration file and the time, and prints what the
command comes to.
-/

namespace StackMachine.Command

open Text (Glyph Raw)

/-- The error of a file that the system could not read. -/
def fileErrorOf : IO.Error → FileError
  | .permissionDenied .. => .permissionDenied
  | .inappropriateType _ code _ => if code = 21 then .isDirectory else .notDirectory
  | .invalidArgument .. => .nameTooLong
  | _ => .notFound

/-- What the system has at a path. -/
def fetchFile (path : Raw) : IO (Except FileError Raw) := do
  if Glyph.char '\x00' ∈ path then return .error .nulInPath
  match path.string? with
  | none => return .error .notFound
  | some p =>
    try return .ok (Raw.ofBytes (← IO.FS.readBinFile p).data.toList)
    catch e => return .error (fileErrorOf e)

/-- The environment variables that matter. -/
def readEnvironment : IO Environment := do
  let mut env := []
  for name in Environment.filterVariables do
    if let some value ← IO.getEnv name then env := env ++ [(name, Raw.ofString value)]
  return env

/-- The file that a command line asks for. Nothing else is ever read. -/
def readFiles (words : List Raw) : IO FileSystem := do
  match CommandLine.read words with
  | .error _ => return fun _ => .error .notFound
  | .ok cl =>
    match cl.config with
    | none => return fun _ => .error .notFound
    | some path =>
      let found ← fetchFile path
      return fun _ => found

/-- Print what a command comes to. The time that it took is the time to report. -/
def print (begun : Nat) (o : Outcome) : IO Unit := do
  IO.sleep (o.elapsed / Number.nanosPerMilli).toUInt32
  let taken := Number.secondsText ((← IO.monoNanosNow) - begun)
  for note in o.stderr do
    match note with
    | .event e => IO.eprintln (e.line taken fun _ => taken)
    | .text s => IO.eprintln s
  for line in o.stdout do
    IO.println (line.render fun _ => taken)

end StackMachine.Command

open StackMachine in
def main (args : List String) : IO UInt32 := do
  let begun ← IO.monoNanosNow
  let words := args.map Text.Raw.ofString
  let o := Command.start words (← Command.readEnvironment) (← Command.readFiles words)
  Command.print begun o
  return o.status.toUInt32
