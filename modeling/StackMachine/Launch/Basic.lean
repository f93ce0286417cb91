import StackMachine.Argument.Text
import StackMachine.Code.Exec
import StackMachine.CommandLine.Basic
import StackMachine.Config.Reader
import StackMachine.Launch.Refusal
import StackMachine.Program.Bundled

namespace StackMachine

open Text (Raw)

/-!
# Launching programs

* `Program.readArguments` — the arguments that texts spell.
* `launch` — a bundled program by name, on a machine of its own.
* `Config.load`, `CommandLine.configure` — the configuration of a file, and of a command line.
-/

/-! ### Arguments -/

/-- The values that texts spell, the first of which has this index. The first text that spells none
    is reported, with its index. -/
def readValues : (index : Nat) → List Kind → List String → Except Refusal (List Value)
  | index, k :: ks, t :: ts =>
    match Value.read? k t with
    | none => .error (.invalidArgument index t k)
    | some v => (readValues (index + 1) ks ts).map (v :: ·)
  | _, _, _ => .ok []

/-- The arguments of a program that texts spell. A wrong number is reported before any text. -/
def Program.readArguments (p : Program) (texts : List String) : Except Refusal (List Value) :=
  if p.params.length = texts.length then readValues 0 p.params texts
  else .error (.failed (.arityMismatch p.name p.params.length texts.length))

/-! ### Runs of bundled programs -/

/-- What comes of launching a program. Only `Launch.ran` had a machine. -/
inductive Launch where
  /-- no machine was built -/
  | refused (r : Refusal)
  /-- the stack slots that the configuration asks for cannot be set aside -/
  | tooLarge
  | ran (r : Run Answer)

/-- Launch the bundled program of a name. The name is looked at first, then the arguments, then the
    size of the stack; only then is there a machine, and it is thrown away afterwards. -/
def launch (c : Config) (name : String) (texts : List String) : Launch :=
  match Program.find? name with
  | none => .refused (.unknownProgram name)
  | some p =>
    match p.readArguments texts with
    | .error r => .refused r
    | .ok args =>
      if c.fits then
        .ran (Code.run Code.noRoutines 0 (p.executed args .skip) [] (Machine.boot c))
      else .tooLarge

/-! ### Configurations -/

/-- The configuration in a file: its `FileSystem.text`, read by `Config.read`. -/
def Config.load (fs : FileSystem) (path : Raw) : Except Refusal Config :=
  match fs.text path with
  | .error e => .error (.unreadable e)
  | .ok text =>
    match Config.read text with
    | .error e => .error (.badConfig e)
    | .ok c => .ok c

/-- What the log says about a configuration file that was read. -/
def Config.loaded (path : Raw) (c : Config) : Log.Event := .configured path.lossy c

namespace CommandLine

/-- The configuration that a command line begins with: that of its file, or the default one. -/
def baseConfig (fs : FileSystem) (cl : CommandLine) : Except Refusal Config :=
  match cl.config with
  | some path => Config.load fs path
  | none => .ok {}

/-- The configuration of a command line: its `baseConfig`, in which the flag for unknown syscalls
    overrides the policy and nothing else. -/
def configure (fs : FileSystem) (cl : CommandLine) : Except Refusal Config := do
  let c ← cl.baseConfig fs
  return if cl.legacy then { c with unknownSyscall := .ignore } else c

/-- What the log says about the configuration of a command line. A file that cannot be used is not
    mentioned. -/
def configureEvents (fs : FileSystem) (cl : CommandLine) : List Log.Event :=
  match cl.config with
  | none => []
  | some path =>
    match Config.load fs path with
    | .ok c => [Config.loaded path c]
    | .error _ => []

end CommandLine

/-- How a configuration that is ready for launches is shown. -/
def Config.runtimeLayout (c : Config) : Text.Layout :=
  .record "Runtime" [("config", c.layout)] false

end StackMachine
