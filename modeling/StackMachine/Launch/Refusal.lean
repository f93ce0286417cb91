import StackMachine.Failure
import StackMachine.Files
import StackMachine.Json.Error

namespace StackMachine

open Text (Layout)

/-!
# Refusals

Why the host could not do what it was asked for: the program failed, or it was never begun.

* `Refusal`, `Refusal.message` — the causes and their diagnostics.
* `Refusal.sources` — the diagnostics of what lies behind a refusal.
-/

namespace FileError

/-- The name of an error's kind. -/
def kind : FileError → String
  | .notFound => "NotFound"
  | .isDirectory => "IsADirectory"
  | .notDirectory => "NotADirectory"
  | .permissionDenied => "PermissionDenied"
  | .nameTooLong => "InvalidFilename"
  | .nulInPath => "InvalidInput"
  | .notUtf8 => "InvalidData"

end FileError

/-- Why the host could not do what it was asked for. A `Failure` of the program is one of the
    causes. -/
inductive Refusal where
  /-- the program failed, or was given the wrong number of arguments -/
  | failed (f : Failure)
  /-- the configuration file cannot be read -/
  | unreadable (e : FileError)
  /-- the configuration file is no configuration -/
  | badConfig (e : Json.Error)
  | unknownProgram (name : String)
  /-- the text of an argument spells no value of the kind expected there -/
  | invalidArgument (index : Nat) (value : String) (expected : Kind)
  deriving DecidableEq, Repr

namespace Refusal

/-- The diagnostic of a refusal, without the opening that the command puts before it. -/
def message : Refusal → String
  | .failed f => f.message
  | .unreadable e => "File error: " ++ e.message
  | .badConfig e => "Invalid configuration: " ++ e.message
  | .unknownProgram name => "Unknown program '" ++ name ++ "'"
  | .invalidArgument index value expected =>
    "Argument " ++ toString index ++ " ('" ++ value ++ "') is not a valid " ++ expected.name

/-- The diagnostics of what lies behind a refusal: at most one, as no cause has a cause of its
    own. -/
def sources : Refusal → List String
  | .failed f => [f.message]
  | .unreadable e => [e.message]
  | .badConfig e => [e.message]
  | .unknownProgram _ => []
  | .invalidArgument .. => []

/-- The shape under which a refusal is shown. -/
def layout : Refusal → Layout
  | .failed f => .apply "Runtime" [f.layout]
  | .unreadable e =>
    .apply "Io" [.record "Error" [("kind", .word e.kind), ("message", .quoted e.message)] false]
  | .badConfig e => .apply "Config" [e.layout]
  | .unknownProgram name => .apply "UnknownProgram" [.quoted name]
  | .invalidArgument index value expected =>
    .record "InvalidArgument"
      [("index", .number index), ("value", .quoted value), ("expected", expected.layout)] false

end Refusal

end StackMachine
