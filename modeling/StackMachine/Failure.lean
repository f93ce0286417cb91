import StackMachine.Value

namespace StackMachine

open Text (Layout)

/-!
# Failures of a running program

Every failure is a defect of the program that issued the operation, so nothing is retried.

* `Failure` — the four causes.
* `Failure.message` — the diagnostic of each.
-/

/-- Why an operation of the machine failed. -/
inductive Failure where
  /-- a value was read as a kind it is not -/
  | kindMismatch (e : KindMismatch)
  /-- a pop met an empty stack -/
  | stackUnderflow
  /-- no handler has this name, and unknown names are rejected -/
  | unknownSyscall (name : String)
  /-- a program was given the wrong number of arguments -/
  | arityMismatch (program : String) (expected actual : Nat)
  deriving DecidableEq, Repr

namespace Failure

/-- The diagnostic of a failure. -/
def message : Failure → String
  | .kindMismatch e => e.message
  | .stackUnderflow => "Stack underflow: pop from an empty evaluation stack"
  | .unknownSyscall name => "Unknown syscall '" ++ name ++ "'"
  | .arityMismatch program expected actual =>
    "Program '" ++ program ++ "' expects " ++ toString expected ++ " argument(s), got "
      ++ toString actual

/-- The shape under which a failure is shown. -/
def layout : Failure → Layout
  | .kindMismatch e => .apply "TypeMismatch" [e.layout]
  | .stackUnderflow => .word "StackUnderflow"
  | .unknownSyscall name => .apply "UnknownSyscall" [.quoted name]
  | .arityMismatch program expected actual =>
    .record "ArityMismatch"
      [("program", .quoted program), ("expected", .number expected), ("actual", .number actual)]
      false

end Failure

end StackMachine
