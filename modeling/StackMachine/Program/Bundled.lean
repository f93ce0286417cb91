import StackMachine.Program.Basic

namespace StackMachine.Program

/-!
# Bundled programs

The programs that come with the runtime, in the order in which they are listed.

* `bundled`, `find?` — all of them, and the one of a name.
-/

/-- Add zero to the second argument, report it and say hello. -/
def hello : Program where
  name := "hello"
  params := [.i64, .i64]
  main :=
    .perform (.argAs 0 .i64) fun _ =>
    .perform (.argAs 1 .i64) fun (b : Int64) =>
    .perform (.compute (0 + b)) fun _ =>
    .perform (.write "Hello, World!") fun _ => .skip

/-- End with the argument as code. -/
def exit : Program where
  name := "exit"
  params := [.i64]
  main :=
    .perform (.argAs 0 .i64) fun (a : Int64) =>
    .perform (.push (.i64 a)) fun _ =>
    .perform (.syscall exitName) fun _ => .skip

/-- End with the sum of the arguments as code. The sum wraps around at 64 bits. -/
def addExit : Program where
  name := "add_exit"
  params := [.i64, .i64]
  main :=
    .perform (.argAs 0 .i64) fun (a : Int64) =>
    .perform (.argAs 1 .i64) fun (b : Int64) =>
    .perform (.push (.i64 (a + b))) fun _ =>
    .perform (.syscall exitName) fun _ => .skip

/-- Offer a truth value as exit code. -/
def boolExit : Program where
  name := "bool_exit"
  params := []
  main :=
    .perform (.push (.bool true)) fun _ =>
    .perform (.syscall exitName) fun _ => .skip

/-- Offer nothing as exit code. -/
def underflowExit : Program where
  name := "underflow_exit"
  params := []
  main := .perform (.syscall exitName) fun _ => .skip

/-- Ask for a syscall that nothing is bound to. -/
def unknownSyscall : Program where
  name := "unknown_syscall"
  params := []
  main := .perform (.syscall "DoesNotExist") fun _ => .skip

/-- Wait as many milliseconds as the argument says, none if it is negative, and end with code 0. -/
def sleepExit : Program where
  name := "sleep_exit"
  params := [.i64]
  main :=
    .perform (.argAs 0 .i64) fun (a : Int64) =>
    .perform (.sleep a.toInt.toNat) fun _ =>
    .perform (.push (.i64 0)) fun _ =>
    .perform (.syscall exitName) fun _ => .skip

/-- Every program that comes with the runtime. -/
def bundled : List Program :=
  [hello, exit, addExit, boolExit, underflowExit, unknownSyscall, sleepExit]

/-- The bundled program of a name. No two have the same one. -/
def find? (name : String) : Option Program := bundled.find? fun p => p.name = name

end StackMachine.Program
