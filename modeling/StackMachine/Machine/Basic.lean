import StackMachine.Config.Basic
import StackMachine.Failure
import StackMachine.Stack
import StackMachine.Table

namespace StackMachine

open Text (Layout)

/-!
# Machines

A machine owns an evaluation stack and a table of handlers for named syscalls. Its configuration is
fixed when it is built.

* `Handler` — what a syscall runs: the built-in exit, or a routine known by its slot.
* `Machine`, `Machine.boot` — the state, and the state of a machine just built.
* `Machine.layout` — how a machine is shown.
-/

/-- What a bound name runs: the built-in exit, or code that is kept apart from the machine. -/
inductive Handler where
  /-- pop an integer, report the running time and end the process -/
  | exit
  /-- the code kept in a slot -/
  | routine (slot : Nat)
  deriving DecidableEq, Repr

/-- The name under which every new machine finds `Handler.exit`. -/
def exitName : String := "Exit"

/-- The table of a new machine, which binds `exitName` only. -/
def builtinTable : Table Handler := Table.empty.register exitName .exit

/-- In `builtinTable` exactly `exitName` is bound, to `Handler.exit`. -/
theorem get_builtinTable (name : String) :
    builtinTable.get name = if name = exitName then some .exit else none := by
  rw [builtinTable, Table.get_register, Table.get_empty]

/-- The state of a machine. Its `config` is never changed by a run. -/
structure Machine where
  /-- the evaluation stack -/
  stack : Stack Value
  table : Table Handler
  config : Config
  /-- nanoseconds since the machine was built -/
  elapsed : Nat
  deriving DecidableEq

/-- A table is shown as the set of its `names`, in their order. -/
def Table.layout {α : Type} (t : Table α) : Layout := .set (t.names.map .quoted)

namespace Machine

/-- The machine just built with a configuration: an empty stack and `builtinTable`. -/
def boot (c : Config) : Machine := ⟨.empty, builtinTable, c, 0⟩

/-- The number of values on the stack. -/
def depth (m : Machine) : Nat := m.stack.depth

/-- The `depth` that is kept at hand is the number of the stack's values. -/
theorem depth_eq (m : Machine) : m.depth = m.stack.values.length := m.stack.depth_eq

/-- Stack (bottom first), names and configuration are shown, as an open record; handlers and time
    are not. -/
def layout (m : Machine) : Layout :=
  .record "Interpreter"
    [("stack", .list (m.stack.values.reverse.map Value.layout)), ("syscalls", m.table.layout),
      ("config", m.config.layout)] true

end Machine

end StackMachine
