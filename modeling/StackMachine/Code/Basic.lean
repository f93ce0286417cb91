import StackMachine.Machine.Basic

namespace StackMachine

/-!
# Code

Compiled code keeps its locals in native variables, and the machine sees of it only the operations
that it asks for. So code is a tree: at each node one operation, and one branch for every answer
that the operation can have. Code cannot look at the machine except through the answers.

* `Op`, `Op.Result` — the operations, and the type of the answer of each.
* `Code` — the trees. Two nodes run a program inside: `enter` its code alone, `execute` with the
  check of its arguments.
* `Answer` — what code ends with.
-/

/-- An operation of the machine that code can ask for. What each does is `Op.run`. -/
inductive Op where
  | push (v : Value)
  | pop
  | popAs (k : Kind)
  /-- pop until the stack is empty -/
  | drain
  /-- run the handler bound to a name, or follow the policy for unknown names -/
  | syscall (name : String)
  /-- bind a name, and answer with the handler that was bound to it before -/
  | register (name : String) (h : Handler)
  /-- read the handler bound to a name -/
  | lookup (name : String)
  /-- run a handler that is at hand -/
  | invoke (h : Handler)
  /-- bind a name, then run the handler that was bound to it before, if any -/
  | wrap (name : String) (h : Handler)
  /-- run the handler bound to a name, if any -/
  | call (name : String)
  | write (line : String)
  /-- end the process -/
  | exit (code : Int32)
  | sleep (millis : Nat)
  /-- report a number to the log -/
  | compute (n : Int64)
  /-- read an argument -/
  | arg (index : Nat)
  | argAs (index : Nat) (k : Kind)
  /-- check arguments against parameters -/
  | check (program : String) (params : List Kind) (args : List Value)
  deriving DecidableEq, Repr

/-- The type of an operation's answer, and so of what `Code.perform` branches on. -/
def Op.Result : Op → Type
  | .push _ => Unit
  | .pop => Value
  | .popAs k => k.Carrier
  | .drain => List Value
  | .syscall _ => Unit
  | .register _ _ => Option Handler
  | .lookup _ => Option Handler
  | .invoke _ => Unit
  | .wrap _ _ => Bool
  | .call _ => Bool
  | .write _ => Unit
  | .exit _ => Empty
  | .sleep _ => Unit
  | .compute _ => Unit
  | .arg _ => Value
  | .argAs _ k => k.Carrier
  | .check _ _ _ => Unit

/-- Something that can be read off a machine. Code hands it over as an `Answer.view` and never
    looks. -/
inductive View where
  | peek
  | depth
  | isEmpty
  | stack
  | names
  | contains (name : String)
  | config
  | line
  | block
  | elapsed
  deriving DecidableEq, Repr

/-- What code ends with. An `Answer.view` is not looked at by the code itself. -/
inductive Answer where
  | nothing
  | truth (b : Bool)
  | value (v : Value)
  | values (vs : List Value)
  | view (v : View)
  deriving DecidableEq, Repr

/-- Compiled code: a tree with one branch for every answer in `Op.Result`. -/
inductive Code where
  | done (a : Answer)
  | perform (op : Op) (next : op.Result → Code)
  /-- the code of a program with its arguments, and then `next` -/
  | enter (main : Code) (args : List Value) (next : Code)
  /-- the same after a check of the arguments against the program's parameters -/
  | execute (program : String) (params : List Kind) (main : Code) (args : List Value) (next : Code)

namespace Code

/-- Code with nothing to do. -/
def skip : Code := .done .nothing

/-- The code of each slot that a `Handler.routine` can refer to. -/
abbrev Routines := Nat → Code

/-- Slots without code: `skip` everywhere. -/
def noRoutines : Routines := fun _ => skip

end Code

end StackMachine
