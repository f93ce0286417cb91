import StackMachine.Code.Exec
import StackMachine.Program.Basic

namespace StackMachine

/-!
# Instructions

A small step language in which machines are driven and routines and programs are scripted. Every
instruction stands for a piece of code, and its answer is the last one the piece has.

* `Instr` — the instructions.
* `Instr.code`, `Instr.script` — one instruction as code, and a list of them in turn.
-/

/-- An instruction. -/
inductive Instr where
  /-- one operation of the machine -/
  | perform (op : Op)
  /-- read something off the machine -/
  | look (v : View)
  /-- run a program on arguments after the check -/
  | execute (p : Program) (args : List Value)
  /-- run a program's code on arguments that nobody checked -/
  | enter (p : Program) (args : List Value)
  /-- the same instruction this many times -/
  | times (n : Nat) (i : Instr)
  /-- pop two integers and push their sum, which wraps around -/
  | add
  /-- pop two integers and push whether the lower one on the stack is less -/
  | less
  /-- pop a truth value and push its opposite -/
  | not
  /-- pop a condition and two integers, and push the lower integer if it holds, else the other -/
  | select
  /-- pop a value and push it twice -/
  | dup
  /-- push an argument -/
  | pushArg (i : Nat)
  /-- read an argument as kind `k` and push it -/
  | pushArgAs (i : Nat) (k : Kind)

/-- How the answer of an operation is told. -/
def Op.answer : (op : Op) → op.Result → Answer
  | .pop, v => .value v
  | .popAs k, a => .value (.of k a)
  | .drain, vs => .values vs
  | .register _ _, before => .truth before.isSome
  | .lookup _, h? => .truth h?.isSome
  | .wrap _ _, b => .truth b
  | .call _, b => .truth b
  | .arg _, v => .value v
  | .argAs _ k, a => .value (.of k a)
  | _, _ => .nothing

namespace Instr

/-- A piece of code `n` times over, and then `next` on its last answer. -/
def repeated (piece : (Answer → Code) → Code) : Nat → (Answer → Code) → Code
  | 0, next => next .nothing
  | 1, next => piece next
  | n + 2, next => piece fun _ => repeated piece (n + 1) next

/-- Push a value that code has at hand, and then go on. -/
def pushing (v : Value) (next : Answer → Code) : Code :=
  .perform (.push v) fun _ => next .nothing

/-- An instruction as code, and then `next` on its answer. -/
def code : Instr → (Answer → Code) → Code
  | .perform op, next => .perform op fun r => next (op.answer r)
  | .look v, next => next (.view v)
  | .execute p args, next => p.executed args (next .nothing)
  | .enter p args, next => p.entered args (next .nothing)
  | .times n i, next => repeated i.code n next
  | .add, next =>
    .perform (.popAs .i64) fun (b : Int64) =>
    .perform (.popAs .i64) fun (a : Int64) => pushing (.i64 (a + b)) next
  | .less, next =>
    .perform (.popAs .i64) fun (b : Int64) =>
    .perform (.popAs .i64) fun (a : Int64) => pushing (.bool (a < b)) next
  | .not, next => .perform (.popAs .bool) fun (b : Bool) => pushing (.bool (!b)) next
  | .select, next =>
    .perform (.popAs .bool) fun (holds : Bool) =>
    .perform (.popAs .i64) fun (otherwise : Int64) =>
    .perform (.popAs .i64) fun (chosen : Int64) =>
      pushing (.i64 (if holds then chosen else otherwise)) next
  | .dup, next =>
    .perform .pop fun (v : Value) =>
    .perform (.push v) fun _ => pushing v next
  | .pushArg i, next => .perform (.arg i) fun (v : Value) => pushing v next
  | .pushArgAs i k, next => .perform (.argAs i k) fun a => pushing (.of k a) next

/-- Instructions in turn. Their answers are not used. -/
def script : List Instr → Code
  | [] => .skip
  | i :: is => i.code fun _ => script is

end Instr

end StackMachine
