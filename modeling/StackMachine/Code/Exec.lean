import StackMachine.Argument.Check
import StackMachine.Code.Basic
import StackMachine.Machine.Run

namespace StackMachine

/-!
# Running code

Code runs on a machine, with the arguments of the program that it belongs to. Handlers are run by
a function that is passed down, so a run is defined by recursion on the code alone; `Code.call`
ties the knot and counts how deep handlers are nested.

* `Op.run` — one operation.
* `Code.exec` — code, given how handlers run.
* `Code.call`, `Code.run` — handlers and code, nested at most so deep.
-/

/-- How a `Handler` runs on a machine. `Code.call` is one; the theory also takes others. -/
abbrev Calls := Handler → Machine → Run Answer

namespace Machine

/-- Run a handler by `calls`, and drop what it answers with. -/
def invoke (calls : Calls) (h : Handler) (m : Machine) : Run Unit :=
  (m.record (.invoked h)).bind fun _ m => (calls h m).bind fun _ m => .pure () m

/-- Run the handler bound to a name. An unbound one is a failure, or passed over, as
    `Config.unknownSyscall` says. -/
def syscall (calls : Calls) (name : String) (m : Machine) : Run Unit :=
  match m.table.get name with
  | some h => (m.record (.called name m.depth)).bind fun _ m => m.invoke calls h
  | none =>
    match m.config.unknownSyscall with
    | .reject =>
      (m.record (.rejected name)).bind fun _ m => .halt (.failed (.unknownSyscall name)) m
    | .ignore => m.record (.ignored name)

/-- `invoke` for a handler that may be missing. The answer is whether it was there. -/
def invoke? (calls : Calls) (h? : Option Handler) (m : Machine) : Run Bool :=
  match h? with
  | some h => (m.invoke calls h).bind fun _ m => .pure true m
  | none => .pure false m

/-- `register` a handler, then run the one that the name was bound to before. -/
def wrap (calls : Calls) (name : String) (h : Handler) (m : Machine) : Run Bool :=
  (m.register name h).bind fun before m => m.invoke? calls before

/-- Run the handler that `lookup` finds, if any. The answer is whether there was one. In contrast to
    `syscall` the policy is not asked. -/
def call (calls : Calls) (name : String) (m : Machine) : Run Bool :=
  (m.lookup name).bind fun h? m => m.invoke? calls h?

/-- Read an argument of the program. -/
def readArg (args : List Value) (i : Nat) (m : Machine) : Run Value :=
  match args[i]? with
  | some v => .pure v m
  | none => (m.record (.misread i)).bind fun _ m => .halt (.argumentMissing args.length i) m

/-- Read an argument as kind `k`: `readArg`, and then `Value.get`. -/
def readArgAs (args : List Value) (i : Nat) (k : Kind) (m : Machine) : Run k.Carrier :=
  (m.readArg args i).bind fun v m =>
    match v.get k with
    | .ok a => .pure a m
    | .error e => (m.record (.misread i)).bind fun _ m => .halt (.failed (.kindMismatch e)) m

/-- Check arguments against parameters by `checkArguments`, with an event if that fails. -/
def check (program : String) (params : List Kind) (args : List Value) (m : Machine) : Run Unit :=
  match checkArguments program params args with
  | .ok () => .pure () m
  | .error f => (m.record (.declined program f)).bind fun _ m => .halt (.failed f) m

/-- A program between its `check` and its return: `main` runs only on arguments that pass. -/
def execute (program : String) (params : List Kind) (args : List Value)
    (main : Machine → Run Answer) (m : Machine) : Run Unit :=
  (m.check program params args).bind fun _ m =>
    (m.record (.entered program args.length)).bind fun _ m =>
      (main m).bind fun _ m => m.record (.returned program m.depth)

end Machine

/-- One operation, asked for by code that was given these arguments. Operations that run handlers do
    so by `calls`. -/
def Op.run (calls : Calls) (args : List Value) : (op : Op) → Machine → Run op.Result
  | .push v, m => m.push v
  | .pop, m => m.pop
  | .popAs k, m => m.popAs k
  | .drain, m => m.drain
  | .syscall name, m => m.syscall calls name
  | .register name h, m => m.register name h
  | .lookup name, m => m.lookup name
  | .invoke h, m => m.invoke calls h
  | .wrap name h, m => m.wrap calls name h
  | .call name, m => m.call calls name
  | .write s, m => m.write s
  | .exit code, m => .halt (.exited code) m
  | .sleep millis, m => m.sleep millis
  | .compute n, m => m.record (.computed n)
  | .arg i, m => m.readArg args i
  | .argAs i k, m => m.readArgAs args i k
  | .check program params args', m => m.check program params args'

namespace Code

/-- Code on a machine, given how handlers run. The recursion is on the code alone. -/
def exec (calls : Calls) : Code → List Value → Machine → Run Answer
  | .done a, _, m => .pure a m
  | .perform op next, args, m => (op.run calls args m).bind fun r m => (next r).exec calls args m
  | .enter main args' next, args, m =>
    (main.exec calls args' m).bind fun _ m => next.exec calls args m
  | .execute program params main args' next, args, m =>
    (m.execute program params args' (main.exec calls args')).bind fun _ m => next.exec calls args m

/-- A handler on a machine: `leave`, or the code in its slot. Routines are nested at most `depth`
    deep below it, and beyond that they halt as `tooDeep`. -/
def call (routines : Routines) : Nat → Calls
  | _, .exit, m => m.leave
  | 0, .routine _, m => .halt .tooDeep m
  | depth + 1, .routine slot, m => (routines slot).exec (call routines depth) [] m

/-- Code on a machine, with routines nested at most `depth` deep: `exec` with `call` for the
    handlers. -/
def run (routines : Routines) (depth : Nat) (code : Code) (args : List Value) (m : Machine) :
    Run Answer :=
  code.exec (call routines depth) args m

end Code

end StackMachine
