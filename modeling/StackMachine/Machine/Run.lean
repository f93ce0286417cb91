import StackMachine.Log.Event
import StackMachine.Machine.Basic

namespace StackMachine

/-!
# Runs

A run takes a machine to another one. It may halt on the way, and it leaves a trace: everything
that it did, in order. What it printed and what it logged are two views of the trace.

* `Action`, `Halt`, `Run` — one thing done, the ways to end early, and a whole run.
* `Run.bind` — one run after another; a run that halted is not followed by anything.
* `Machine.push`, `Machine.pop`, … — the runs of the machine's own operations.
-/

/-- A line of output. -/
inductive Line where
  | text (s : String)
  /-- the report of the running time, in nanoseconds, which the built-in exit prints -/
  | report (elapsed : Nat)
  deriving DecidableEq, Repr

/-- The line as it is printed; `seconds` shows spans of time. -/
def Line.render (seconds : Nat → String) : Line → String
  | .text s => s
  | .report elapsed => "Finished in " ++ seconds elapsed ++ " seconds"

/-! ### What a run does -/

/-- One thing that a run did. Not every action is logged, see `Action.event?`, but each tells what
    became of the machine. -/
inductive Action where
  /-- a value went on the stack, which is `depth` deep with it -/
  | pushed (value : Value) (depth : Nat)
  /-- a value came off the stack, which is `depth` deep without it -/
  | popped (value : Value) (depth : Nat)
  /-- a pop met an empty stack -/
  | starved
  /-- a syscall found a handler bound to its name, on a stack `depth` deep -/
  | called (name : String) (depth : Nat)
  /-- a syscall found its name unbound and went on -/
  | ignored (name : String)
  /-- a syscall found its name unbound and failed -/
  | rejected (name : String)
  /-- a handler began to run -/
  | invoked (handler : Handler)
  | registered (name : String) (handler : Handler)
  | wrote (line : Line)
  /-- this many nanoseconds were spent waiting -/
  | slept (nanos : Nat)
  /-- the built-in exit had its code -/
  | exiting (code : Int64) (elapsed : Nat)
  | entered (program : String) (args : Nat)
  | returned (program : String) (depth : Nat)
  | computed (n : Int64)
  /-- the argument at an index was not there, or not of the kind asked for -/
  | misread (index : Nat)
  /-- the arguments for a program did not pass its check -/
  | declined (program : String) (why : Failure)
  deriving DecidableEq, Repr

namespace Action

/-- What an action puts into the log. The others are for the theory only. -/
def event? : Action → Option Log.Event
  | .pushed v depth => some (.pushed v depth)
  | .popped v depth => some (.popped v depth)
  | .called name depth => some (.called name depth)
  | .ignored name => some (.ignored name)
  | .exiting code elapsed => some (.exiting code elapsed)
  | .entered program args => some (.entered program args)
  | .returned program depth => some (.returned program depth)
  | .computed n => some (.computed n)
  | _ => none

/-- What an action prints. -/
def line? : Action → Option Line
  | .wrote l => some l
  | _ => none

end Action

/-- Why a run ended early. -/
inductive Halt where
  | failed (f : Failure)
  /-- the process was asked to end with this code -/
  | exited (code : Int32)
  /-- an argument was read past the end of a list of `count` arguments -/
  | argumentMissing (count index : Nat)
  /-- handlers were nested deeper than the run was allowed to follow -/
  | tooDeep
  deriving DecidableEq, Repr

/-- What came of running something that answers with an `α`: the answer or the reason to halt, the
    machine that is left, and the trace. -/
structure Run (α : Type) where
  result : Except Halt α
  machine : Machine
  trace : List Action

namespace Run

variable {α β γ : Type}

/-- The log of a run, as a view of its trace. -/
def events (r : Run α) : List Log.Event := r.trace.filterMap Action.event?

/-- The output of a run, as a view of its trace. -/
def output (r : Run α) : List Line := r.trace.filterMap Action.line?

/-- The run that does nothing and answers with `a`. -/
def pure (a : α) (m : Machine) : Run α := ⟨.ok a, m, []⟩

/-- The run that halts at once. -/
def halt (h : Halt) (m : Machine) : Run α := ⟨.error h, m, []⟩

/-- First `r`, and then `next` from the machine that `r` left, unless `r` halted. The traces are put
    together. -/
def bind (r : Run α) (next : α → Machine → Run β) : Run β :=
  match r.result with
  | .ok a =>
    let r' := next a r.machine
    ⟨r'.result, r'.machine, r.trace ++ r'.trace⟩
  | .error h => ⟨.error h, r.machine, r.trace⟩

/-- Left unit: after `pure a` comes just what follows it. -/
@[simp] theorem pure_bind (a : α) (m : Machine) (next : α → Machine → Run β) :
    (pure a m).bind next = next a m := rfl

/-- Nothing follows `halt`. -/
@[simp] theorem halt_bind (h : Halt) (m : Machine) (next : α → Machine → Run β) :
    (halt h m : Run α).bind next = halt h m := rfl

/-- Right unit: to answer with the answer changes nothing. -/
@[simp] theorem bind_pure (r : Run α) : r.bind pure = r := by
  rcases r with ⟨_ | _, m, t⟩ <;> simp [bind, pure]

/-- A run that halted is its own continuation, with the answer's type changed. -/
theorem bind_of_error {r : Run α} {h : Halt} (hr : r.result = .error h)
    (next : α → Machine → Run β) : r.bind next = ⟨.error h, r.machine, r.trace⟩ := by
  simp [bind, hr]

/-- A run that answered is followed by `next`, whose trace comes behind its own. -/
theorem bind_of_ok {r : Run α} {a : α} (hr : r.result = .ok a) (next : α → Machine → Run β) :
    r.bind next = ⟨(next a r.machine).result, (next a r.machine).machine,
      r.trace ++ (next a r.machine).trace⟩ := by
  simp [bind, hr]

/-- Sequencing is associative, since appending traces is. -/
theorem bind_assoc (r : Run α) (f : α → Machine → Run β) (g : β → Machine → Run γ) :
    (r.bind f).bind g = r.bind fun a m => (f a m).bind g := by
  rcases r with ⟨_ | a, m, t⟩
  · rfl
  · cases h : (f a m).result <;> simp [bind, h]

end Run

/-! ### The operations of a machine -/

namespace Machine

/-- Do one thing that changes nothing on the machine. -/
def record (a : Action) (m : Machine) : Run Unit := ⟨.ok (), m, [a]⟩

/-- Put a value on the stack. The trace tells the depth with it. -/
def push (v : Value) (m : Machine) : Run Unit :=
  ⟨.ok (), { m with stack := m.stack.push v }, [.pushed v (m.depth + 1)]⟩

/-- Take the top off the stack. -/
def pop (m : Machine) : Run Value :=
  match m.stack.pop? with
  | none => ⟨.error (.failed .stackUnderflow), m, [.starved]⟩
  | some (v, stack) => ⟨.ok v, { m with stack }, [.popped v stack.depth]⟩

/-- Take the top off the stack and read it as kind `k`. It is gone whatever its kind. -/
def popAs (k : Kind) (m : Machine) : Run k.Carrier :=
  m.pop.bind fun v m =>
    match v.get k with
    | .ok a => .pure a m
    | .error e => .halt (.failed (.kindMismatch e)) m

/-- The pops that empty a stack which is `depth` deep, and the one that finds it empty. -/
def drainActions : (depth : Nat) → List Value → List Action
  | _, [] => [.starved]
  | depth, v :: vs => .popped v (depth - 1) :: drainActions (depth - 1) vs

/-- In `drainActions` there is nothing but pops. -/
theorem mem_drainActions {a : Action} {depth : Nat} {vs : List Value}
    (h : a ∈ drainActions depth vs) : a = .starved ∨ ∃ v d, a = .popped v d := by
  induction vs generalizing depth with
  | nil => exact .inl (List.mem_singleton.1 h)
  | cons v vs ih =>
    rcases List.mem_cons.1 h with rfl | h
    · exact .inr ⟨v, depth - 1, rfl⟩
    · exact ih h

/-- Take everything off the stack, the top first. -/
def drain (m : Machine) : Run (List Value) :=
  ⟨.ok m.stack.values, { m with stack := .empty }, drainActions m.depth m.stack.values⟩

/-- The handler bound to a name. It leaves no trace. -/
def lookup (name : String) (m : Machine) : Run (Option Handler) := .pure (m.table.get name) m

/-- Bind a name, and answer with the handler that was bound to it before. -/
def register (name : String) (h : Handler) (m : Machine) : Run (Option Handler) :=
  ⟨.ok (m.table.get name), { m with table := m.table.register name h }, [.registered name h]⟩

/-- Print a line. -/
def write (s : String) (m : Machine) : Run Unit := m.record (.wrote (.text s))

/-- Let nanoseconds pass. -/
def wait (nanos : Nat) (m : Machine) : Run Unit :=
  ⟨.ok (), { m with elapsed := m.elapsed + nanos }, [.slept nanos]⟩

/-- Let milliseconds pass. -/
def sleep (millis : Nat) : Machine → Run Unit := wait (Number.nanosOfMillis millis)

/-- The built-in exit: the integer on top of the stack is the code, of which the process gets the
    low 32 bits. Before it the running time is reported. -/
def leave {α : Type} (m : Machine) : Run α :=
  (m.popAs .i64).bind fun (code : Int64) m =>
    (m.record (.exiting code m.elapsed)).bind fun _ m =>
      (m.record (.wrote (.report m.elapsed))).bind fun _ m =>
        .halt (.exited code.toInt32) m

/-! ### What pops do, by the stack they meet -/

section

variable {m : Machine} {v : Value} {vs : List Value}

/-- On an empty stack `pop` fails and changes nothing. -/
theorem pop_of_empty (h : m.stack.values = []) :
    m.pop = ⟨.error (.failed .stackUnderflow), m, [.starved]⟩ := by
  have hs : m.stack = .empty := Stack.ext h
  simp [pop, hs]

/-- Otherwise `pop` answers with the first value and leaves the others. -/
theorem pop_of_cons (h : m.stack.values = v :: vs) :
    m.pop = ⟨.ok v, { m with stack := .ofList vs }, [.popped v vs.length]⟩ := by
  have hs : m.stack = .ofList (v :: vs) := Stack.ext h
  simp only [pop, hs, Stack.pop?_ofList_cons]
  rfl

/-- On an empty stack `popAs` fails as `pop` does. -/
theorem popAs_of_empty (k : Kind) (h : m.stack.values = []) :
    m.popAs k = ⟨.error (.failed .stackUnderflow), m, [.starved]⟩ := by
  rw [popAs, pop_of_empty h]
  rfl

/-- A value of the right kind is answered with, as its payload. -/
theorem popAs_of_kind {k : Kind} {a : k.Carrier} (h : m.stack.values = .of k a :: vs) :
    m.popAs k = ⟨.ok a, { m with stack := .ofList vs }, [.popped (.of k a) vs.length]⟩ := by
  rw [popAs, pop_of_cons h, Run.bind_of_ok rfl]
  simp [Run.pure]

/-- A value of the wrong kind is gone all the same, and the failure names both kinds. -/
theorem popAs_of_kind_ne {k : Kind} (h : m.stack.values = v :: vs) (hk : v.kind ≠ k) :
    m.popAs k = ⟨.error (.failed (.kindMismatch ⟨k, v.kind⟩)), { m with stack := .ofList vs },
      [.popped v vs.length]⟩ := by
  rw [popAs, pop_of_cons h, Run.bind_of_ok rfl]
  simp [Value.get_eq_error hk, Run.halt]

/-- On an empty stack `leave` fails. -/
theorem leave_of_empty {α : Type} (h : m.stack.values = []) :
    (m.leave : Run α) = ⟨.error (.failed .stackUnderflow), m, [.starved]⟩ := by
  rw [leave, popAs_of_empty _ h]
  rfl

/-- On a truth value `leave` fails, and the value is gone. -/
theorem leave_of_bool {α : Type} {b : Bool} (h : m.stack.values = .bool b :: vs) :
    (m.leave : Run α) = ⟨.error (.failed (.kindMismatch ⟨.i64, .bool⟩)),
      { m with stack := .ofList vs }, [.popped (.bool b) vs.length]⟩ := by
  rw [leave, popAs_of_kind_ne h (by simp [Value.kind])]
  rfl

/-- On an integer `leave` ends the process, after its report. -/
theorem leave_of_i64 {α : Type} {n : Int64} (h : m.stack.values = .i64 n :: vs) :
    (m.leave : Run α) = ⟨.error (.exited n.toInt32), { m with stack := .ofList vs },
      [.popped (.i64 n) vs.length, .exiting n m.elapsed, .wrote (.report m.elapsed)]⟩ := by
  have hp := popAs_of_kind (k := .i64) h
  rw [leave, hp]
  rfl

end

end Machine

end StackMachine
