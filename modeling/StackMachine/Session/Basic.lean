import StackMachine.Session.Instr

namespace StackMachine

/-!
# Sessions

A session drives several machines by hand, one step at a time, and reports after every step. A
step that fails or exits does not end the session: the machine is left as the step left it.

* `Reply` — what a step answers with, views of the machine read off.
* `Session.step`, `Session.run` — one step and many.
-/

/-- What a step answers with. -/
inductive Reply where
  | nothing
  | truth (b : Bool)
  | number (n : Nat)
  | value (v : Value)
  | value? (v : Option Value)
  | values (vs : List Value)
  | names (ns : List String)
  | config (c : Config)
  | text (s : String)
  deriving DecidableEq, Repr

/-- What a view shows of a machine. Time only goes forward, so a later reading is no smaller. -/
def View.read : View → Machine → Reply
  | .peek, m => .value? m.stack.top?
  | .depth, m => .number m.depth
  | .isEmpty, m => .truth m.stack.isEmpty
  | .stack, m => .values m.stack.values.reverse
  | .names, m => .names m.table.names
  | .contains name, m => .truth (m.table.contains name)
  | .config, m => .config m.config
  | .line, m => .text m.layout.line
  | .block, m => .text m.layout.block
  | .elapsed, _ => .truth true

/-- What an answer tells about the machine that it was given on. -/
def Answer.read : Answer → Machine → Reply
  | .nothing, _ => .nothing
  | .truth b, _ => .truth b
  | .value v, _ => .value v
  | .values vs, _ => .values vs
  | .view v, m => v.read m

/-- Machines that are driven together. -/
structure Session where
  machines : List Machine
  routines : Code.Routines
  /-- whether all machines print to the first buffer, or each to its own -/
  shared : Bool
  buffers : List (List Line)
  /-- the machine that takes the steps -/
  current : Nat
  /-- how deep handlers may be nested -/
  nesting : Nat := 20000

namespace Session

/-- A step of a session. -/
inductive Step where
  /-- let another machine take the steps -/
  | use (i : Nat)
  | perform (i : Instr)

/-- What is told about a step. -/
structure Report where
  result : Except Halt Reply
  /-- the depth of the stack after the step -/
  depth : Nat
  top : Option Value
  /-- the lines that the machine's buffer gained -/
  lines : List Line
  events : List Log.Event

/-- New machines with these configurations, the first of which takes the steps. -/
def boot (configs : List Config) (routines : Code.Routines) (shared : Bool) : Session where
  machines := configs.map Machine.boot
  routines := routines
  shared := shared
  buffers := configs.map fun _ => []
  current := 0

/-- The buffer that a machine prints to. -/
def bufferOf (s : Session) (i : Nat) : Nat := if s.shared then 0 else i

/-- What is told about the current machine after a step with this result. -/
def report (s : Session) (result : Except Halt Reply) (lines : List Line)
    (events : List Log.Event) : Report :=
  let stack := (s.machines[s.current]?.map Machine.stack).getD .empty
  ⟨result, stack.depth, stack.top?, lines, events⟩

/-- Take one step. A step of a machine that there is none of does nothing. -/
def step (s : Session) : Step → Report × Session
  | .use i =>
    let s := { s with current := i }
    (s.report (.ok .nothing) [] [], s)
  | .perform i =>
    match s.machines[s.current]? with
    | none => (s.report (.ok .nothing) [] [], s)
    | some m =>
      let r := Code.run s.routines s.nesting (i.code .done) [] m
      let s := { s with
        machines := s.machines.set s.current r.machine
        buffers := s.buffers.modify (s.bufferOf s.current) (· ++ r.output) }
      (s.report (r.result.map (·.read r.machine)) r.output r.events, s)

/-- Take steps in turn. -/
def run (s : Session) : List Step → List Report × Session
  | [] => ([], s)
  | st :: sts =>
    let (report, s) := s.step st
    let (reports, s) := s.run sts
    (report :: reports, s)

end Session

end StackMachine
