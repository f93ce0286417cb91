import StackMachine.Proofs.Execution
import StackMachine.Proofs.Runner

namespace StackMachine

/-!
# Programs within programs

The start and the return of a program are a pair of brackets in the log. Programs run within
programs, and within the handlers that these call, so the brackets of a run are nested; where a run
halts, the brackets of the programs that were running are left open.

What is left open is told ahead of the run by `running`, a recursion over the code that asks of each
operation whether it halts. The invariant is `Run.Bracketed`; like the other invariants of runs it
is shown of the operations first, then of sequences, and by induction of code and of nested
handlers.

* `Bracket.Nested w`, `Bracket.LeavesOpen ps w` — words in which every bracket is closed by one of
  its own label, and words in which brackets with the labels `ps` are left open, the outermost
  first.
* `LeavesOpen.nested`, `LeavesOpen.unique` — such a word begins a nested one, and what it leaves
  open is determined.
* `Code.running`, `Program.running` — the programs that are running where a run halts.
* `Program.brackets_execute` — the brackets of an execution, however it ends.
-/

/-! ### Words of brackets

Words are told apart from runs here. That a word leaves open just one list of brackets is shown by
`unclosed?`, which reads the word once with a stack of labels.
-/

/-- A bracket, labelled with the name of a program. -/
inductive Bracket where
  | opening (program : String)
  | closing (program : String)
  deriving DecidableEq, Repr

namespace Bracket

/-- Every bracket is closed by one of its own label, after all that were opened behind it. -/
inductive Nested : List Bracket → Prop where
  | nil : Nested []
  | wrap {u v : List Bracket} {program : String} (hu : Nested u) (hv : Nested v) :
    Nested (opening program :: (u ++ closing program :: v))

/-- All is nested but for brackets with the labels `ps`, the outermost first, that are not
    closed. -/
inductive LeavesOpen : List String → List Bracket → Prop where
  | none {w : List Bracket} (h : Nested w) : LeavesOpen [] w
  | opened {u w : List Bracket} {program : String} {ps : List String} (hu : Nested u)
    (hw : LeavesOpen ps w) : LeavesOpen (program :: ps) (u ++ opening program :: w)

/-- The labels that are open at the end of a word, the innermost first, when those in `ps` are open
    at its beginning. There are none if a bracket is closed by one of another label, or by one too
    many. It is the reader that `LeavesOpen.unique` goes through. -/
def unclosed? : (ps : List String) → List Bracket → Option (List String)
  | ps, [] => some ps
  | ps, opening program :: w => unclosed? (program :: ps) w
  | [], closing _ :: _ => none
  | p :: ps, closing program :: w => if p = program then unclosed? ps w else none

/-- Nested words in a row are nested. -/
theorem Nested.append {u v : List Bracket} (hu : Nested u) (hv : Nested v) : Nested (u ++ v) := by
  induction hu with
  | nil => exact hv
  | wrap hu _ _ ih =>
    rw [List.cons_append, List.append_assoc, List.cons_append]
    exact .wrap hu ih

/-- A nested word goes by without leaving a trace. -/
theorem unclosed?_append {u : List Bracket} (hu : Nested u) (ps : List String) (w : List Bracket) :
    unclosed? ps (u ++ w) = unclosed? ps w := by
  induction hu generalizing ps w with
  | nil => rfl
  | wrap _ _ ihu ihv =>
    rw [List.cons_append, List.append_assoc, List.cons_append, unclosed?, ihu, unclosed?,
      if_pos rfl, ihv]

namespace LeavesOpen

variable {ps qs : List String} {u w : List Bracket} {program : String}

/-- What comes before may be nested by itself. -/
theorem after (hu : Nested u) (h : LeavesOpen ps w) : LeavesOpen ps (u ++ w) := by
  cases h with
  | none hw => exact .none (hu.append hw)
  | opened hv hw =>
    rw [← List.append_assoc]
    exact .opened (hu.append hv) hw

/-- Of a word that leaves `ps` open, `unclosed?` finds just these. -/
theorem unclosed?_eq (h : LeavesOpen ps w) (qs : List String) :
    unclosed? qs w = some (ps.reverse ++ qs) := by
  induction h generalizing qs with
  | none hw => simpa [unclosed?] using unclosed?_append hw qs []
  | opened hu _ ih =>
    rw [unclosed?_append hu, unclosed?, ih, List.reverse_cons, List.append_assoc]
    rfl

/-- A word leaves the same brackets open whichever way it is parted. -/
theorem unique (h : LeavesOpen ps w) (h' : LeavesOpen qs w) : ps = qs := by
  have he := (h.unclosed?_eq []).symm.trans (h'.unclosed?_eq [])
  simpa using he

/-- Closing what is open, the innermost first, makes a nested word. -/
theorem nested (h : LeavesOpen ps w) : Nested (w ++ ps.reverse.map closing) := by
  induction h with
  | none hw => simpa using hw
  | @opened u w program ps hu _ ih =>
    have hw : Nested (opening program :: (w ++ ps.reverse.map closing ++ closing program :: [])) :=
      .wrap ih .nil
    simpa using hu.append hw

end LeavesOpen

end Bracket

open StackMachine.Bracket

/-! ### Programs that are running -/

/-- Those that are running `within` the run `r` if it halts, and otherwise within what comes `after`
    it. -/
def Run.stopped {α : Type} (r : Run α) (within : List String)
    (after : α → Machine → List String) : List String :=
  match r.result with
  | .ok a => after a r.machine
  | .error _ => within

/-- A program runs, with those within it, unless its arguments do not pass its check. -/
def runningChecked (program : String) (params : List Kind) (args : List Value)
    (within : List String) : List String :=
  match checkArguments program params args with
  | .ok () => program :: within
  | .error _ => []

/-- The programs that are running within an operation, where the handler that it runs halts. They
    are those `inside` the handler on the machine on which it is run. -/
def Op.running (inside : Handler → Machine → List String) : Op → Machine → List String
  | .syscall name, m => (m.table.get name).elim [] fun h => inside h m
  | .invoke h, m => inside h m
  | .wrap name h, m =>
    (m.table.get name).elim [] fun before =>
      inside before { m with table := m.table.register name h }
  | .call name, m => (m.table.get name).elim [] fun h => inside h m
  | _, _ => []

namespace Code

/-- The programs that are running where code halts, the outermost first, given which ones are inside
    handlers. Code that is entered without a check is no program that was begun. The recursion
    follows `Code.exec`. -/
def running (calls : Calls) (inside : Handler → Machine → List String) :
    Code → List Value → Machine → List String
  | .done _, _, _ => []
  | .perform op next, args, m =>
    (op.run calls args m).stopped (op.running inside m) fun r m =>
      (next r).running calls inside args m
  | .enter main args' next, args, m =>
    (main.exec calls args' m).stopped (main.running calls inside args' m) fun _ m =>
      next.running calls inside args m
  | .execute program params main args' next, args, m =>
    (m.execute program params args' (main.exec calls args')).stopped
      (runningChecked program params args' (main.running calls inside args' m)) fun _ m =>
      next.running calls inside args m

/-- The programs that are running where a handler halts. The recursion follows `Code.call`. -/
def runningInside (routines : Routines) : Nat → Handler → Machine → List String
  | _, .exit, _ => []
  | 0, .routine _, _ => []
  | depth + 1, .routine slot, m =>
    (routines slot).running (call routines depth) (runningInside routines depth) [] m

end Code

/-- The programs that are running where the execution of a program halts. -/
def Program.running (routines : Code.Routines) (depth : Nat) (p : Program) (args : List Value)
    (m : Machine) : List String :=
  runningChecked p.name p.params args
    (p.main.running (Code.call routines depth) (Code.runningInside routines depth) args m)

/-! ### Brackets of runs

In a sequence the brackets of the first part stand in front, and the second part is only there if
the first one does not halt.
-/

/-- The bracket that an event stands for. -/
def Log.Event.bracket? : Log.Event → Option Bracket
  | .entered program _ => some (.opening program)
  | .returned program _ => some (.closing program)
  | _ => none

/-- The brackets in the log of a run. -/
def Run.brackets {α : Type} (r : Run α) : List Bracket := r.events.filterMap Log.Event.bracket?

/-- A run that comes back closes every bracket, and one that halts leaves those of `ps` open. -/
structure Run.Bracketed {α : Type} (ps : List String) (r : Run α) : Prop where
  nested : ∀ a, r.result = .ok a → Nested r.brackets
  leavesOpen : ∀ h, r.result = .error h → LeavesOpen ps r.brackets

namespace Run

variable {α β : Type} {r : Run α} {next : α → Runner β} {ps : List String}

/-- The brackets of runs in turn are those of the one and then of the other. -/
theorem brackets_bind_of_ok {a : α} (h : r.result = .ok a) :
    (r.bind next).brackets = r.brackets ++ (next a r.machine).brackets := by
  rw [bind_of_ok h]
  simp only [brackets, events, List.filterMap_append]

/-- Behind a run that halted there are none. -/
theorem brackets_bind_of_error {e : Halt} (h : r.result = .error e) :
    (r.bind next).brackets = r.brackets := by
  rw [bind_of_error h]
  rfl

/-- After a run without brackets comes nothing that has any. -/
theorem brackets_bind_nil (hr : r.brackets = []) (hn : ∀ a m, (next a m).brackets = []) :
    (r.bind next).brackets = [] := by
  cases h : r.result with
  | ok a => rw [brackets_bind_of_ok h, hr, hn, List.append_nil]
  | error e => rw [brackets_bind_of_error h, hr]

namespace Bracketed

/-- A run without brackets, however it ends, leaves none open. -/
theorem of_nil (h : r.brackets = []) : r.Bracketed [] where
  nested _ _ := h ▸ .nil
  leavesOpen _ _ := h ▸ .none .nil

/-- A run that comes back leaves nothing open, whatever would be running if it had halted. -/
theorem of_ok {a : α} (hr : r.result = .ok a) (hn : Nested r.brackets) : r.Bracketed ps where
  nested _ _ := hn
  leavesOpen _ h := by rw [hr] at h; cases h

/-- A run that halts has to leave the brackets open, and only these. -/
theorem of_error {e : Halt} (hr : r.result = .error e) (hn : LeavesOpen ps r.brackets) :
    r.Bracketed ps where
  nested _ h := by rw [hr] at h; cases h
  leavesOpen _ _ := hn

/-- **Sequencing.** Runs in turn leave open what the part that halts leaves open, see
    `Run.stopped`. -/
theorem bind {qs : α → Machine → List String} (hr : r.Bracketed ps)
    (hn : ∀ a m, (next a m).Bracketed (qs a m)) : (r.bind next).Bracketed (r.stopped ps qs) := by
  cases h : r.result with
  | error e =>
    have hb : (r.bind next).brackets = r.brackets := brackets_bind_of_error h
    have hs : r.stopped ps qs = ps := by rw [stopped, h]
    have he : (r.bind next).result = .error e := by rw [bind_of_error h]
    rw [hs]
    exact .of_error he (hb ▸ hr.leavesOpen e h)
  | ok a =>
    -- what was closed before stays closed
    have hb : (r.bind next).brackets = r.brackets ++ (next a r.machine).brackets :=
      brackets_bind_of_ok h
    have hs : r.stopped ps qs = qs a r.machine := by rw [stopped, h]
    have he : (r.bind next).result = (next a r.machine).result := by rw [bind_of_ok h]
    rw [hs]
    have hn' := hn a r.machine
    constructor
    · intro b hok
      rw [hb]
      exact (hr.nested a h).append (hn'.nested b (he ▸ hok))
    · intro e herr
      rw [hb]
      exact (hn'.leavesOpen e (he ▸ herr)).after (hr.nested a h)

/-- A run behind something that has no brackets and does not halt. -/
theorem behind {a : α} (hr : r.result = .ok a) (hb : r.brackets = [])
    (hn : (next a r.machine).Bracketed ps) : (r.bind next).Bracketed ps := by
  have hnext : (r.bind next).brackets = (next a r.machine).brackets := by
    rw [brackets_bind_of_ok hr, hb, List.nil_append]
  have he : (r.bind next).result = (next a r.machine).result := by rw [bind_of_ok hr]
  exact ⟨fun b hok => hnext ▸ hn.nested b (he ▸ hok),
    fun e herr => hnext ▸ hn.leavesOpen e (he ▸ herr)⟩

/-- A run with nothing behind it but an answer. -/
theorem before {f : α → β} (hr : r.Bracketed ps) :
    (r.bind fun a m => .pure (f a) m).Bracketed ps := by
  cases h : r.result with
  | ok a =>
    refine .of_ok (a := f a) (by rw [bind_of_ok h]; rfl) ?_
    rw [brackets_bind_of_ok h]
    exact (hr.nested a h).append .nil
  | error e =>
    refine .of_error (e := e) (by rw [bind_of_error h]) ?_
    rw [brackets_bind_of_error h]
    exact hr.leavesOpen e h

end Bracketed

end Run

/-! ### Operations

Nothing but the execution of a program has brackets of its own. Pops, reads of arguments and the
check have none, and an invocation has those of its handler.
-/

namespace Machine

theorem brackets_pop (m : Machine) : m.pop.brackets = [] := by
  cases h : m.stack.values with
  | nil => rw [pop_of_empty h]; rfl
  | cons v vs => rw [pop_of_cons h]; rfl

theorem brackets_popAs (k : Kind) (m : Machine) : (m.popAs k).brackets = [] := by
  refine Run.brackets_bind_nil m.brackets_pop fun v m => ?_
  cases v.get k <;> rfl

theorem brackets_drain (m : Machine) : m.drain.brackets = [] := by
  refine List.filterMap_eq_nil_iff.2 fun e he => ?_
  obtain ⟨a, ha, hae⟩ := List.mem_filterMap.1 he
  rcases mem_drainActions ha with rfl | ⟨v, d, rfl⟩
  · cases hae
  · cases hae; rfl

theorem brackets_leave {α : Type} (m : Machine) : (m.leave : Run α).brackets = [] :=
  Run.brackets_bind_nil (m.brackets_popAs .i64) fun _ _ => rfl

theorem brackets_readArg (args : List Value) (i : Nat) (m : Machine) :
    (m.readArg args i).brackets = [] := by
  unfold readArg
  cases args[i]? <;> rfl

theorem brackets_readArgAs (args : List Value) (i : Nat) (k : Kind) (m : Machine) :
    (m.readArgAs args i k).brackets = [] := by
  refine Run.brackets_bind_nil (m.brackets_readArg args i) fun v m => ?_
  cases v.get k <;> rfl

/-- A check stands before the opening bracket. -/
theorem brackets_check (program : String) (params : List Kind) (args : List Value) (m : Machine) :
    (m.check program params args).brackets = [] := by
  unfold check
  cases checkArguments program params args <;> rfl

variable {calls : Calls} {inside : Handler → Machine → List String}

/-- An invocation has the brackets of its handler. -/
theorem invoke_bracketed (hc : ∀ h m, (calls h m).Bracketed (inside h m)) (h : Handler)
    (m : Machine) : (m.invoke calls h).Bracketed (inside h m) :=
  .behind rfl rfl (hc h m).before

/-- A handler that may be missing has none if it is. -/
theorem invoke?_bracketed (hc : ∀ h m, (calls h m).Bracketed (inside h m)) (h? : Option Handler)
    (m : Machine) : (m.invoke? calls h?).Bracketed (h?.elim [] fun h => inside h m) := by
  cases h? with
  | some h => exact (invoke_bracketed hc h m).before
  | none => exact .of_nil rfl

/-- A syscall has the brackets of the handler that its name is bound to. -/
theorem syscall_bracketed (hc : ∀ h m, (calls h m).Bracketed (inside h m)) (name : String)
    (m : Machine) :
    (m.syscall calls name).Bracketed ((m.table.get name).elim [] fun h => inside h m) := by
  unfold syscall
  cases m.table.get name with
  | some h => exact .behind rfl rfl (invoke_bracketed hc h m)
  | none => cases m.config.unknownSyscall <;> exact .of_nil rfl

section

variable {program : String} {params : List Kind} {args : List Value} {main : Runner Answer}
  {m : Machine}

/-- A program whose arguments do not pass does not begin. -/
theorem brackets_execute_of_error {f : Failure}
    (h : checkArguments program params args = .error f) :
    (m.execute program params args main).brackets = [] := by
  rw [execute_of_error h]
  rfl

/-- An execution is a pair of brackets around those of the code, of which the second one is missing
    if the code halts. -/
theorem brackets_execute_of_ok (h : checkArguments program params args = .ok ()) :
    (m.execute program params args main).brackets =
      .opening program :: ((main m).brackets ++
        match (main m).result with
        | .ok _ => [.closing program]
        | .error _ => []) := by
  rw [Run.brackets, events_execute_of_ok h]
  cases (main m).result <;> simp [Run.brackets, Log.Event.bracket?]

/-- If the code leaves `ps` open, the execution leaves its own bracket open in front of them. -/
theorem execute_bracketed {ps : List String} (hm : (main m).Bracketed ps) :
    (m.execute program params args main).Bracketed (runningChecked program params args ps) := by
  cases hc : checkArguments program params args with
  | error f =>
    rw [runningChecked, hc]
    exact .of_nil (brackets_execute_of_error hc)
  | ok u =>
    have hb : (m.execute program params args main).brackets = _ := brackets_execute_of_ok hc
    have he := congrArg Run.result (execute_of_ok hc main m)
    rw [runningChecked, hc]
    cases hr : (main m).result with
    | ok a =>
      rw [hr] at hb he
      refine .of_ok he ?_
      rw [hb]
      -- the code came back, so its brackets are nested, and the pair goes around them
      exact .wrap (hm.nested a hr) .nil
    | error e =>
      rw [hr, List.append_nil] at hb
      rw [hr] at he
      refine .of_error he ?_
      rw [hb]
      -- the code halted, and nothing closes the pair
      exact .opened .nil (hm.leavesOpen e hr)

end

end Machine

/-- One operation, when handlers are bracketed. All but those that run handlers have no brackets. -/
theorem Op.bracketed {calls : Calls} {inside : Handler → Machine → List String}
    (hc : ∀ h m, (calls h m).Bracketed (inside h m)) (args : List Value) (op : Op) (m : Machine) :
    (op.run calls args m).Bracketed (op.running inside m) := by
  cases op with
  | push v => exact .of_nil rfl
  | pop => exact .of_nil m.brackets_pop
  | popAs k => exact .of_nil (m.brackets_popAs k)
  | drain => exact .of_nil m.brackets_drain
  | syscall name => exact m.syscall_bracketed hc name
  | register name h => exact .of_nil rfl
  | lookup name => exact .of_nil rfl
  | invoke h => exact m.invoke_bracketed hc h
  -- the registration has no brackets, so those of the wrapped handler are all
  | wrap name h =>
    have hr : (m.register name h).brackets = [] := rfl
    exact .behind rfl hr (Machine.invoke?_bracketed hc (m.table.get name) _)
  | call name => exact m.invoke?_bracketed hc (m.table.get name)
  | write s => exact .of_nil rfl
  | exit c => exact .of_nil rfl
  | sleep millis => exact .of_nil rfl
  | compute n => exact .of_nil rfl
  | arg i => exact .of_nil (m.brackets_readArg args i)
  | argAs i k => exact .of_nil (m.brackets_readArgAs args i k)
  | check program params args' => exact .of_nil (m.brackets_check program params args')

/-! ### Code

The recursion of `running` follows that of `exec` and `call`, so the two inductions have the same
cases as for any other invariant.
-/

namespace Code

/-- Code, when handlers are bracketed. The induction is over the tree, and `running` follows it. -/
theorem exec_bracketed {calls : Calls} {inside : Handler → Machine → List String}
    (hc : ∀ h m, (calls h m).Bracketed (inside h m)) (code : Code) (args : List Value)
    (m : Machine) : (code.exec calls args m).Bracketed (code.running calls inside args m) := by
  -- induction over the tree: what is running within a part is what it leaves open
  induction code generalizing args m with
  | done a => exact .of_nil rfl
  | perform op next ih => exact (op.bracketed hc args m).bind fun r m => ih r args m
  | enter main args' next ihm ihn => exact (ihm args' m).bind fun _ m => ihn args m
  | execute program params main args' next ihm ihn =>
    exact (Machine.execute_bracketed (ihm args' m)).bind fun _ m => ihn args m

/-- Handlers, nested however deep. -/
theorem call_bracketed (routines : Routines) (depth : Nat) (h : Handler) (m : Machine) :
    (call routines depth h m).Bracketed (runningInside routines depth h m) := by
  -- induction over the nesting that is left
  induction depth generalizing h m with
  | zero =>
    cases h with
    | exit => exact .of_nil m.brackets_leave
    | routine slot => exact .of_nil rfl
  | succ depth ih =>
    cases h with
    | exit => exact .of_nil m.brackets_leave
    | routine slot => exact exec_bracketed ih (routines slot) [] m

end Code

namespace Program

/-- The execution of a program leaves those brackets open that `Program.running` tells. -/
theorem execute_bracketed (routines : Code.Routines) (depth : Nat) (p : Program)
    (args : List Value) (m : Machine) :
    (m.execute p.name p.params args (p.main.run routines depth args)).Bracketed
      (p.running routines depth args m) :=
  Machine.execute_bracketed (Code.exec_bracketed (Code.call_bracketed routines depth) p.main args m)

/-- **Brackets of programs.** However the execution of a program ends, its brackets begin a nested
    word. They are a nested word by themselves, and there are any, just if it comes back; there are
    none just if the arguments do not pass the check. If it halts, the brackets that are left open
    are those of the programs that were running then (`Program.running`), the outermost first. -/
theorem brackets_execute (routines : Code.Routines) (depth : Nat) (p : Program)
    (args : List Value) (m : Machine) :
    let r := m.execute p.name p.params args (p.main.run routines depth args)
    (∃ v, Nested (r.brackets ++ v)) ∧
    (Nested r.brackets ∧ r.brackets ≠ [] ↔ ∃ a, r.result = .ok a) ∧
    (r.brackets = [] ↔ ∃ f, checkArguments p.name p.params args = .error f) ∧
    ∀ h, r.result = .error h →
      ∀ ps, LeavesOpen ps r.brackets ↔ ps = p.running routines depth args m := by
  intro r
  have hr : r.Bracketed (p.running routines depth args m) := execute_bracketed ..
  have hopen (h : Halt) (he : r.result = .error h) (ps : List String) :
      LeavesOpen ps r.brackets ↔ ps = p.running routines depth args m := by
    constructor
    · intro hps
      exact hps.unique (hr.leavesOpen h he)
    · rintro rfl
      exact hr.leavesOpen h he
  have hempty : r.brackets = [] ↔ ∃ f, checkArguments p.name p.params args = .error f := by
    cases hc : checkArguments p.name p.params args with
    | error f => simp [r, Machine.brackets_execute_of_error hc]
    | ok u => simp [r, Machine.brackets_execute_of_ok hc]
  refine ⟨?_, ?_, hempty, hopen⟩
  · cases he : r.result with
    | ok a => exact ⟨[], by simpa using hr.nested a he⟩
    | error h => exact ⟨_, (hr.leavesOpen h he).nested⟩
  · constructor
    · rintro ⟨hn, hne⟩
      cases he : r.result with
      | ok a => exact ⟨a, rfl⟩
      | error h =>
        -- nothing is left open, so nothing was running: the arguments did not pass
        have hrunning : [] = p.running routines depth args m := (hopen h he []).1 (.none hn)
        refine absurd (hempty.2 ?_) hne
        cases hc : checkArguments p.name p.params args with
        | error f => exact ⟨f, rfl⟩
        | ok u => rw [Program.running, runningChecked, hc] at hrunning; cases hrunning
    · rintro ⟨a, ha⟩
      refine ⟨hr.nested a ha, fun hnil => ?_⟩
      obtain ⟨f, hf⟩ := hempty.1 hnil
      have hfailed : r.result = .error (.failed f) :=
        congrArg Run.result (Machine.execute_of_error hf _ m)
      rw [hfailed] at ha
      cases ha

/-- A program executes one that comes back, and then calls a handler. The handler executes another
    one, which gives a third the wrong number of arguments. -/
theorem brackets_execute_declined :
    let picky : Program := ⟨"picky", [.i64], .skip⟩
    let inner : Program := ⟨"inner", [], picky.executed [] .skip⟩
    let first : Program := ⟨"first", [], .skip⟩
    let outer : Program :=
      ⟨"outer", [], first.executed [] (.perform (.syscall "Go") fun _ => .skip)⟩
    let routines : Code.Routines := fun _ => inner.executed [] .skip
    let m : Machine := { Machine.boot {} with table := Table.empty.register "Go" (.routine 0) }
    let r := m.execute outer.name outer.params [] (outer.main.run routines 1 [])
    r.result = .error (.failed (.arityMismatch "picky" 1 0)) ∧
      r.brackets = [.opening "outer", .opening "first", .closing "first", .opening "inner"] ∧
      LeavesOpen ["outer", "inner"] r.brackets ∧
      ¬ LeavesOpen ["outer", "inner", "picky"] r.brackets := by
  intro picky inner first outer routines m r
  have hr : r.result = .error (.failed (.arityMismatch "picky" 1 0)) := rfl
  -- The brackets that stay open are read off by the theorem, so only one list can be it.
  have hopen := (brackets_execute routines 1 outer [] m).2.2.2 _ hr
  refine ⟨hr, rfl, (hopen _).2 rfl, fun h => ?_⟩
  have he : ["outer", "inner", "picky"] = ["outer", "inner"] := (hopen _).1 h
  simp at he

end Program

end StackMachine
