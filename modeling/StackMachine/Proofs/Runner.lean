import StackMachine.Code.Exec

namespace StackMachine

/-!
# Relations between runners

A runner takes a machine to a run. The machine's operations are runners, and so is every piece of
code. A relation between runners that holds of the operations, each with itself, and that is kept
when one thing is done after another, holds of all code. The induction over code and over nested
handlers is done here once.

* `Code.All p` — every operation that a piece of code can ask for has the property `p`.
* `Compatible p R` — `R` holds of the operations, those with `p`, and is kept by sequencing.
* `Compatible.exec` — from handlers that are related to code that is related.
* `Compatible.run` — code is related to itself, handlers and programs nested however deep.
-/

/-- What takes a machine to a run. `Machine.push v`, `Op.run calls args op` and
    `Code.exec calls c args` are all runners. -/
abbrev Runner (α : Type) := Machine → Run α

/-- Every operation that code can ask for has the property `p`. This covers the programs inside it,
    but not the routines, which are not part of the tree. -/
def Code.All (p : Op → Prop) : Code → Prop
  | .done _ => True
  | .perform op next => p op ∧ ∀ r, (next r).All p
  | .enter main _ next => main.All p ∧ next.All p
  | .execute _ _ main _ next => main.All p ∧ next.All p

/-- An action that says nothing about the machine on which it is done, so that `Machine.record` of
    it is like itself under any relation that looks at machines only. -/
def Action.IsPlain : Action → Prop
  | .invoked (.routine _) => True
  | .wrote (.text _) => True
  | .entered _ _ => True
  | .computed _ => True
  | .misread _ => True
  | .declined _ _ => True
  | _ => False

/-- The built-in exit, from the moment when it begins to run: `leave` behind its `invoked`. -/
def Machine.invokeExit (m : Machine) : Run Unit :=
  (m.record (.invoked .exit)).bind fun _ m => m.leave

/-- Unfolding lemma: `invokeExit` ends as `leave` does, with one action more in front of the
    trace. -/
theorem Machine.invokeExit_eq (m : Machine) : m.invokeExit =
    ⟨(m.leave : Run Unit).result, (m.leave : Run Unit).machine,
      .invoked .exit :: (m.leave : Run Unit).trace⟩ := rfl

/-- A relation between runners that holds of the operations of a machine, those that code with the
    property `p` can ask for, and that is kept by `Run.bind`. The fields are all that a property of
    code has to be shown for; `run` does the rest. -/
structure Compatible (p : Op → Prop) (R : {α : Type} → Runner α → Runner α → Prop) : Prop where
  -- sequencing
  pure {α : Type} (a : α) : R (Run.pure a) (Run.pure a)
  bind {α β : Type} {f f' : Runner α} {g g' : α → Runner β} (hf : R f f')
    (hg : ∀ a, R (g a) (g' a)) : R (fun m => (f m).bind g) (fun m => (f' m).bind g')
  -- A run halts with an exit only where code may ask for one, and never of itself for an unbound
  -- name: that is left to `syscall`, which looks at the table.
  halt {α : Type} (h : Halt) (hp : ∀ c, h = .exited c → p (.exit c))
    (hu : ∀ name, h ≠ .failed (.unknownSyscall name)) : R (Run.halt h : Runner α) (Run.halt h)
  record (a : Action) (ha : a.IsPlain) : R (Machine.record a) (Machine.record a)
  returned (program : String) :
    R (fun m => m.record (.returned program m.depth))
      (fun m => m.record (.returned program m.depth))
  -- the stack, the table and the clock
  push (v : Value) : R (Machine.push v) (Machine.push v)
  pop : R Machine.pop Machine.pop
  drain : R Machine.drain Machine.drain
  register (name : String) (h : Handler) (hp : p (.register name h) ∨ p (.wrap name h)) :
    R (Machine.register name h) (Machine.register name h)
  lookup (name : String) : R (Machine.lookup name) (Machine.lookup name)
  wait (nanos : Nat) : R (Machine.wait nanos) (Machine.wait nanos)
  -- handlers
  syscall {calls calls' : Calls}
    (hc : ∀ h, R (Machine.invoke calls h) (Machine.invoke calls' h)) (name : String)
    (hp : p (.syscall name)) : R (Machine.syscall calls name) (Machine.syscall calls' name)
  invokeExit : R Machine.invokeExit Machine.invokeExit

namespace Compatible

variable {p : Op → Prop} {R : {α : Type} → Runner α → Runner α → Prop} {calls calls' : Calls}

/-! ### Operations

Operations that are made of others need no field in `Compatible`. A typed pop is a pop and maybe a
halt, an execution is a check and code between two events.
-/

/-- A pop or a read of the wrong kind halts in the same way on both sides. -/
theorem mismatch (h : Compatible p R) {α : Type} (e : KindMismatch) :
    R (Run.halt (.failed (.kindMismatch e)) : Runner α) (Run.halt (.failed (.kindMismatch e))) :=
  h.halt _ (by simp) (by simp)

/-- A typed pop is a `pop` followed by a look at the value alone. -/
theorem popAs (h : Compatible p R) (k : Kind) : R (Machine.popAs k) (Machine.popAs k) := by
  refine h.bind h.pop fun v => ?_
  cases v.get k with
  | ok a => exact h.pure a
  | error e => exact h.mismatch e

/-- An argument is read off the list, which both sides share. -/
theorem readArg (h : Compatible p R) (args : List Value) (i : Nat) :
    R (Machine.readArg args i) (Machine.readArg args i) := by
  unfold Machine.readArg
  cases args[i]? with
  | some v => exact h.pure v
  | none => exact h.bind (h.record _ trivial) fun _ => h.halt _ (by simp) (by simp)

/-- To read an argument as a kind is to read it, and to halt if it is of the other kind. -/
theorem readArgAs (h : Compatible p R) (args : List Value) (i : Nat) (k : Kind) :
    R (Machine.readArgAs args i k) (Machine.readArgAs args i k) := by
  refine h.bind (h.readArg args i) fun v => ?_
  cases v.get k with
  | ok a => exact h.pure a
  | error e => exact h.bind (h.record _ trivial) fun _ => h.mismatch e

/-- A check looks at parameters and arguments alone, so both sides pass it or both are declined. -/
theorem check (h : Compatible p R) (program : String) (params : List Kind) (args : List Value) :
    R (Machine.check program params args) (Machine.check program params args) := by
  unfold Machine.check checkArguments
  -- the check looks at the parameters and the arguments only, so both sides fail alike
  by_cases hl : params.length = args.length
  · simp only [hl, ↓reduceIte]
    cases firstMismatch? params args with
    | none => exact h.pure ()
    | some e => exact h.bind (h.record _ trivial) fun _ => h.mismatch e
  · simp only [hl, ↓reduceIte]
    exact h.bind (h.record _ trivial) fun _ => h.halt _ (by simp) (by simp)

/-- A program is related to itself if its code is. What is done around it are `check` and two
    records. -/
theorem execute (h : Compatible p R) (program : String) (params : List Kind) (args : List Value)
    {main main' : Runner Answer} (hm : R main main') :
    R (Machine.execute program params args main) (Machine.execute program params args main') :=
  h.bind (h.check program params args) fun _ =>
    h.bind (h.record _ trivial) fun _ => h.bind hm fun _ => h.returned program

/-- A handler that may be missing, when handlers are related. -/
theorem invoke? (h : Compatible p R)
    (hc : ∀ h, R (Machine.invoke calls h) (Machine.invoke calls' h)) (h? : Option Handler) :
    R (Machine.invoke? calls h?) (Machine.invoke? calls' h?) := by
  cases h? with
  | none => exact h.pure false
  | some handler => exact h.bind (hc handler) fun _ => h.pure true

/-- **One operation.** When handlers are related, so is every operation with `p`. There is one case
    for each constructor of `Op`, and each is a field of `Compatible` or a lemma above. -/
theorem op (h : Compatible p R) (hc : ∀ h, R (Machine.invoke calls h) (Machine.invoke calls' h))
    (args : List Value) (op : Op) (hp : p op) : R (op.run calls args) (op.run calls' args) := by
  cases op with
  | push v => exact h.push v
  | pop => exact h.pop
  | popAs k => exact h.popAs k
  | drain => exact h.drain
  | syscall name => exact h.syscall hc name hp
  | register name handler => exact h.register name handler (.inl hp)
  | lookup name => exact h.lookup name
  | invoke handler => exact hc handler
  -- two steps each: what the table says, and the handler that comes of it
  | wrap name handler =>
    exact h.bind (h.register name handler (.inr hp)) fun before => h.invoke? hc before
  | call name => exact h.bind (h.lookup name) fun h? => h.invoke? hc h?
  | write s => exact h.record _ trivial
  | exit c => exact h.halt _ (fun c' e => by cases e; exact hp) (by simp)
  | sleep millis => exact h.wait _
  | compute n => exact h.record _ trivial
  | arg i => exact h.readArg args i
  | argAs i k => exact h.readArgAs args i k
  | check program params args' => exact h.check program params args'

/-! ### Code

Code is a tree that branches on answers, so the induction hypothesis is there for every answer at
once.
-/

/-- **Code.** When handlers are related, so is all code with `Code.All p`, by induction over the
    tree. -/
theorem exec (h : Compatible p R) (hc : ∀ h, R (Machine.invoke calls h) (Machine.invoke calls' h))
    {code : Code} (hp : code.All p) (args : List Value) :
    R (code.exec calls args) (code.exec calls' args) := by
  -- Induction over the tree. A program inside has arguments of its own.
  induction code generalizing args with
  | done a => exact h.pure a
  | perform op next ih => exact h.bind (h.op hc args op hp.1) fun r => ih r (hp.2 r) args
  | enter main args' next ihm ihn =>
    exact h.bind (ihm hp.1 args') fun _ => ihn hp.2 args
  | execute program params main args' next ihm ihn =>
    exact h.bind (h.execute program params args' (ihm hp.1 args')) fun _ => ihn hp.2 args

/-- A routine is invoked on both sides if it runs in the same way on both, since `invoke` adds a
    record and drops the answer. -/
theorem invoke_routine (h : Compatible p R) {slot : Nat}
    (hr : R (calls (.routine slot)) (calls' (.routine slot))) :
    R (Machine.invoke calls (.routine slot)) (Machine.invoke calls' (.routine slot)) :=
  h.bind (h.record _ trivial) fun _ => h.bind hr fun _ => h.pure ()

end Compatible

/-! ### Nested handlers

The nesting goes down with every call. At its end nothing is run, and the halt for it is related to
itself.
-/

/-- The built-in exit never comes back, so nothing is done after `leave`. -/
theorem Machine.leave_bind {α β : Type} (m : Machine) (next : α → Runner β) :
    (m.leave : Run α).bind next = m.leave := by
  rcases hs : m.stack.values with _ | ⟨n | b, vs⟩
  · simp only [leave_of_empty hs, Run.bind]
  · simp only [leave_of_i64 hs, Run.bind]
  · simp only [leave_of_bool hs, Run.bind]

/-- The built-in exit takes no part in the nesting of handlers: `Code.call` runs it as `invokeExit`
    at every depth. -/
theorem Machine.invoke_exit (routines : Code.Routines) (depth : Nat) :
    Machine.invoke (Code.call routines depth) .exit = Machine.invokeExit := by
  funext m
  cases depth <;> simp only [Machine.invoke, Code.call, Machine.leave_bind, Machine.invokeExit]

namespace Compatible

variable {p : Op → Prop} {R : {α : Type} → Runner α → Runner α → Prop}
  {routines routines' : Code.Routines}

/-- **Nested handlers.** Handlers of the same slots are related if the code in the slots is, given
    that the handlers below are. The two sides may have different `Routines`. -/
theorem invoke_of_exec (h : Compatible p R)
    (hcode : ∀ {calls calls' : Calls},
      (∀ h, R (Machine.invoke calls h) (Machine.invoke calls' h)) →
      ∀ slot, R ((routines slot).exec calls []) ((routines' slot).exec calls' []))
    (depth : Nat) (handler : Handler) :
    R (Machine.invoke (Code.call routines depth) handler)
      (Machine.invoke (Code.call routines' depth) handler) := by
  -- Induction over the nesting that is left. A routine's code runs its own handlers with one less.
  induction depth generalizing handler with
  | zero =>
    cases handler with
    | exit =>
      rw [Machine.invoke_exit, Machine.invoke_exit]
      exact h.invokeExit
    | routine slot =>
      -- cut off here
      have hcut : R (Run.halt .tooDeep : Runner Answer) (Run.halt .tooDeep) :=
        h.halt _ (by simp) (by simp)
      exact h.invoke_routine hcut
  | succ depth ih =>
    cases handler with
    | exit =>
      rw [Machine.invoke_exit, Machine.invoke_exit]
      exact h.invokeExit
    | routine slot => exact h.invoke_routine (hcode ih slot)

/-- Every handler is related to itself, whatever its routine nests below it. -/
theorem invoke (h : Compatible p R) (hr : ∀ slot, (routines slot).All p) (depth : Nat)
    (handler : Handler) :
    R (Machine.invoke (Code.call routines depth) handler)
      (Machine.invoke (Code.call routines depth) handler) :=
  h.invoke_of_exec (fun hc slot => h.exec hc (hr slot) []) depth handler

/-- **Runs.** Code is related to itself, handlers and programs nested however deep. This is what the
    properties of whole runs are read off from. -/
theorem run (h : Compatible p R) (hr : ∀ slot, (routines slot).All p) {code : Code}
    (hp : code.All p) (depth : Nat) (args : List Value) :
    R (code.run routines depth args) (code.run routines depth args) :=
  h.exec (h.invoke hr depth) hp args

end Compatible

/-- The property that every operation has is one that all code has. -/
theorem Code.all_true (code : Code) : code.All fun _ => True := by
  induction code with
  | done _ => trivial
  | perform _ _ ih => exact ⟨trivial, ih⟩
  | enter _ _ _ ihm ihn => exact ⟨ihm, ihn⟩
  | execute _ _ _ _ _ ihm ihn => exact ⟨ihm, ihn⟩

end StackMachine
