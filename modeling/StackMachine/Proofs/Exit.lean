import StackMachine.Proofs.Replay

namespace StackMachine

/-!
# Exits

Code that never asks the host for an exit can leave the process only through the built-in exit,
under whatever names that is bound and however deep in handlers it is reached. Nothing comes after
the built-in exit in a run, whether it succeeds or fails.

* `Op.NotExit` — the operation is not a direct request for an exit.
* `Run.ExitsLast m r` — in `r`, which began on `m`, what follows an invocation of the built-in exit
  is what the built-in exit does there, and no other way leads out of the process.
* `Code.run_exitsLast` — the runs of code without direct requests are like that.
-/

/-- The operation does not ask the host for an exit. With `Code.All`, this leaves code the built-in
    exit only. -/
def Op.NotExit (op : Op) : Prop := ∀ c, op ≠ .exit c

namespace Machine

/-- The built-in exit never comes back with an answer. -/
theorem leave_ne_ok {α : Type} (m : Machine) (a : α) : (m.leave : Run α).result ≠ .ok a := by
  rcases hs : m.stack.values with _ | ⟨n | b, vs⟩
  · simp [leave_of_empty hs]
  · simp [leave_of_i64 hs]
  · simp [leave_of_bool hs]

/-- The built-in exit does not invoke itself. -/
theorem invoked_exit_not_mem_leave {α : Type} (m : Machine) :
    .invoked .exit ∉ (m.leave : Run α).trace := by
  rcases hs : m.stack.values with _ | ⟨n | b, vs⟩
  · simp [leave_of_empty hs]
  · simp [leave_of_i64 hs]
  · simp [leave_of_bool hs]

/-- A `drain` only pops. -/
theorem invoked_exit_not_mem_drainActions (depth : Nat) (vs : List Value) :
    .invoked .exit ∉ drainActions depth vs := by
  intro ha
  rcases mem_drainActions ha with h | ⟨v, d, h⟩
  · cases h
  · cases h

end Machine

/-- An invocation of the built-in exit is the last thing that happens in a run that began on `m`, up
    to what the built-in exit does itself, and there is one in every run that leaves the process. -/
structure Run.ExitsLast {α : Type} (m : Machine) (r : Run α) : Prop where
  faithful : r.Faithful m
  /-- What comes after an invocation is what `leave` does on the machine at that point. -/
  last : ∀ t t', r.trace = t ++ .invoked .exit :: t' →
    ⟨r.result, r.machine, t'⟩ = ((m.after t).leave : Run α)
  /-- No other way leads out of the process. -/
  invoked : ∀ c, r.result = .error (.exited c) → .invoked .exit ∈ r.trace

namespace Run.ExitsLast

variable {α β : Type} {m : Machine} {r : Run α}

/-- A run without an invocation of the built-in exit, which does not leave the process. -/
theorem of_not_mem (hf : r.Faithful m) (ht : .invoked .exit ∉ r.trace)
    (hr : ∀ c, r.result ≠ .error (.exited c)) : r.ExitsLast m where
  faithful := hf
  last t t' h := absurd (by simp [h]) ht
  invoked c h := absurd h (hr c)

/-- A run that answers has not invoked the built-in exit, since `leave` does not answer. -/
theorem not_mem_of_ok (h : r.ExitsLast m) {a : α} (hr : r.result = .ok a) :
    .invoked .exit ∉ r.trace := by
  intro hm
  obtain ⟨t, t', ht⟩ := List.append_of_mem hm
  have hl := h.last t t' ht
  have hok : ((m.after t).leave : Run α).result = .ok a := by
    rw [← hl]
    exact hr
  exact Machine.leave_ne_ok _ a hok

/-- **Sequencing.** After an invocation nothing is done, so in a sequence it is the last thing of
    the whole if it is the last thing of its part. -/
theorem bind {next : α → Runner β} (hr : r.ExitsLast m)
    (hn : ∀ a m, (next a m).ExitsLast m) : (r.bind next).ExitsLast m := by
  have hf : (r.bind next).Faithful m := hr.faithful.bind fun a m => (hn a m).faithful
  cases h : r.result with
  | error e =>
    have hb := Run.bind_of_error h next
    refine ⟨hf, fun t t' ht => ?_, fun c hc => ?_⟩
    · -- the first part halted, and halts the same way whatever comes next
      have hl := hr.last t t' (by simpa [hb] using ht)
      rw [hb, ← Machine.leave_bind (α := α) _ next, ← hl]
      simp only [Run.bind, h]
    · rw [hb] at hc ⊢
      obtain rfl : e = .exited c := by simpa using hc
      exact hr.invoked c h
  | ok a =>
    have hb := Run.bind_of_ok h next
    have hn' := hn a r.machine
    refine ⟨hf, fun t t' ht => ?_, fun c hc => ?_⟩
    · rw [hb] at ht ⊢
      -- the first part came to an end, so the invocation is in the second one
      obtain ⟨s, rfl, hs⟩ := exists_append_of_not_mem ht (hr.not_mem_of_ok h)
      rw [Machine.after_append, ← hr.faithful.machine_eq]
      exact hn'.last s t' hs
    · rw [hb] at hc ⊢
      exact List.mem_append_right _ (hn'.invoked c hc)

/-! What an invocation of the built-in exit comes to, by the stack it meets. -/

variable {t t' : List Action} {vs : List Value}

/-- On an integer: an exit with its low 32 bits. The trace ends with the pop, the exit and the
    report. -/
theorem of_i64 (h : r.ExitsLast m) (ht : r.trace = t ++ .invoked .exit :: t') {n : Int64}
    (hs : (m.after t).stack.values = .i64 n :: vs) :
    r.result = .error (.exited n.toInt32) ∧
      r.machine = { m.after t with stack := .ofList vs } ∧
      t' = [.popped (.i64 n) vs.length, .exiting n (m.after t).elapsed,
        .wrote (.report (m.after t).elapsed)] := by
  have hl := h.last t t' ht
  rw [Machine.leave_of_i64 hs] at hl
  simpa using hl

/-- On a truth value: a failure that takes the truth value. -/
theorem of_bool (h : r.ExitsLast m) (ht : r.trace = t ++ .invoked .exit :: t') {b : Bool}
    (hs : (m.after t).stack.values = .bool b :: vs) :
    r.result = .error (.failed (.kindMismatch ⟨.i64, .bool⟩)) ∧
      r.machine = { m.after t with stack := .ofList vs } ∧
      t' = [.popped (.bool b) vs.length] := by
  have hl := h.last t t' ht
  rw [Machine.leave_of_bool hs] at hl
  simpa using hl

/-- On an empty stack: a failure that takes nothing. -/
theorem of_empty (h : r.ExitsLast m) (ht : r.trace = t ++ .invoked .exit :: t')
    (hs : (m.after t).stack.values = []) :
    r.result = .error (.failed .stackUnderflow) ∧ r.machine = m.after t ∧ t' = [.starved] := by
  have hl := h.last t t' ht
  rw [Machine.leave_of_empty hs] at hl
  simpa using hl

/-- A run leaves the process if and only if it invokes the built-in exit on an integer. The other
    two stacks end in a failure, by `of_bool` and `of_empty`. -/
theorem exited_iff (h : r.ExitsLast m) :
    (∃ c, r.result = .error (.exited c)) ↔
      ∃ t t' n, r.trace = t ++ .invoked .exit :: t' ∧
        (m.after t).stack.top? = some (.i64 n) := by
  constructor
  · rintro ⟨c, hc⟩
    -- there is an invocation, and on another stack it would have ended in a failure
    obtain ⟨t, t', ht⟩ := List.append_of_mem (h.invoked c hc)
    rcases hs : (m.after t).stack.values with _ | ⟨n | b, vs⟩
    · simp [(h.of_empty ht hs).1] at hc
    · exact ⟨t, t', n, ht, by simp [Stack.top?, hs]⟩
    · simp [(h.of_bool ht hs).1] at hc
  · rintro ⟨t, t', n, ht, htop⟩
    obtain ⟨vs, hs⟩ := List.head?_eq_some_iff.1 htop
    exact ⟨_, (h.of_i64 ht hs).1⟩

end Run.ExitsLast

namespace Machine

/-- A pop fails at most. -/
theorem pop_exitsLast (m : Machine) : m.pop.ExitsLast m := by
  cases hs : m.stack.values with
  | nil => exact .of_not_mem m.pop_faithful (by simp [pop_of_empty hs]) (by simp [pop_of_empty hs])
  | cons v vs =>
    exact .of_not_mem m.pop_faithful (by simp [pop_of_cons hs]) (by simp [pop_of_cons hs])

/-- The built-in exit itself: its invocation is the first action, and there is no other. -/
theorem invokeExit_exitsLast (m : Machine) : m.invokeExit.ExitsLast m where
  faithful := m.invokeExit_faithful
  last t t' h := by
    rw [invokeExit_eq] at h ⊢
    rcases List.cons_eq_append_iff.1 h with ⟨rfl, ht⟩ | ⟨s, rfl, hs⟩
    · obtain ⟨-, rfl⟩ := List.cons.inj ht
      rfl
    · -- the built-in exit does not invoke itself
      exact absurd (by simp [hs]) (invoked_exit_not_mem_leave (α := Unit) m)
  invoked c _ := by simp [invokeExit_eq]

/-- A syscall does what its handler does, or fails, or passes the name over. -/
theorem syscall_exitsLast {calls : Calls} (hc : ∀ h m, (invoke calls h m).ExitsLast m)
    (name : String) (m : Machine) : (m.syscall calls name).ExitsLast m := by
  have hf := m.syscall_faithful (fun h m => (hc h m).faithful) name
  unfold syscall at hf ⊢
  cases ht : m.table.get name with
  | some h =>
    -- A bound name: the call itself invokes nothing, and then its handler runs.
    have hb : m.table.contains name := by simp [Table.contains, ht]
    have hr : (m.record (.called name m.depth)).ExitsLast m :=
      .of_not_mem (.record ⟨hb, rfl⟩ rfl) (by simp [record]) (by simp [record])
    exact hr.bind fun _ m => hc h m
  | none =>
    simp only [ht] at hf
    -- An unbound name: no handler runs, so the trace has no invocation.
    cases hp : m.config.unknownSyscall with
    | reject =>
      simp only [hp] at hf
      exact .of_not_mem hf (by simp [record, Run.bind, Run.halt])
        (by simp [record, Run.bind, Run.halt])
    | ignore =>
      simp only [hp] at hf
      exact .of_not_mem hf (by simp [record]) (by simp [record])

end Machine

/-- A plain action may invoke routines but not the built-in exit. -/
theorem Action.IsPlain.ne_invoked_exit {a : Action} (h : a.IsPlain) : a ≠ .invoked .exit := by
  rintro rfl
  exact h

/-- `ExitsLast` is kept by everything that a machine does, but for an exit asked of the host. Each
    operation either has no invocation in its trace, see `of_not_mem`, or runs handlers. -/
theorem exitsLast_compatible : Compatible Op.NotExit fun f _ => ∀ m, (f m).ExitsLast m where
  pure a m := .of_not_mem (.pure a) (by simp [Run.pure]) (by simp [Run.pure])
  bind hf hg m := (hf m).bind hg
  halt h hp _ m := .of_not_mem (.halt h) (by simp [Run.halt]) fun c hc =>
    hp c (by simpa [Run.halt] using hc) c rfl
  record a ha m := .of_not_mem (.record (ha.fits m).1 (ha.fits m).2)
    (by simpa [Machine.record] using ha.ne_invoked_exit.symm) (by simp [Machine.record])
  returned _ m := .of_not_mem (.record rfl rfl) (by simp [Machine.record])
    (by simp [Machine.record])
  push v m := .of_not_mem (faithful_compatible.push v m) (by simp [Machine.push])
    (by simp [Machine.push])
  pop := Machine.pop_exitsLast
  drain m := .of_not_mem m.drain_faithful (Machine.invoked_exit_not_mem_drainActions _ _)
    (by simp [Machine.drain])
  register name h _ m := .of_not_mem (faithful_compatible.register name h (.inl trivial) m)
    (by simp [Machine.register]) (by simp [Machine.register])
  lookup name m := .of_not_mem (.pure _) (by simp [Machine.lookup, Run.pure])
    (by simp [Machine.lookup, Run.pure])
  wait nanos m := .of_not_mem (faithful_compatible.wait nanos m) (by simp [Machine.wait])
    (by simp [Machine.wait])
  syscall hc name _ := Machine.syscall_exitsLast hc name
  invokeExit := Machine.invokeExit_exitsLast

/-- Runs of code that does not ask the host for an exit are like that. -/
theorem Code.run_exitsLast {routines : Routines} {code : Code}
    (hr : ∀ slot, (routines slot).All Op.NotExit) (hc : code.All Op.NotExit) (depth : Nat)
    (args : List Value) (m : Machine) : (code.run routines depth args m).ExitsLast m :=
  exitsLast_compatible.run hr hc depth args m

/-- **Contract of the built-in exit.** Code that does not ask the host for an exit leaves the
    process if and only if `Handler.exit` is invoked while an integer is on top of the stack. The
    exit code is then the low 32 bits of that integer, signed; the integer is gone from the stack,
    the report of the running time is the last line printed, and nothing else follows. On a truth
    value or on an empty stack the built-in exit fails, and takes at most the truth value. -/
theorem Code.run_exit_contract {routines : Routines} {code : Code}
    (hr : ∀ slot, (routines slot).All Op.NotExit) (hc : code.All Op.NotExit) {depth : Nat}
    {args : List Value} {m : Machine} {r : Run Answer}
    (h : code.run routines depth args m = r) :
    ((∃ c, r.result = .error (.exited c)) ↔
      ∃ t t' n, r.trace = t ++ .invoked .exit :: t' ∧
        (m.after t).stack.top? = some (.i64 n)) ∧
    ∀ t t', r.trace = t ++ .invoked .exit :: t' →
      match (m.after t).stack.values with
      | .i64 n :: vs =>
        (∃ c, r.result = .error (.exited c) ∧ c.toInt = n.toInt.bmod Int32.size) ∧
        r.machine = { m.after t with stack := .ofList vs } ∧
        t' = [.popped (.i64 n) vs.length, .exiting n (m.after t).elapsed,
          .wrote (.report (m.after t).elapsed)] ∧
        ∀ seconds, r.output.map (Line.render seconds) =
          (t.filterMap Action.line?).map (Line.render seconds) ++
            ["Finished in " ++ seconds (m.after t).elapsed ++ " seconds"]
      | .bool b :: vs =>
        r.result = .error (.failed (.kindMismatch ⟨.i64, .bool⟩)) ∧
        r.machine = { m.after t with stack := .ofList vs } ∧
        t' = [.popped (.bool b) vs.length] ∧ r.output = t.filterMap Action.line?
      | [] =>
        r.result = .error (.failed .stackUnderflow) ∧ r.machine = m.after t ∧
        t' = [.starved] ∧ r.output = t.filterMap Action.line? := by
  subst h
  have hl := run_exitsLast hr hc depth args m
  refine ⟨hl.exited_iff, fun t t' ht => ?_⟩
  -- What the exit finds on top of the stack decides; `of_empty`, `of_i64` and `of_bool` say how.
  rcases hs : (m.after t).stack.values with _ | ⟨n | b, vs⟩
  · obtain ⟨hres, hm, rfl⟩ := hl.of_empty ht hs
    exact ⟨hres, hm, rfl, by simp [Run.output, ht, Action.line?]⟩
  · obtain ⟨hres, hm, rfl⟩ := hl.of_i64 ht hs
    refine ⟨⟨_, hres, Int64.toInt_toInt32 n⟩, hm, rfl, fun seconds => ?_⟩
    rw [Run.output, ht, List.filterMap_append, List.map_append]
    rfl
  · obtain ⟨hres, hm, rfl⟩ := hl.of_bool ht hs
    exact ⟨hres, hm, rfl, by simp [Run.output, ht, Action.line?]⟩

/-- The built-in exit is replaced and then called all the same, on an integer beyond 32 bits. The
    line after the call is not printed. -/
theorem Code.replaced_exit_contract :
    let m : Machine := { Machine.boot {} with stack := .ofList [.i64 0x100000007] }
    let code : Code := .perform (.wrap exitName (.routine 0)) fun _ =>
      .perform (.write "late") fun _ => .skip
    let r := code.run noRoutines 0 [] m
    (∃ c, r.result = .error (.exited c) ∧ c.toInt = 7) ∧
      r.output.map (Line.render Number.secondsText) = ["Finished in 0 seconds"] := by
  intro m code r
  have hr : ∀ slot, (noRoutines slot).All Op.NotExit := fun _ => trivial
  have hc : code.All Op.NotExit := by simp [code, Code.All, Op.NotExit, Code.skip]
  have h := (Code.run_exit_contract hr hc (rfl : code.run noRoutines 0 [] m = r)).2
    [.registered exitName (.routine 0)] _ rfl
  obtain ⟨⟨c, hres, hcode⟩, -, -, ho⟩ := h
  exact ⟨⟨c, hres, hcode.trans (by decide)⟩, (ho _).trans (by decide +kernel)⟩

end StackMachine
