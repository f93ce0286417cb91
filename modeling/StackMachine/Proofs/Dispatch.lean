import StackMachine.Proofs.Replay

namespace StackMachine

/-!
# What an invocation executes

A syscall runs the handler that its name is bound to at that moment. The handler may bind the name
anew, its own or its caller's, but what is running is the code it was found with, to the end.

* `Run.Dispatched m r` — in `r`, which began on `m`, a syscall invokes the handler bound to its name
  there and then, and an invocation is followed by all that the handler does, and by nothing else
  unless the handler comes back.
* `Code.run_dispatched` — runs of code are like that.
-/

/-! ### Splitting traces -/

/-- An element of two lists put together stands in the first or in the second. -/
theorem append_eq_append_cons {α : Type} {a b t u : List α} {x : α} (h : a ++ b = t ++ x :: u) :
    (∃ w, a = t ++ x :: w ∧ u = w ++ b) ∨ ∃ s, t = a ++ s ∧ b = s ++ x :: u := by
  rcases List.append_eq_append_iff.1 h with ⟨s, ht, hb⟩ | ⟨s, ha, hs⟩
  · exact .inr ⟨s, ht, hb⟩
  · cases s with
    | nil => exact .inr ⟨[], by simpa using ha.symm, by simpa using hs.symm⟩
    | cons y w =>
      obtain ⟨rfl, rfl⟩ := List.cons.inj hs
      exact .inl ⟨w, ha, rfl⟩

/-! ### Dispatch

The statement is about every place of the trace at which a call stands. In a sequence that place is
in the first part or in the second, and either part has the property already.
-/

/-- The action belongs to the call of a handler: the syscall that found it or its invocation. -/
def Action.IsCall : Action → Prop
  | .called _ _ => True
  | .invoked _ => True
  | _ => False

/-- In a run that began on `m`, handlers are found in the table and do all that they do. -/
structure Run.Dispatched {α : Type} (routines : Code.Routines) (m : Machine) (r : Run α) :
    Prop where
  faithful : r.Faithful m
  /-- a syscall that found its name bound invokes the handler bound to it -/
  called : ∀ t name depth u, r.trace = t ++ .called name depth :: u →
    ∃ h v, (m.after t).table.get name = some h ∧ u = .invoked h :: v
  /-- an invocation is followed by the handler's own run, and that by something only if it came
      back -/
  invoked : ∀ t h u, r.trace = t ++ .invoked h :: u →
    ∃ depth v, u = (Code.call routines depth h (m.after t)).trace ++ v ∧
      ((∃ a, r.result = .ok a) ∨ v ≠ [] →
        ∃ a, (Code.call routines depth h (m.after t)).result = .ok a)

namespace Run.Dispatched

variable {α β : Type} {routines : Code.Routines} {m : Machine} {r : Run α}

/-- A run that calls no handler is dispatched. -/
theorem of_not_call (hf : r.Faithful m) (ht : ∀ a ∈ r.trace, ¬ a.IsCall) :
    r.Dispatched routines m where
  faithful := hf
  called _ name depth _ h :=
    have hm : .called name depth ∈ r.trace := by simp [h]
    absurd trivial (ht _ hm)
  invoked _ handler _ h :=
    have hm : .invoked handler ∈ r.trace := by simp [h]
    absurd trivial (ht _ hm)

theorem pure (a : α) : (Run.pure a m).Dispatched routines m :=
  of_not_call (.pure a) (by simp [Run.pure])

theorem halt (h : Halt) : (Run.halt h m : Run α).Dispatched routines m :=
  of_not_call (.halt h) (by simp [Run.halt])

/-- An action that changes nothing and is no call is dispatched. Most operations are made of such
    actions. -/
theorem record {a : Action} (hf : a.Fits m) (he : a.effect m = m) (ha : ¬ a.IsCall) :
    (m.record a).Dispatched routines m :=
  of_not_call (.record hf he) (by simpa [Machine.record] using ha)

/-- **Sequencing.** A call stands in the first part or in the second, see `append_eq_append_cons`,
    and is followed by its handler's run within that part. -/
theorem bind {next : α → Runner β} (hr : r.Dispatched routines m)
    (hn : ∀ a m, (next a m).Dispatched routines m) : (r.bind next).Dispatched routines m := by
  have hf : (r.bind next).Faithful m := hr.faithful.bind fun a m => (hn a m).faithful
  cases h : r.result with
  | error e =>
    have hb := Run.bind_of_error h next
    refine ⟨hf, fun t name depth u ht => ?_, fun t handler u ht => ?_⟩
    · -- the first part halted, so its calls are all there are
      exact hr.called t name depth u (by simpa [hb] using ht)
    · rw [hb] at ht ⊢
      obtain ⟨d, v, hu, hok⟩ := hr.invoked t handler u ht
      exact ⟨d, v, hu, fun hv => hok (hv.imp_left fun ⟨_, hc⟩ => nomatch hc)⟩
  | ok a =>
    have hb := Run.bind_of_ok h next
    have hn' := hn a r.machine
    have hm : ∀ s, m.after (r.trace ++ s) = r.machine.after s := fun s => by
      rw [Machine.after_append, ← hr.faithful.machine_eq]
    -- the call is in the first part, whose answer shows that it came back, or in the second
    refine ⟨hf, fun t name depth u ht => ?_, fun t handler u ht => ?_⟩
    · rw [hb] at ht
      rcases append_eq_append_cons ht with ⟨w, hw, rfl⟩ | ⟨s, rfl, hs⟩
      · obtain ⟨handler, v, hg, rfl⟩ := hr.called t name depth w hw
        exact ⟨handler, v ++ (next a r.machine).trace, hg, rfl⟩
      · rw [hm]
        exact hn'.called s name depth u hs
    · rw [hb] at ht ⊢
      rcases append_eq_append_cons ht with ⟨w, hw, rfl⟩ | ⟨s, rfl, hs⟩
      · obtain ⟨d, v, rfl, hok⟩ := hr.invoked t handler w hw
        exact ⟨d, v ++ (next a r.machine).trace, by rw [List.append_assoc],
          fun _ => hok (.inl ⟨a, h⟩)⟩
      · rw [hm]
        exact hn'.invoked s handler u hs

end Run.Dispatched

/-! ### The operations of a machine

Only an invocation and a syscall have anything to show. All others have no call in their traces, and
are dispatched by `of_not_call`.
-/

namespace Machine

variable {routines : Code.Routines}

theorem pop_dispatched (m : Machine) : m.pop.Dispatched routines m := by
  refine .of_not_call m.pop_faithful ?_
  cases hs : m.stack.values with
  | nil => simp [pop_of_empty hs, Action.IsCall]
  | cons v vs => simp [pop_of_cons hs, Action.IsCall]

theorem popAs_dispatched (k : Kind) (m : Machine) : (m.popAs k).Dispatched routines m := by
  refine m.pop_dispatched.bind fun v m => ?_
  cases v.get k with
  | ok a => exact .pure a
  | error e => exact .halt _

theorem drain_dispatched (m : Machine) : m.drain.Dispatched routines m := by
  refine .of_not_call m.drain_faithful fun a ha => ?_
  rcases mem_drainActions ha with rfl | ⟨v, d, rfl⟩
  · exact fun h => h
  · exact fun h => h

theorem register_dispatched (name : String) (h : Handler) (m : Machine) :
    (m.register name h).Dispatched routines m :=
  .of_not_call (faithful_compatible.register name h (.inl trivial) m)
    (by simp [register, Action.IsCall])

/-- Arguments are not on the machine. -/
theorem readArg_dispatched (args : List Value) (i : Nat) (m : Machine) :
    (m.readArg args i).Dispatched routines m := by
  unfold readArg
  cases args[i]? with
  | some v => exact .pure v
  | none =>
    have hr : (m.record (.misread i)).Dispatched routines m := .record trivial rfl (fun h => h)
    exact hr.bind fun _ _ => .halt _

theorem readArgAs_dispatched (args : List Value) (i : Nat) (k : Kind) (m : Machine) :
    (m.readArgAs args i k).Dispatched routines m := by
  refine (m.readArg_dispatched args i).bind fun v m => ?_
  cases v.get k with
  | ok a => exact .pure a
  | error e =>
    have hr : (m.record (.misread i)).Dispatched routines m := .record trivial rfl (fun h => h)
    exact hr.bind fun _ _ => .halt _

theorem check_dispatched (program : String) (params : List Kind) (args : List Value) (m : Machine) :
    (m.check program params args).Dispatched routines m := by
  unfold check
  cases checkArguments program params args with
  | ok _ => exact .pure ()
  | error f =>
    have hr : (m.record (.declined program f)).Dispatched routines m :=
      .record trivial rfl (fun h => h)
    exact hr.bind fun _ _ => .halt _

theorem leave_dispatched {α : Type} (m : Machine) : (m.leave : Run α).Dispatched routines m := by
  refine .of_not_call m.leave_faithful ?_
  rcases hs : m.stack.values with _ | ⟨n | b, vs⟩
  · simp [leave_of_empty hs, Action.IsCall]
  · simp [leave_of_i64 hs, Action.IsCall]
  · simp [leave_of_bool hs, Action.IsCall]

/-- A program calls the handlers that its code calls. -/
theorem execute_dispatched (program : String) (params : List Kind) (args : List Value)
    {main : Runner Answer} (hm : ∀ m, (main m).Dispatched routines m) (m : Machine) :
    (m.execute program params args main).Dispatched routines m := by
  refine (m.check_dispatched program params args).bind fun _ m => ?_
  have he : (m.record (.entered program args.length)).Dispatched routines m :=
    .record trivial rfl (fun h => h)
  refine he.bind fun _ m => (hm m).bind fun _ m => ?_
  exact .record rfl rfl (fun h => h)

/-! Handlers, when their own runs are dispatched. -/

variable {depth : Nat}

/-- Unfolding lemma: an invocation is followed by all that the handler does. -/
theorem invoke_trace (calls : Calls) (h : Handler) (m : Machine) :
    (m.invoke calls h).trace = .invoked h :: (calls h m).trace := by
  cases hr : (calls h m).result <;> simp [invoke, record, Run.bind, hr, Run.pure]

/-- An invocation comes back only if its handler does. -/
theorem ok_of_invoke {calls : Calls} {h : Handler} {m : Machine}
    (hr : ∃ a, (m.invoke calls h).result = .ok a) : ∃ a, (calls h m).result = .ok a := by
  obtain ⟨a, hr⟩ := hr
  cases hc : (calls h m).result with
  | ok b => exact ⟨b, rfl⟩
  | error e => simp [invoke, record, Run.bind, hc] at hr

/-- An invocation, when the runs of handlers are dispatched: it is followed by one of them, and the
    calls in there are followed by theirs. -/
theorem invoke_dispatched
    (hc : ∀ h m, (Code.call routines depth h m).Dispatched routines m) (h : Handler) (m : Machine) :
    (m.invoke (Code.call routines depth) h).Dispatched routines m := by
  have hi : (m.record (.invoked h)).Faithful m := .record trivial rfl
  refine ⟨hi.bind fun _ m => (hc h m).faithful.bind fun _ _ => .pure (), ?_, ?_⟩
  · intro t name d u ht
    rw [invoke_trace] at ht
    -- the invocation itself is not a syscall
    obtain ⟨rfl, hn⟩ | ⟨s, rfl, hs⟩ := List.cons_eq_append_iff.1 ht
    · cases (List.cons.inj hn).1
    · exact (hc h m).called s name d u hs
  · intro t handler u ht
    rw [invoke_trace] at ht
    obtain ⟨rfl, hn⟩ | ⟨s, rfl, hs⟩ := List.cons_eq_append_iff.1 ht
    · -- this is the invocation
      cases hn
      refine ⟨depth, [], by simp, fun hr => ?_⟩
      exact ok_of_invoke (hr.resolve_right fun hn => hn rfl)
    · obtain ⟨d, v, hu, hok⟩ := (hc h m).invoked s handler u hs
      exact ⟨d, v, hu, fun hr => hok (hr.imp_left ok_of_invoke)⟩

/-- A syscall that finds its name bound is followed by the invocation of the handler it found. -/
theorem syscall_dispatched
    (hc : ∀ h m, (Code.call routines depth h m).Dispatched routines m) (name : String)
    (m : Machine) : (m.syscall (Code.call routines depth) name).Dispatched routines m := by
  have hi := invoke_dispatched hc
  have hf := m.syscall_faithful (fun h m => (hi h m).faithful) name
  cases ht : m.table.get name with
  | none =>
    refine .of_not_call hf ?_
    cases hp : m.config.unknownSyscall <;>
      simp [syscall, ht, hp, record, Run.bind, Run.halt, Action.IsCall]
  | some h =>
    have hs : m.syscall (Code.call routines depth) name =
        (m.record (.called name m.depth)).bind fun _ m =>
          m.invoke (Code.call routines depth) h := by
      simp [syscall, ht]
    rw [hs] at hf ⊢
    rw [Run.bind_of_ok rfl]
    refine ⟨hf, fun t name' d u hu => ?_, fun t handler u hu => ?_⟩
    · obtain ⟨rfl, hn⟩ | ⟨s, rfl, hs⟩ := List.cons_eq_append_iff.1 hu
      · -- the syscall itself
        cases hn
        exact ⟨h, _, ht, invoke_trace ..⟩
      · exact (hi h m).called s name' d u hs
    · obtain ⟨rfl, hn⟩ | ⟨s, rfl, hs⟩ := List.cons_eq_append_iff.1 hu
      · cases (List.cons.inj hn).1
      · exact (hi h m).invoked s handler u hs

/-- A handler that may be missing, when the runs of handlers are dispatched. -/
theorem invoke?_dispatched
    (hc : ∀ h m, (Code.call routines depth h m).Dispatched routines m) (h? : Option Handler)
    (m : Machine) : (m.invoke? (Code.call routines depth) h?).Dispatched routines m := by
  cases h? with
  | none => exact .pure false
  | some h => exact (invoke_dispatched hc h m).bind fun _ _ => .pure true

end Machine

/-! ### Code -/

namespace Code

variable {routines : Routines} {depth : Nat}

/-- One operation, when the runs of handlers are dispatched. `Dispatched` speaks of `Code.call` and
    not of any relation between runners, so the cases are gone through here and not by
    `Compatible`. -/
theorem op_dispatched (hc : ∀ h m, (call routines depth h m).Dispatched routines m)
    (args : List Value) (op : Op) (m : Machine) :
    (op.run (call routines depth) args m).Dispatched routines m := by
  cases op with
  | push v =>
    refine .of_not_call (faithful_compatible.push v m) ?_
    simp [Op.run, Machine.push, Action.IsCall]
  | pop => exact m.pop_dispatched
  | popAs k => exact m.popAs_dispatched k
  | drain => exact m.drain_dispatched
  | syscall name => exact m.syscall_dispatched hc name
  | register name h => exact m.register_dispatched name h
  | lookup name => exact .pure _
  | invoke h => exact m.invoke_dispatched hc h
  | wrap name h => exact (m.register_dispatched name h).bind fun h? m => m.invoke?_dispatched hc h?
  | call name => exact m.invoke?_dispatched hc (m.table.get name)
  | write s => exact .record trivial rfl (fun h => h)
  | exit c => exact .halt _
  | sleep millis =>
    exact .of_not_call (faithful_compatible.wait _ m)
      (by simp [Op.run, Machine.sleep, Machine.wait, Action.IsCall])
  | compute n => exact .record trivial rfl (fun h => h)
  | arg i => exact m.readArg_dispatched args i
  | argAs i k => exact m.readArgAs_dispatched args i k
  | check program params args' => exact m.check_dispatched program params args'

/-- Code, when the runs of handlers are dispatched, by induction over the tree. -/
theorem exec_dispatched (hc : ∀ h m, (call routines depth h m).Dispatched routines m) (code : Code)
    (args : List Value) (m : Machine) :
    (code.exec (call routines depth) args m).Dispatched routines m := by
  -- induction over the tree, as for every relation between runners
  induction code generalizing args m with
  | done a => exact .pure a
  | perform op next ih => exact (op_dispatched hc args op m).bind fun r m => ih r args m
  | enter main args' next ihm ihn => exact (ihm args' m).bind fun _ m => ihn args m
  | execute program params main args' next ihm ihn =>
    exact (m.execute_dispatched program params args' (ihm args')).bind fun _ m => ihn args m

/-- Handlers, nested however deep. -/
theorem call_dispatched (depth : Nat) (h : Handler) (m : Machine) :
    (call routines depth h m).Dispatched routines m := by
  -- induction over the nesting that is left
  induction depth generalizing h m with
  | zero =>
    cases h with
    | exit => exact m.leave_dispatched
    | routine slot => exact .halt _
  | succ depth ih =>
    cases h with
    | exit => exact m.leave_dispatched
    | routine slot => exact exec_dispatched ih (routines slot) [] m

/-- **Dispatch.** Runs of code are `Dispatched`. -/
theorem run_dispatched (routines : Routines) (depth : Nat) (code : Code) (args : List Value)
    (m : Machine) : (code.run routines depth args m).Dispatched routines m :=
  exec_dispatched (call_dispatched depth) code args m

end Code

end StackMachine
