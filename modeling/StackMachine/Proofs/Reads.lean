import StackMachine.Program.Bundled
import StackMachine.Proofs.Execution
import StackMachine.Proofs.Replay

namespace StackMachine

/-!
# Reads of arguments

The arguments of a program are checked once, when it is executed. Code reads them later on, from
under any number of handlers and other programs, and has no other check. A read cannot fail if it
asks for a parameter that the program has, as a value of that parameter's kind.

* `Code.ReadsWithin params`, `Program.WellFormed` — code reads no other arguments than such, and the
  programs inside are executed and not entered.
* `Run.HaltsIn m r f` — the last thing that `r` did, which began on `m`, was an `f` that halted.
* `Run.ReadsSafely m r` — in `r`, which began on `m`, no read failed, and a value of the wrong kind
  was met by a check of arguments or by a pop.
* `Program.executed_readsSafely` — well-formed programs read safely, and bundled programs are
  well-formed.
-/

/-! ### Well-formed programs -/

/-- An operation reads an argument only if a parameter stands for it, and as that parameter's
    kind. -/
def Op.ReadsWithin (params : List Kind) : Op → Prop
  | .arg i => i < params.length
  | .argAs i k => params[i]? = some k
  | _ => True

/-- Code reads arguments as the parameters say. A program inside is executed, on arguments of its
    own, and reads them as its own parameters say. -/
def Code.ReadsWithin : Code → List Kind → Prop
  | .done _, _ => True
  | .perform op next, params => op.ReadsWithin params ∧ ∀ r, (next r).ReadsWithin params
  | .enter _ _ _, _ => False
  | .execute _ params' main _ next, params => main.ReadsWithin params' ∧ next.ReadsWithin params

/-- A program reads its arguments as its parameters say. -/
def Program.WellFormed (p : Program) : Prop := p.main.ReadsWithin p.params

/-- The routines have no arguments to read. -/
def Code.Routines.WellFormed (routines : Code.Routines) : Prop :=
  ∀ slot, (routines slot).ReadsWithin []

/-- The bundled programs read their arguments as their parameters say. -/
theorem Program.wellFormed_of_mem_bundled {p : Program} (hp : p ∈ bundled) : p.WellFormed := by
  simp only [bundled, List.mem_cons, List.not_mem_nil, or_false] at hp
  rcases hp with rfl | rfl | rfl | rfl | rfl | rfl | rfl
  · exact ⟨rfl, fun _ => ⟨rfl, fun _ => ⟨trivial, fun _ => ⟨trivial, fun _ => trivial⟩⟩⟩⟩
  · exact ⟨rfl, fun _ => ⟨trivial, fun _ => ⟨trivial, fun _ => trivial⟩⟩⟩
  · exact ⟨rfl, fun _ => ⟨rfl, fun _ => ⟨trivial, fun _ => ⟨trivial, fun _ => trivial⟩⟩⟩⟩
  · exact ⟨trivial, fun _ => ⟨trivial, fun _ => trivial⟩⟩
  · exact ⟨trivial, fun _ => trivial⟩
  · exact ⟨trivial, fun _ => trivial⟩
  · exact ⟨rfl, fun _ => ⟨trivial, fun _ => ⟨trivial, fun _ => ⟨trivial, fun _ => trivial⟩⟩⟩⟩

/-! ### What the check is good for

The kinds of the arguments are the kinds of the parameters, as lists, so a place in the one is a
place in the other.
-/

/-- An argument is there if its parameter is. -/
theorem Machine.readArg_of_lt {args : List Value} {i : Nat}
    (h : i < (args.map Value.kind).length) (m : Machine) : ∃ v, m.readArg args i = .pure v m := by
  rw [List.length_map] at h
  exact ⟨args[i], by simp [readArg, List.getElem?_eq_getElem h]⟩

/-- An argument of its parameter's kind is read as a value of that kind. -/
theorem Machine.readArgAs_of_kind {args : List Value} {i : Nat} {k : Kind}
    (h : (args.map Value.kind)[i]? = some k) (m : Machine) :
    ∃ a, m.readArgAs args i k = .pure a m := by
  obtain ⟨v, hv, hk⟩ : ∃ v, args[i]? = some v ∧ v.kind = k := by simpa using h
  obtain ⟨a, rfl⟩ := Value.exists_of_kind hk
  exact ⟨a, by simp [readArgAs, readArg, hv]⟩

/-! ### Where a run halts

A run of a sequence halts where one of its parts does. So the last action of a run can be followed
into the operation that did it.
-/

/-- The last thing that a run did, which began on `m`, was an `f` that halted. -/
def Run.HaltsIn {α β : Type} (m : Machine) (r : Run α) (f : Runner β) : Prop :=
  ∃ t h, (f (m.after t)).result = .error h ∧
    r = ⟨.error h, (f (m.after t)).machine, t ++ (f (m.after t)).trace⟩

namespace Run.HaltsIn

variable {α β γ : Type} {m : Machine} {r : Run α} {f : Runner γ}

/-- What halts halts in itself. -/
theorem self {f : Runner α} {h : Halt} (hf : (f m).result = .error h) : (f m).HaltsIn m f :=
  ⟨[], h, hf, by rw [← hf]; rfl⟩

/-- What halted a run halts everything that the run is the first part of. -/
theorem bind_left (h : r.HaltsIn m f) (next : α → Runner β) : (r.bind next).HaltsIn m f := by
  obtain ⟨t, e, hf, rfl⟩ := h
  exact ⟨t, e, hf, rfl⟩

/-- What halts the second part halts the whole. -/
theorem bind_right {a : α} {next : α → Runner β} (hr : r.Faithful m) (ha : r.result = .ok a)
    (h : (next a r.machine).HaltsIn r.machine f) : (r.bind next).HaltsIn m f := by
  obtain ⟨t, e, hf, hn⟩ := h
  have hm : m.after (r.trace ++ t) = r.machine.after t := by
    rw [Machine.after_append, ← hr.machine_eq]
  refine ⟨r.trace ++ t, e, by rw [hm, hf], ?_⟩
  rw [Run.bind_of_ok ha, hn, hm, List.append_assoc]

end Run.HaltsIn

/-! ### Safe reads

Two things are kept: no failed read is in the trace, and a run that halts on a wrong kind halted in
a check or in a typed pop.
-/

/-- In a run that began on `m` no read of an argument failed, and if it halted on a value of the
    wrong kind, then in a check of arguments or in a pop. -/
structure Run.ReadsSafely {α : Type} (m : Machine) (r : Run α) : Prop where
  faithful : r.Faithful m
  read : ∀ i, .misread i ∉ r.trace
  present : ∀ count i, r.result ≠ .error (.argumentMissing count i)
  mismatch : ∀ e, r.result = .error (.failed (.kindMismatch e)) →
    (∃ program params args, r.HaltsIn m (Machine.check program params args)) ∨
      ∃ k, r.HaltsIn m (Machine.popAs k)

namespace Run.ReadsSafely

variable {α β : Type} {m : Machine} {r : Run α}

/-- A run that comes back and tells of no read is safe. -/
theorem of_ok {a : α} (hf : r.Faithful m) (hr : r.result = .ok a)
    (ht : ∀ i, .misread i ∉ r.trace) : r.ReadsSafely m where
  faithful := hf
  read := ht
  present _ _ he := by
    rw [hr] at he
    cases he
  mismatch _ he := by
    rw [hr] at he
    cases he

theorem pure (a : α) : (Run.pure a m).ReadsSafely m :=
  of_ok (.pure a) rfl fun _ => List.not_mem_nil

/-- An action that changes nothing and is no failed read is safe. -/
theorem record {a : Action} (hf : a.Fits m) (he : a.effect m = m) (ha : ∀ i, a ≠ .misread i) :
    (m.record a).ReadsSafely m :=
  of_ok (.record hf he) rfl fun i hi => ha i (List.mem_singleton.1 hi).symm

/-- A halt that is neither for a read nor for a kind is safe. -/
theorem halt {h : Halt} (hp : ∀ count i, h ≠ .argumentMissing count i)
    (hm : ∀ e, h ≠ .failed (.kindMismatch e)) : (Run.halt h m : Run α).ReadsSafely m where
  faithful := .halt h
  read _ := List.not_mem_nil
  present count i he := hp count i (Except.error.inj he)
  mismatch e he := absurd (Except.error.inj he) (hm e)

/-- **Sequencing.** Safe runs in turn are safe: the whole halts where one of its parts does, see
    `HaltsIn.bind_left` and `HaltsIn.bind_right`. -/
theorem bind {next : α → Runner β} (hr : r.ReadsSafely m)
    (hn : ∀ a m, (next a m).ReadsSafely m) : (r.bind next).ReadsSafely m := by
  have hf : (r.bind next).Faithful m := hr.faithful.bind fun a m => (hn a m).faithful
  cases h : r.result with
  | error e =>
    -- the first part halted, and the whole in the same place
    have hb := Run.bind_of_error h next
    have hres {x : Halt} (hx : (r.bind next).result = .error x) : r.result = .error x := by
      rw [hb] at hx
      exact h.trans (congrArg Except.error (Except.error.inj hx))
    refine ⟨hf, ?_, fun count i hi => hr.present count i (hres hi), fun k hk => ?_⟩
    · rw [hb]
      exact hr.read
    · refine (hr.mismatch k (hres hk)).imp ?_ ?_
      · rintro ⟨program, params, args, hc⟩
        exact ⟨program, params, args, hc.bind_left next⟩
      · rintro ⟨k, hp⟩
        exact ⟨k, hp.bind_left next⟩
  | ok a =>
    have hb := Run.bind_of_ok h next
    have hn' := hn a r.machine
    refine ⟨hf, fun i hi => ?_, ?_, fun k hk => ?_⟩
    · rw [hb] at hi
      exact (List.mem_append.1 hi).elim (hr.read i) (hn'.read i)
    · rw [hb]
      exact hn'.present
    · rw [hb] at hk
      refine (hn'.mismatch k hk).imp ?_ ?_
      · rintro ⟨program, params, args, hc⟩
        exact ⟨program, params, args, hc.bind_right hr.faithful h⟩
      · rintro ⟨k, hp⟩
        exact ⟨k, hp.bind_right hr.faithful h⟩

end Run.ReadsSafely

/-! ### The operations of a machine

Reads of arguments are the only operations that could be unsafe; they are in `op_readsSafely`, where
the kinds are known. A typed pop and a check may meet a wrong kind and are named for it.
-/

namespace Machine

/-- A pop of any value meets no wrong kind. -/
theorem pop_readsSafely (m : Machine) : m.pop.ReadsSafely m := by
  cases hs : m.stack.values with
  | nil =>
    have hf := m.pop_faithful
    rw [pop_of_empty hs] at hf ⊢
    exact ⟨hf, by simp, by simp, by simp⟩
  | cons v vs =>
    have hp := pop_of_cons hs
    exact .of_ok m.pop_faithful (by rw [hp]) (by simp [hp])

/-- A typed pop may, and then the run halts in it. -/
theorem popAs_readsSafely (k : Kind) (m : Machine) : (m.popAs k).ReadsSafely m := by
  have hf := m.popAs_faithful k
  rcases hs : m.stack.values with _ | ⟨v, vs⟩
  · have hp := popAs_of_empty k hs
    exact ⟨hf, by simp [hp], by simp [hp], fun e he => .inr ⟨k, .self he⟩⟩
  · by_cases hv : v.kind = k
    · obtain ⟨a, rfl⟩ := Value.exists_of_kind hv
      have hp := popAs_of_kind hs
      exact .of_ok hf (by rw [hp]) (by simp [hp])
    · have hp := popAs_of_kind_ne hs hv
      exact ⟨hf, by simp [hp], by simp [hp], fun e he => .inr ⟨k, .self he⟩⟩

/-- A check may meet a wrong kind, and then the run halts in it. -/
theorem check_readsSafely (program : String) (params : List Kind) (args : List Value)
    (m : Machine) : (m.check program params args).ReadsSafely m := by
  have hf : (m.check program params args).Faithful m :=
    (faithful_compatible.check program params args) m
  cases hc : checkArguments program params args with
  | ok _ =>
    have hok : m.check program params args = .pure () m := by simp [check, hc]
    rw [hok]
    exact .pure ()
  | error f =>
    have he : m.check program params args =
        ⟨.error (.failed f), m, [.declined program f]⟩ := by
      simp [check, hc, record, Run.bind, Run.halt]
    exact ⟨hf, by simp [he], by simp [he], fun _ hk => .inl ⟨program, params, args, .self hk⟩⟩

theorem drain_readsSafely (m : Machine) : m.drain.ReadsSafely m := by
  refine .of_ok m.drain_faithful rfl fun i hi => ?_
  rcases mem_drainActions hi with h | ⟨v, d, h⟩
  · cases h
  · cases h

theorem register_readsSafely (name : String) (h : Handler) (m : Machine) :
    (m.register name h).ReadsSafely m :=
  .of_ok (faithful_compatible.register name h (.inl trivial) m) rfl (by simp [register])

/-- The built-in exit meets a wrong kind in its pop. -/
theorem leave_readsSafely {α : Type} (m : Machine) : (m.leave : Run α).ReadsSafely m := by
  refine (m.popAs_readsSafely .i64).bind fun code m => ?_
  have he : (m.record (.exiting code m.elapsed)).ReadsSafely m := .record rfl rfl (by simp)
  refine he.bind fun _ m => ?_
  have hw : (m.record (.wrote (.report m.elapsed))).ReadsSafely m := .record rfl rfl (by simp)
  exact hw.bind fun _ _ => .halt (by simp) (by simp)

/-- A program reads safely if its code does on arguments of the kinds of the parameters. Others do
    not pass the check. -/
theorem execute_readsSafely {program : String} {params : List Kind} {args : List Value}
    {main : Runner Answer}
    (hmain : args.map Value.kind = params → ∀ m, (main m).ReadsSafely m) (m : Machine) :
    (m.execute program params args main).ReadsSafely m := by
  have hcheck := m.check_readsSafely program params args
  cases hc : checkArguments program params args with
  | error f =>
    -- A failed check is all that happens.
    have he : m.execute program params args main = m.check program params args := by
      simp [execute, check, hc, Run.bind, record, Run.halt]
    rw [he]
    exact hcheck
  | ok _ =>
    have hok : m.check program params args = .pure () m := by simp [check, hc]
    -- Passed arguments have the kinds of the parameters, which is what the code was checked
    -- against.
    have hm := hmain (checkArguments_eq_ok_iff.1 hc)
    rw [execute, hok, Run.pure_bind]
    have hr : (m.record (.entered program args.length)).ReadsSafely m :=
      .record trivial rfl (by simp)
    exact hr.bind fun _ m => (hm m).bind fun _ _ => .record rfl rfl (by simp)

section

variable {calls : Calls} (hcalls : ∀ h m, (calls h m).ReadsSafely m)
include hcalls

/-- An invocation, when handlers read safely. -/
theorem invoke_readsSafely (h : Handler) (m : Machine) : (m.invoke calls h).ReadsSafely m := by
  have hr : (m.record (.invoked h)).ReadsSafely m := .record trivial rfl (by simp)
  exact hr.bind fun _ m => (hcalls h m).bind fun _ _ => .pure ()

/-- A handler that may be missing, when handlers read safely. -/
theorem invoke?_readsSafely (h? : Option Handler) (m : Machine) :
    (m.invoke? calls h?).ReadsSafely m := by
  cases h? with
  | none => exact .pure false
  | some h => exact (invoke_readsSafely hcalls h m).bind fun _ _ => .pure true

/-- A syscall, when handlers read safely. -/
theorem syscall_readsSafely (name : String) (m : Machine) :
    (m.syscall calls name).ReadsSafely m := by
  unfold syscall
  cases ht : m.table.get name with
  | some h =>
    have hb : m.table.contains name := by simp [Table.contains, ht]
    have hr : (m.record (.called name m.depth)).ReadsSafely m := .record ⟨hb, rfl⟩ rfl (by simp)
    exact hr.bind fun _ m => invoke_readsSafely hcalls h m
  | none =>
    cases hp : m.config.unknownSyscall with
    | reject =>
      have hr : (m.record (.rejected name)).ReadsSafely m := .record ⟨ht, hp⟩ rfl (by simp)
      exact hr.bind fun _ _ => .halt (by simp) (by simp)
    | ignore => exact .record ⟨ht, hp⟩ rfl (by simp)

end

end Machine

/-! ### Code -/

namespace Code

variable {calls : Calls}

/-- One operation that reads within the kinds of the arguments. A read is none that can fail, by
    `Machine.readArg_of_lt` and `Machine.readArgAs_of_kind`. -/
theorem op_readsSafely (hcalls : ∀ h m, (calls h m).ReadsSafely m) {args : List Value} {op : Op}
    (hop : op.ReadsWithin (args.map Value.kind)) (m : Machine) :
    (op.run calls args m).ReadsSafely m := by
  cases op with
  | push v => exact .of_ok (faithful_compatible.push v m) rfl (by simp [Op.run, Machine.push])
  | pop => exact m.pop_readsSafely
  | popAs k => exact m.popAs_readsSafely k
  | drain => exact m.drain_readsSafely
  | syscall name => exact Machine.syscall_readsSafely hcalls name m
  | register name h => exact m.register_readsSafely name h
  | lookup name => exact .pure _
  | invoke h => exact Machine.invoke_readsSafely hcalls h m
  | wrap name h =>
    exact (m.register_readsSafely name h).bind fun h? m => Machine.invoke?_readsSafely hcalls h? m
  | call name => exact Machine.invoke?_readsSafely hcalls (m.table.get name) m
  | write s => exact .record trivial rfl (by simp)
  | exit c => exact .halt (by simp) (by simp)
  | sleep millis =>
    exact .of_ok (faithful_compatible.wait _ m) rfl (by simp [Op.run, Machine.sleep, Machine.wait])
  | compute n => exact .record trivial rfl (by simp)
  -- the two reads are inside the arguments, so they are answers and nothing else
  | arg i =>
    obtain ⟨v, hv⟩ := Machine.readArg_of_lt hop m
    show (m.readArg args i).ReadsSafely m
    rw [hv]
    exact .pure v
  | argAs i k =>
    obtain ⟨a, ha⟩ := Machine.readArgAs_of_kind hop m
    show (m.readArgAs args i k).ReadsSafely m
    rw [ha]
    exact .pure a
  | check program params args' => exact m.check_readsSafely program params args'

/-- Code that reads within the kinds of its arguments, when handlers read safely. -/
theorem exec_readsSafely (hcalls : ∀ h m, (calls h m).ReadsSafely m) {code : Code}
    {args : List Value} (hcode : code.ReadsWithin (args.map Value.kind)) (m : Machine) :
    (code.exec calls args m).ReadsSafely m := by
  -- Induction over the tree. The main code of a program inside runs on arguments that passed the
  -- check, so their kinds are the parameters that its reads are within.
  induction code generalizing args m with
  | done a => exact .pure a
  | perform op next ih =>
    exact (op_readsSafely hcalls hcode.1 m).bind fun r m => ih r (hcode.2 r) m
  | enter main args' next ihm ihn => exact hcode.elim
  | execute program params main args' next ihm ihn =>
    have hmain (hk : args'.map Value.kind = params) (m : Machine) :
        (main.exec calls args' m).ReadsSafely m := by
      refine ihm ?_ m
      rw [hk]
      exact hcode.1
    exact (Machine.execute_readsSafely hmain m).bind fun _ m => ihn hcode.2 m

/-- Well-formed routines, nested however deep. They have no arguments to read. -/
theorem call_readsSafely {routines : Routines} (hr : routines.WellFormed) (depth : Nat)
    (h : Handler) (m : Machine) : (call routines depth h m).ReadsSafely m := by
  -- induction over the nesting that is left
  induction depth generalizing h m with
  | zero =>
    cases h with
    | exit => exact m.leave_readsSafely
    | routine slot => exact .halt (by simp) (by simp)
  | succ depth ih =>
    cases h with
    | exit => exact m.leave_readsSafely
    | routine slot => exact exec_readsSafely ih (hr slot) m

end Code

namespace Program

/-- **Reads are safe.** A well-formed program (`Program.WellFormed`) that is executed reads its
    arguments safely, and so do all programs below it, whatever the arguments are and whatever the
    machine and the well-formed routines bound on it. The bundled programs are well-formed. -/
theorem executed_readsSafely {routines : Code.Routines} (hr : routines.WellFormed) (depth : Nat)
    (args : List Value) (m : Machine) :
    (∀ p : Program, p.WellFormed →
      ((p.executed args .skip).run routines depth [] m).ReadsSafely m) ∧
    ∀ p ∈ bundled, p.WellFormed ∧
      ((p.executed args .skip).run routines depth [] m).ReadsSafely m := by
  have hall (p : Program) (hp : p.WellFormed) :
      ((p.executed args .skip).run routines depth [] m).ReadsSafely m := by
    have hcode : (p.executed args .skip).ReadsWithin [] := ⟨hp, trivial⟩
    exact Code.exec_readsSafely (Code.call_readsSafely hr depth) hcode m
  refine ⟨hall, fun p hp => ?_⟩
  have hwell := wellFormed_of_mem_bundled hp
  exact ⟨hwell, hall p hwell⟩

/-- A program whose own arguments pass calls a routine that executes another one on an integer in
    place of a truth value. No read fails, since the other program does not get to its read. -/
theorem nested_readsSafely :
    let inner : Program := ⟨"inner", [.bool], .perform (.argAs 0 .bool) fun _ => .skip⟩
    let outer : Program := ⟨"outer", [.i64, .bool], .perform (.argAs 1 .bool) fun _ =>
      .perform (.arg 0) fun _ => .perform (.syscall "Go") fun _ => .skip⟩
    let routines : Code.Routines := fun _ => inner.executed [.i64 1] .skip
    let m := (Machine.boot {}).after [.registered "Go" (.routine 0)]
    let r := (outer.executed [.i64 5, .bool true] .skip).run routines 1 [] m
    r.result = .error (.failed (.kindMismatch ⟨.bool, .i64⟩)) ∧ (∀ i, .misread i ∉ r.trace) ∧
      ((∃ program params args, r.HaltsIn m (Machine.check program params args)) ∨
        ∃ k, r.HaltsIn m (Machine.popAs k)) := by
  intro inner outer routines m r
  have hinner : inner.WellFormed := ⟨rfl, fun _ => trivial⟩
  have houter : outer.WellFormed :=
    ⟨rfl, fun _ => ⟨Nat.succ_pos 1, fun _ => ⟨trivial, fun _ => trivial⟩⟩⟩
  -- The routine passes an argument of the wrong kind. It is well-formed all the same.
  have hroutines : routines.WellFormed := fun _ => ⟨hinner, trivial⟩
  have hsafe : r.ReadsSafely m :=
    (executed_readsSafely hroutines 1 [.i64 5, .bool true] m).1 outer houter
  have hresult : r.result = .error (.failed (.kindMismatch ⟨.bool, .i64⟩)) := rfl
  exact ⟨hresult, hsafe.read, hsafe.mismatch _ hresult⟩

end Program

end StackMachine
