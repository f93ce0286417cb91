import Mathlib.Order.Bounds.Basic
import StackMachine.Code.Exec
import StackMachine.Program.Basic

namespace StackMachine

/-!
# Execution

To execute a program is to check its arguments and then to run its code. The check tells all there
is to tell about the kinds of the arguments; where it fails nothing else happens, and where it does
not the run is that of the code between two events.

* `checkArguments_eq_ok_iff`, `checkArguments_eq_error_iff` — what passes the check, and what is
  reported of the rest.
* `Machine.execute_of_error`, `Machine.execute_of_ok` — the run, by the outcome of the check.
* `Machine.execute_exactly` — both together, for code of every description.
-/

/-! ### The first place

Places are natural numbers, and the first one of a kind is the least member of a set. With something
put in front of both lists, all places move up by one.
-/

/-- A set that contains zero has it as its least member. -/
theorem isLeast_zero_iff {s : Set Nat} (h : 0 ∈ s) {i : Nat} : IsLeast s i ↔ i = 0 := by
  constructor
  · intro hi
    exact Nat.le_zero.1 (hi.2 h)
  · rintro rfl
    exact ⟨h, fun j _ => Nat.zero_le j⟩

/-- Without zero in it, a set has its least member one above that of the set moved down by one. -/
theorem isLeast_succ_iff {s : Set Nat} (h : 0 ∉ s) {i : Nat} :
    IsLeast s (i + 1) ↔ IsLeast {i | i + 1 ∈ s} i := by
  constructor
  · intro hi
    exact ⟨hi.1, fun j hj => Nat.le_of_succ_le_succ (hi.2 hj)⟩
  · intro hi
    refine ⟨hi.1, fun j hj => ?_⟩
    cases j with
    | zero => exact absurd hj h
    | succ j => exact Nat.succ_le_succ (hi.2 hj)

/-! ### The check -/

/-- The places where an argument is not of its parameter's kind, or where there is only one of the
    two. -/
def mismatches (params : List Kind) (args : List Value) : Set Nat :=
  {i | (args.map Value.kind)[i]? ≠ params[i]?}

section

variable {program : String} {params : List Kind} {args : List Value}

/-- A mismatch is reported of the first argument that is not of its parameter's kind: of the least
    place in `mismatches`. -/
theorem firstMismatch?_eq_some_iff (hl : params.length = args.length) {e : KindMismatch} :
    firstMismatch? params args = some e ↔
      ∃ i : Nat, IsLeast (mismatches params args) i ∧
        params[i]? = some e.expected ∧ (args.map Value.kind)[i]? = some e.actual := by
  -- induction over both lists, which are of one length
  induction params generalizing args with
  | nil => simp [firstMismatch?]
  | cons k ks ih =>
    obtain ⟨v, vs, rfl⟩ := List.exists_cons_of_length_eq_add_one hl.symm
    by_cases hv : v.kind = k
    · have hzero : 0 ∉ mismatches (k :: ks) (v :: vs) := by simp [mismatches, hv]
      rw [firstMismatch?, if_pos hv, ih (Nat.succ.inj hl)]
      constructor
      · rintro ⟨i, hi, he, ha⟩
        exact ⟨i + 1, (isLeast_succ_iff hzero).2 hi, he, ha⟩
      · rintro ⟨i, hi, he, ha⟩
        cases i with
        | zero => exact absurd hi.1 hzero
        | succ i => exact ⟨i, (isLeast_succ_iff hzero).1 hi, he, ha⟩
    · have hzero : 0 ∈ mismatches (k :: ks) (v :: vs) := by simpa [mismatches] using hv
      rw [firstMismatch?, if_neg hv, Option.some.injEq]
      constructor
      · rintro rfl
        exact ⟨0, (isLeast_zero_iff hzero).2 rfl, rfl, rfl⟩
      · rintro ⟨i, hi, he, ha⟩
        obtain rfl := (isLeast_zero_iff hzero).1 hi
        obtain ⟨expected, actual⟩ := e
        cases he
        cases ha
        rfl

/-- No mismatch is reported exactly of arguments that have the kinds of the parameters. -/
theorem firstMismatch?_eq_none_iff (hl : params.length = args.length) :
    firstMismatch? params args = none ↔ args.map Value.kind = params := by
  induction params generalizing args with
  | nil =>
    obtain rfl := List.length_eq_zero_iff.1 hl.symm
    simp [firstMismatch?]
  | cons k ks ih =>
    obtain ⟨v, vs, rfl⟩ := List.exists_cons_of_length_eq_add_one hl.symm
    by_cases hv : v.kind = k
    · rw [firstMismatch?, if_pos hv, ih (Nat.succ.inj hl), List.map_cons, hv]
      simp
    · simp [firstMismatch?, hv]

/-- A wrong number of arguments is reported whatever their kinds. -/
theorem checkArguments_of_length_ne (hl : params.length ≠ args.length) :
    checkArguments program params args =
      .error (.arityMismatch program params.length args.length) := by
  rw [checkArguments, if_neg hl]

/-- Arguments pass the check if and only if they have the kinds of the parameters. -/
theorem checkArguments_eq_ok_iff :
    checkArguments program params args = .ok () ↔ args.map Value.kind = params := by
  by_cases hl : params.length = args.length
  · rw [checkArguments, if_pos hl, ← firstMismatch?_eq_none_iff hl]
    cases firstMismatch? params args with
    | none => simp
    | some e => simp
  · rw [checkArguments_of_length_ne hl]
    constructor
    · intro h
      cases h
    · rintro rfl
      exact absurd (List.length_map Value.kind) hl

/-- Of as many arguments as parameters the first of a wrong kind is reported. -/
theorem checkArguments_eq_error_iff (hl : params.length = args.length) {f : Failure} :
    checkArguments program params args = .error f ↔
      ∃ (i : Nat) (k : Kind) (v : Value), IsLeast (mismatches params args) i ∧
        params[i]? = some k ∧ args[i]? = some v ∧ f = .kindMismatch ⟨k, v.kind⟩ := by
  -- With the number out of the way, the check is `firstMismatch?`.
  have hcheck : checkArguments program params args = .error f ↔
      ∃ e, firstMismatch? params args = some e ∧ f = .kindMismatch e := by
    rw [checkArguments, if_pos hl]
    cases firstMismatch? params args with
    | none => simp
    | some e => simp [eq_comm]
  rw [hcheck]
  constructor
  · rintro ⟨e, he, rfl⟩
    obtain ⟨i, hi, hk, ha⟩ := (firstMismatch?_eq_some_iff hl).1 he
    obtain ⟨v, hv, hve⟩ : ∃ v, args[i]? = some v ∧ v.kind = e.actual := by simpa using ha
    exact ⟨i, e.expected, v, hi, hk, hv, by rw [hve]⟩
  · rintro ⟨i, k, v, hi, hk, hv, rfl⟩
    have ha : (args.map Value.kind)[i]? = some v.kind := by simp [hv]
    exact ⟨⟨k, v.kind⟩, (firstMismatch?_eq_some_iff hl).2 ⟨i, hi, hk, ha⟩, rfl⟩

end

/-! ### The run

There are two cases, by the outcome of the check, and each gives the whole run as one term. All that
the main result says is read off these two terms.
-/

namespace Machine

variable {program : String} {params : List Kind} {args : List Value}

/-- On arguments that do not pass, nothing is done. -/
theorem execute_of_error {f : Failure} (h : checkArguments program params args = .error f)
    (main : Machine → Run Answer) (m : Machine) :
    m.execute program params args main =
      ⟨.error (.failed f), m, [.declined program f]⟩ := by
  rw [execute, check, h]
  rfl

/-- On arguments that pass, the code runs between two events, of which the second is missing if it
    halts. -/
theorem execute_of_ok (h : checkArguments program params args = .ok ())
    (main : Machine → Run Answer) (m : Machine) :
    m.execute program params args main =
      ⟨(main m).result.map fun _ => (), (main m).machine,
        .entered program args.length :: (main m).trace ++
          match (main m).result with
          | .ok _ => [.returned program (main m).machine.depth]
          | .error _ => []⟩ := by
  rw [execute, check, h]
  show ((m.record _).bind fun _ m => (main m).bind _) = _
  cases hr : (main m).result with
  | ok a => simp [Run.bind, record, hr, Except.map]
  | error e => simp [Run.bind, record, hr, Except.map]

/-- The two events print nothing. -/
theorem output_execute_of_ok (h : checkArguments program params args = .ok ())
    (main : Machine → Run Answer) (m : Machine) :
    (m.execute program params args main).output = (main m).output := by
  rw [execute_of_ok h, Run.output, Run.output]
  cases (main m).result with
  | ok a => simp [List.filterMap_cons, Action.line?]
  | error e => simp [List.filterMap_cons, Action.line?]

/-- The log is that of the code, between the two events. -/
theorem events_execute_of_ok (h : checkArguments program params args = .ok ())
    (main : Machine → Run Answer) (m : Machine) :
    (m.execute program params args main).events =
      .entered program args.length :: (main m).events ++
        match (main m).result with
        | .ok _ => [.returned program (main m).machine.stack.values.length]
        | .error _ => [] := by
  rw [execute_of_ok h, Run.events, Run.events, ← depth_eq]
  cases (main m).result with
  | ok a => simp [Action.event?]
  | error e => simp [Action.event?]

/-- **Execution is the check and then the code.** The check passes exactly the arguments that have
    the kinds of the parameters. It reports a wrong number of arguments whatever their kinds, and
    otherwise the first argument of a wrong kind. If it fails, so does the execution, which has then
    changed, printed and logged nothing. If it does not, the execution ends as the code does on the
    same machine and arguments, with the same machine left and the same lines printed, and its log
    is that of the code behind an event for the start and, if the code did not halt, before one for
    the return. The code may be anything that runs on arguments and a machine; a program executed by
    other code (`Program.executed`) runs its own code this way. -/
theorem execute_exactly (program : String) (params : List Kind) (args : List Value)
    (main : List Value → Machine → Run Answer) (m : Machine) :
    let checked := checkArguments program params args
    let inner := main args m
    let r := m.execute program params args (main args)
    (checked = .ok () ↔ args.map Value.kind = params) ∧
    (params.length ≠ args.length →
      checked = .error (.arityMismatch program params.length args.length)) ∧
    (params.length = args.length → ∀ f, checked = .error f ↔
      ∃ (i : Nat) (k : Kind) (v : Value), IsLeast (mismatches params args) i ∧
        params[i]? = some k ∧ args[i]? = some v ∧ f = .kindMismatch ⟨k, v.kind⟩) ∧
    (∀ f, checked = .error f →
      r.result = .error (.failed f) ∧ r.machine = m ∧ r.output = [] ∧ r.events = []) ∧
    (checked = .ok () →
      r.result = inner.result.map (fun _ => ()) ∧ r.machine = inner.machine ∧
      r.output = inner.output ∧
      r.events = .entered program args.length :: inner.events ++
        match inner.result with
        | .ok _ => [.returned program inner.machine.stack.values.length]
        | .error _ => []) ∧
    ∀ routines depth (p : Program) outer next,
      (p.executed args next).run routines depth outer m =
        (m.execute p.name p.params args (p.main.run routines depth args)).bind
          fun _ m => next.run routines depth outer m := by
  intro checked inner r
  refine ⟨checkArguments_eq_ok_iff, checkArguments_of_length_ne,
    fun hl f => checkArguments_eq_error_iff hl, fun f hf => ?_, fun hok => ?_, ?_⟩
  · have hr : r = ⟨.error (.failed f), m, [.declined program f]⟩ := execute_of_error hf _ m
    rw [hr]
    exact ⟨rfl, rfl, rfl, rfl⟩
  · have hr : r = ⟨_, _, _⟩ := execute_of_ok hok (main args) m
    refine ⟨?_, ?_, output_execute_of_ok hok _ m, events_execute_of_ok hok _ m⟩
    · rw [hr]
    · rw [hr]
  · intro routines depth p outer next
    rfl

/-- On a stack that is not empty, code that pushes a truth value and asks for an integer: on
    arguments that pass, its failure is that of the execution, and there is no return. Of two
    arguments of wrong kinds the first is reported, and of too few only their number. -/
theorem execute_exactly_failing :
    let m : Machine := { boot {} with stack := .ofList [.i64 5] }
    let code : Code := .perform (.push (.bool true)) fun _ =>
      .perform (.popAs .i64) fun _ => .skip
    let run (args : List Value) : Run Unit :=
      m.execute "p" [.i64, .bool] args (code.run Code.noRoutines 0 args)
    (run [.i64 1, .bool true]).result = .error (.failed (.kindMismatch ⟨.i64, .bool⟩)) ∧
      (run [.i64 1, .bool true]).events =
        [.entered "p" 2, .pushed (.bool true) 2, .popped (.bool true) 1] ∧
      ((run [.bool true, .i64 1]).result = .error (.failed (.kindMismatch ⟨.i64, .bool⟩)) ∧
        (run [.bool true, .i64 1]).events = []) ∧
      (run [.i64 1]).result = .error (.failed (.arityMismatch "p" 2 1)) := by
  intro m code run
  have hexec (args : List Value) :=
    execute_exactly "p" [.i64, .bool] args (code.run Code.noRoutines 0) m
  refine ⟨?_, ?_, ?_, ?_⟩
  · obtain ⟨-, -, -, -, hok, -⟩ := hexec [.i64 1, .bool true]
    exact (hok rfl).1
  · obtain ⟨-, -, -, -, hok, -⟩ := hexec [.i64 1, .bool true]
    exact (hok rfl).2.2.2
  · obtain ⟨-, -, hkinds, hfail, -⟩ := hexec [.bool true, .i64 1]
    -- The first argument has the wrong kind, so no later one can be the least.
    have hzero : 0 ∈ mismatches [.i64, .bool] [.bool true, .i64 1] := by
      simp [mismatches, Value.kind]
    have hfirst := (isLeast_zero_iff hzero).2 rfl
    obtain ⟨hresult, -, -, hevents⟩ :=
      hfail _ ((hkinds rfl _).2 ⟨0, .i64, .bool true, hfirst, rfl, rfl, rfl⟩)
    exact ⟨hresult, hevents⟩
  · obtain ⟨-, hnumber, -, hfail, -⟩ := hexec [.i64 1]
    exact (hfail _ (hnumber (by decide))).1

end Machine

end StackMachine
