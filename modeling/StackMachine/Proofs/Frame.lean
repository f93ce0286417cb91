import StackMachine.Program.Bundled
import StackMachine.Proofs.Nesting

namespace StackMachine

/-!
# Values below the stack

Code that never meets an empty stack does not notice what lies below the stack that it began with:
it does the same on a stack with more values at its bottom, and leaves them where they are. Only the
depths that go into the log are larger.

That the stack is never found empty is a condition on the trace (`starved` is not in it). It is kept
by parts of a run, so each operation can be looked at by itself: a pop of a value that is there does
not reach the base.

* `Machine.onBase base m`, `Run.onBase base r` — a machine with more values below its stack, and a
  run on such a machine.
* `Code.run_onBase` — a run that never meets an empty stack is the same run over any base.
-/

/-! ### Definitions -/

/-- The event with its depth, if it has one, raised by `n`. -/
def Log.Event.raised (n : Nat) : Log.Event → Log.Event
  | .pushed v depth => .pushed v (depth + n)
  | .popped v depth => .popped v (depth + n)
  | .called name depth => .called name (depth + n)
  | .returned program depth => .returned program (depth + n)
  | e => e

@[inherit_doc Log.Event.raised]
def Action.raised (n : Nat) : Action → Action
  | .pushed v depth => .pushed v (depth + n)
  | .popped v depth => .popped v (depth + n)
  | .called name depth => .called name (depth + n)
  | .returned program depth => .returned program (depth + n)
  | a => a

/-- A raised action puts the raised event into the log. -/
theorem Action.event?_raised (n : Nat) (a : Action) :
    (a.raised n).event? = a.event?.map (Log.Event.raised n) := by
  cases a <;> rfl

/-- Lines do not tell depths, so a raised action prints the same. -/
theorem Action.line?_raised (n : Nat) (a : Action) : (a.raised n).line? = a.line? := by
  cases a <;> rfl

/-- A plain action tells no depth. -/
theorem Action.IsPlain.raised {a : Action} (h : a.IsPlain) (n : Nat) : a.raised n = a := by
  cases a <;> first | rfl | exact h.elim

/-- The machine with the values `base` below its stack, given top first. -/
def Machine.onBase (base : List Value) (m : Machine) : Machine :=
  { m with stack := .ofList (m.stack.values ++ base) }

/-- The run with the values `base` below the stack that it left, and the depths in its trace
    `raised`. -/
def Run.onBase {α : Type} (base : List Value) (r : Run α) : Run α :=
  ⟨r.result, r.machine.onBase base, r.trace.map (Action.raised base.length)⟩

variable {base : List Value}

/-- Unfolding lemma: the base lies below the values of the stack. -/
@[simp] theorem Machine.values_onBase (m : Machine) :
    (m.onBase base).stack.values = m.stack.values ++ base := rfl

/-- The stack is deeper by the length of the base. -/
theorem Machine.depth_onBase (m : Machine) : (m.onBase base).depth = m.depth + base.length := by
  rw [depth_eq, depth_eq, values_onBase, List.length_append]

/-- The log over a base has the same events, `raised`. -/
theorem Run.events_onBase {α : Type} (r : Run α) :
    (r.onBase base).events = r.events.map (Log.Event.raised base.length) := by
  have h : (fun a : Action => (a.raised base.length).event?)
      = fun a => a.event?.map (Log.Event.raised base.length) :=
    funext (Action.event?_raised base.length)
  simp only [events, onBase, List.filterMap_map, List.map_filterMap, Function.comp_def, h]

/-- The lines over a base are the same. -/
theorem Run.output_onBase {α : Type} (r : Run α) : (r.onBase base).output = r.output := by
  simp only [output, onBase, List.filterMap_map, Function.comp_def, Action.line?_raised]

/-! ### Runs over a base

A relation between runners again: the second one runs over the base. An exit or a failure halts both
in the same way.
-/

/-- The second runner does over a base what the first one does without, unless that meets an empty
    stack: then the pop would take a value of the base. -/
def Frames (base : List Value) {α : Type} (f f' : Runner α) : Prop :=
  ∀ m, .starved ∉ (f m).trace → f' (m.onBase base) = (f m).onBase base

/-- What is done in turn frames part by part: no part meets an empty stack if the whole does not. -/
theorem Frames.bind {α β : Type} {f f' : Runner α} {g g' : α → Runner β} (hf : Frames base f f')
    (hg : ∀ a, Frames base (g a) (g' a)) :
    Frames base (fun m => (f m).bind g) (fun m => (f' m).bind g') := by
  intro m hs
  cases hr : (f m).result with
  | error h =>
    -- the first part is all there is, and it met no empty stack
    simp only [Run.bind_of_error hr] at hs ⊢
    have hr' : ((f m).onBase base).result = .error h := hr
    rw [hf m hs, Run.bind_of_error hr']
    rfl
  | ok a =>
    -- neither part met an empty stack
    simp only [Run.bind_of_ok hr, List.mem_append, not_or] at hs ⊢
    have hr' : ((f m).onBase base).result = .ok a := hr
    have hg' : g' a ((f m).onBase base).machine = (g a (f m).machine).onBase base := hg a _ hs.2
    rw [hf m hs.1, Run.bind_of_ok hr', hg']
    simp [Run.onBase]

/-- A pop that finds a value finds the same one over a base. -/
theorem Machine.frames_pop : Frames base pop pop := by
  intro m hs
  cases hv : m.stack.values with
  | nil => simp [pop_of_empty hv] at hs
  | cons v vs =>
    have hv' : (m.onBase base).stack.values = v :: (vs ++ base) := by simp [hv]
    rw [pop_of_cons hv, pop_of_cons hv']
    simp [Run.onBase, onBase, Action.raised]

/-- A `drain` always meets the empty stack. -/
theorem Machine.starved_mem_drainActions (depth : Nat) (vs : List Value) :
    .starved ∈ drainActions depth vs := by
  induction vs generalizing depth with
  | nil => simp [drainActions]
  | cons v vs ih => simp [drainActions, ih]

/-- The built-in exit takes one value, and says the same time over a base. -/
theorem Machine.frames_invokeExit : Frames base invokeExit invokeExit := by
  intro m hs
  rw [invokeExit_eq, invokeExit_eq]
  rcases hv : m.stack.values with _ | ⟨n | b, vs⟩
  · simp [invokeExit_eq, leave_of_empty hv] at hs
  · have hv' : (m.onBase base).stack.values = .i64 n :: (vs ++ base) := by simp [hv]
    rw [leave_of_i64 hv, leave_of_i64 hv']
    simp [Run.onBase, onBase, Action.raised]
  · have hv' : (m.onBase base).stack.values = .bool b :: (vs ++ base) := by simp [hv]
    rw [leave_of_bool hv, leave_of_bool hv']
    simp [Run.onBase, onBase, Action.raised]

/-- A syscall looks at the table and the policy only, and tells the depth. -/
theorem Machine.frames_syscall {calls calls' : Calls}
    (hc : ∀ h, Frames base (invoke calls h) (invoke calls' h)) (name : String) :
    Frames base (syscall calls name) (syscall calls' name) := by
  intro m hs
  -- what a syscall looks at is the same over a base
  have ht : (m.onBase base).table = m.table := rfl
  have hp : (m.onBase base).config = m.config := rfl
  unfold syscall at hs ⊢
  rw [ht, hp]
  cases hh : m.table.get name with
  | some h =>
    simp only [hh] at hs
    have hr : Frames base (fun m => m.record (.called name m.depth))
        fun m => m.record (.called name m.depth) := by
      intro m _
      simp [record, Run.onBase, Action.raised, depth_onBase]
    exact hr.bind (fun _ => hc h) m hs
  | none =>
    cases m.config.unknownSyscall <;> rfl

/-- `Frames` is kept by everything that a machine does, whatever the code can ask for. -/
theorem frames_compatible (base : List Value) : Compatible (fun _ => True) (Frames base) where
  pure _ _ _ := rfl
  bind := .bind
  halt _ _ _ _ _ := rfl
  record a ha m _ := by simp [Machine.record, Run.onBase, ha.raised]
  returned _ m _ := by simp [Machine.record, Run.onBase, Action.raised, Machine.depth_onBase]
  push v m _ := by
    have hd : m.depth + base.length + 1 = m.depth + 1 + base.length := by omega
    simp only [Machine.push, Run.onBase, Machine.depth_onBase, hd]
    rfl
  pop := Machine.frames_pop
  -- a stack is drained until it is found empty
  drain m hs := absurd (Machine.starved_mem_drainActions _ _) hs
  register _ _ _ _ _ := rfl
  lookup _ _ _ := rfl
  wait _ _ _ := rfl
  syscall hc name _ := Machine.frames_syscall hc name
  invokeExit := Machine.frames_invokeExit

/-- A run of code that never meets an empty stack is the same run over any base, see
    `Run.onBase`. -/
theorem Code.run_onBase {routines : Routines} {depth : Nat} {code : Code} {args : List Value}
    {m : Machine} (base : List Value)
    (hs : .starved ∉ (code.run routines depth args m).trace) :
    code.run routines depth args (m.onBase base) = (code.run routines depth args m).onBase base :=
  (frames_compatible base).run (fun _ => all_true _) code.all_true depth args m hs

/-- **Frame rule of the stack.** Code that `Ends` with a run in which no pop meets an empty stack
    (no `starved` in the trace) ends in the same way when there are more values below the stack. It
    prints the same lines, leaves the same table and configuration and the values below untouched,
    and logs the same events with their depths `raised`. -/
theorem Code.Ends.over_base {routines : Routines} {code : Code} {args : List Value} {m : Machine}
    {r : Run Answer} (base : List Value) (h : code.Ends routines args m r)
    (hs : .starved ∉ r.trace) :
    ∃ r', code.Ends routines args (m.onBase base) r' ∧
      r'.result = r.result ∧ r'.output = r.output ∧
      r'.machine.table = r.machine.table ∧ r'.machine.config = r.machine.config ∧
      r'.machine.stack.values = r.machine.stack.values ++ base ∧
      r'.events = r.events.map (Log.Event.raised base.length) := by
  obtain ⟨depth, rfl, hd⟩ := h
  have hr := run_onBase base hs
  exact ⟨_, ⟨depth, hr, hd⟩, rfl, Run.output_onBase _, rfl, rfl, rfl, Run.events_onBase _⟩

/-- A sum offered as exit code, above a truth value that nobody looks at. -/
theorem Program.addExit_over_base :
    ∃ r', addExit.main.Ends Code.noRoutines [.i64 40, .i64 2]
        ((Machine.boot {}).onBase [.bool true]) r' ∧
      r'.result = .error (.exited 42) ∧ r'.machine.stack.values = [.bool true] := by
  have hr : (addExit.main.run Code.noRoutines 0 [.i64 40, .i64 2] (Machine.boot {})).result
      = .error (.exited 42) := rfl
  obtain ⟨r', he, hr', _, _, _, hv, _⟩ :=
    Code.Ends.over_base [.bool true] ⟨0, rfl, by rw [hr]; simp⟩ (by decide +kernel)
  exact ⟨r', he, hr'.trans hr, hv⟩

end StackMachine
