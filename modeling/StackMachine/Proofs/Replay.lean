import StackMachine.Proofs.Runner

namespace StackMachine

/-!
# Replaying a trace

Everything that a run does to its machine is in its trace, so the machine at any point of the run
is the one that the trace up to there makes of the machine at the start.

* `Action.effect`, `Action.Fits` — what an action makes of a machine, and when what it says of the
  machine is so.
* `Machine.after m t`, `Machine.Admits m t` — the same for a whole trace.
* `Run.Faithful m r` — `r` left the machine that its trace makes of `m`, and every action of it
  says what was so when it was done.
* `Code.run_faithful` — runs of code are faithful, however they end.
-/

/-! ### Actions

An action carries what it needs to be done again. What else it says of the machine, such as a depth,
is no part of its effect but has to fit.
-/

/-- What an action makes of a machine. Most actions change nothing. -/
def Action.effect : Action → Machine → Machine
  | .pushed v _, m => { m with stack := m.stack.push v }
  | .popped _ _, m => { m with stack := .ofList m.stack.values.tail }
  | .registered name h, m => { m with table := m.table.register name h }
  | .slept nanos, m => { m with elapsed := m.elapsed + nanos }
  | _, m => m

/-- What an action says of the machine on which it is done is so, e.g. that the value popped was on
    top. -/
def Action.Fits : Action → Machine → Prop
  | .pushed _ depth, m => depth = m.depth + 1
  | .popped v depth, m => m.stack.top? = some v ∧ depth + 1 = m.depth
  | .starved, m => m.stack.values = []
  | .called name depth, m => m.table.contains name ∧ depth = m.depth
  | .ignored name, m => m.table.get name = none ∧ m.config.unknownSyscall = .ignore
  | .rejected name, m => m.table.get name = none ∧ m.config.unknownSyscall = .reject
  | .wrote (.report elapsed), m => elapsed = m.elapsed
  | .exiting _ elapsed, m => elapsed = m.elapsed
  | .returned _ depth, m => depth = m.depth
  | _, _ => True

namespace Machine

/-- The machine after the actions of a trace, each with its `Action.effect`. -/
def after (m : Machine) (t : List Action) : Machine := t.foldl (fun m a => a.effect m) m

/-- The actions of a trace can be done on a machine in turn: each one `Fits` where its turn
    comes. -/
def Admits (m : Machine) : List Action → Prop
  | [] => True
  | a :: t => a.Fits m ∧ (a.effect m).Admits t

/-- Unfolding lemma: no action, no change. -/
@[simp] theorem after_nil (m : Machine) : m.after [] = m := rfl

/-- Unfolding lemma: the first action has its effect first. -/
@[simp] theorem after_cons (m : Machine) (a : Action) (t : List Action) :
    m.after (a :: t) = (a.effect m).after t := rfl

/-- A trace in two parts is replayed part by part. -/
theorem after_append (m : Machine) (t t' : List Action) :
    m.after (t ++ t') = (m.after t).after t' := List.foldl_append

/-- A trace in two parts is admitted part by part, the second part by the machine that the first one
    leaves. -/
theorem admits_append {m : Machine} {t t' : List Action} :
    m.Admits (t ++ t') ↔ m.Admits t ∧ (m.after t).Admits t' := by
  induction t generalizing m with
  | nil => simp [Admits]
  | cons a t ih => simp [Admits, ih, and_assoc]

/-- The configuration is not touched by any action. -/
@[simp] theorem config_effect (a : Action) (m : Machine) : (a.effect m).config = m.config := by
  cases a <;> rfl

/-- A trace does not touch the configuration, since no action does. -/
@[simp] theorem config_after (m : Machine) (t : List Action) : (m.after t).config = m.config := by
  induction t generalizing m with
  | nil => rfl
  | cons a t ih => rw [after_cons, ih, config_effect]

end Machine

/-- What is not in the first part of a trace is in the second. -/
theorem exists_append_of_not_mem {α : Type} {x : α} {t t' u v : List α}
    (h : t ++ t' = u ++ x :: v) (hx : x ∉ t) : ∃ w, u = t ++ w ∧ t' = w ++ x :: v := by
  rcases List.append_eq_append_iff.1 h with ⟨w, hu, ht'⟩ | ⟨w, rfl, hw⟩
  · exact ⟨w, hu, ht'⟩
  · cases w with
    | nil => exact ⟨[], by simp, by simpa using hw.symm⟩
    | cons y w =>
      -- the first part would reach beyond `x`
      obtain ⟨rfl, -⟩ := List.cons.inj hw
      exact absurd (by simp) hx

/-! ### Runs

Faithfulness is what most other invariants begin with, as it turns statements about machines into
statements about traces.
-/

/-- A run that began on `m` left the machine that its trace makes of `m`, and its actions say what
    was so. -/
structure Run.Faithful {α : Type} (m : Machine) (r : Run α) : Prop where
  /-- Nothing was done that is not in the trace. -/
  machine_eq : r.machine = m.after r.trace
  /-- Nothing is in the trace that was not so. -/
  admits : m.Admits r.trace

namespace Run.Faithful

variable {α β : Type} {m : Machine}

theorem pure (a : α) : (Run.pure a m).Faithful m := ⟨rfl, trivial⟩

theorem halt (h : Halt) : (Run.halt h m : Run α).Faithful m := ⟨rfl, trivial⟩

/-- An action that fits and changes nothing is recorded faithfully. -/
theorem record {a : Action} (hf : a.Fits m) (he : a.effect m = m) : (m.record a).Faithful m :=
  ⟨he.symm, hf, trivial⟩

/-- **Sequencing.** Faithful runs in turn are faithful: the second one begins where the trace of the
    first one leads. -/
theorem bind {r : Run α} {next : α → Runner β} (hr : r.Faithful m)
    (hn : ∀ a m, (next a m).Faithful m) : (r.bind next).Faithful m := by
  cases h : r.result with
  | error e =>
    rw [Run.bind_of_error h]
    exact ⟨hr.machine_eq, hr.admits⟩
  | ok a =>
    have hn' := hn a r.machine
    rw [Run.bind_of_ok h]
    constructor
    · show (next a r.machine).machine = m.after (r.trace ++ (next a r.machine).trace)
      rw [Machine.after_append, ← hr.machine_eq, ← hn'.machine_eq]
    · -- the second trace begins on the machine that the first one left
      have hadm : (m.after r.trace).Admits (next a r.machine).trace :=
        hr.machine_eq ▸ hn'.admits
      exact Machine.admits_append.2 ⟨hr.admits, hadm⟩

/-- The machine at a point of a faithful run, and what the action done there says of it. -/
theorem fits {r : Run α} (h : r.Faithful m) {t t' : List Action} {a : Action}
    (ht : r.trace = t ++ a :: t') : a.Fits (m.after t) := by
  have ha : m.Admits (t ++ a :: t') := ht ▸ h.admits
  exact (Machine.admits_append.1 ha).2.1

end Run.Faithful

/-! ### The operations of a machine

A pop, a drain and the exit are looked at here; all others record one action that fits, and are
fields of `faithful_compatible`.
-/

namespace Machine

/-- A pop says what was on top and how deep the stack is without it, or that there was nothing. -/
theorem pop_faithful (m : Machine) : m.pop.Faithful m := by
  cases hs : m.stack.values with
  | nil =>
    rw [pop_of_empty hs]
    exact ⟨rfl, hs, trivial⟩
  | cons v vs =>
    have hd : m.depth = vs.length + 1 := by simp [depth_eq, hs]
    have ht : m.stack.top? = some v := by simp [Stack.top?, hs]
    rw [pop_of_cons hs]
    exact ⟨by simp [Action.effect, hs], ⟨ht, hd.symm⟩, trivial⟩

/-- The actions of a `drain` take every value off the stack, the top first, and find it empty at
    last. -/
private theorem drainActions_admits (vs : List Value) (m : Machine) (h : m.stack.values = vs) :
    m.Admits (drainActions m.depth vs) ∧
      m.after (drainActions m.depth vs) = { m with stack := .empty } := by
  -- induction over the values, with the machine that has them on its stack
  induction vs generalizing m with
  | nil =>
    have hs : m.stack = .empty := Stack.ext h
    exact ⟨⟨h, trivial⟩, by simp [drainActions, Action.effect, ← hs]⟩
  | cons v vs ih =>
    have hd : m.depth = vs.length + 1 := by simp [depth_eq, h]
    let m' : Machine := { m with stack := .ofList vs }
    have he : (Action.popped v (m.depth - 1)).effect m = m' := by simp [Action.effect, h, m']
    have hd' : m'.depth = m.depth - 1 := by rw [hd]; rfl
    obtain ⟨ha, hm⟩ := ih m' rfl
    rw [hd'] at ha hm
    constructor
    · have ht : m.stack.top? = some v := by simp [Stack.top?, h]
      have hfit : (Action.popped v (m.depth - 1)).Fits m := ⟨ht, by omega⟩
      rw [← he] at ha
      exact ⟨hfit, ha⟩
    · rw [drainActions, after_cons, he, hm]

/-- A `drain` is faithful, by `drainActions_admits`. -/
theorem drain_faithful (m : Machine) : m.drain.Faithful m :=
  have h := drainActions_admits m.stack.values m rfl
  ⟨h.2.symm, h.1⟩

/-- A typed pop takes the value off even if it is of the wrong kind. -/
theorem popAs_faithful (k : Kind) (m : Machine) : (m.popAs k).Faithful m := by
  refine m.pop_faithful.bind fun v m => ?_
  cases v.get k with
  | ok a => exact .pure a
  | error e => exact .halt _

/-- The built-in exit pops, and then says how long the machine has run. -/
theorem leave_faithful {α : Type} (m : Machine) : (m.leave : Run α).Faithful m := by
  refine (m.popAs_faithful .i64).bind fun code m => ?_
  have he : (m.record (.exiting code m.elapsed)).Faithful m := .record rfl rfl
  refine he.bind fun _ m => ?_
  have hw : (m.record (.wrote (.report m.elapsed))).Faithful m := .record rfl rfl
  exact hw.bind fun _ _ => .halt _

/-- A syscall says whether the name is bound, and if it is not, what the policy is. Its handler is
    faithful by assumption. -/
theorem syscall_faithful {calls : Calls} (hc : ∀ h m, (invoke calls h m).Faithful m)
    (name : String) (m : Machine) : (m.syscall calls name).Faithful m := by
  unfold syscall
  cases ht : m.table.get name with
  | some h =>
    have hb : m.table.contains name := by simp [Table.contains, ht]
    have hr : (m.record (.called name m.depth)).Faithful m := .record ⟨hb, rfl⟩ rfl
    exact hr.bind fun _ m => hc h m
  | none =>
    cases hp : m.config.unknownSyscall with
    | reject =>
      have hr : (m.record (.rejected name)).Faithful m := .record ⟨ht, hp⟩ rfl
      exact hr.bind fun _ _ => .halt _
    | ignore => exact .record ⟨ht, hp⟩ rfl

/-- The built-in exit is faithful from the moment when it begins to run. -/
theorem invokeExit_faithful (m : Machine) : m.invokeExit.Faithful m := by
  have hr : (m.record (.invoked .exit)).Faithful m := .record trivial rfl
  exact hr.bind fun _ => leave_faithful

end Machine

/-- A plain action fits every machine and changes none. -/
theorem Action.IsPlain.fits {a : Action} (h : a.IsPlain) (m : Machine) :
    a.Fits m ∧ a.effect m = m := by
  cases a with
  | wrote l => cases l with
    | text s => exact ⟨trivial, rfl⟩
    | report e => exact h.elim
  | _ => first | exact h.elim | exact ⟨trivial, rfl⟩

/-- `Faithful` is kept by everything that a machine does, whatever the code can ask for. It is a
    property of one runner, so the second one is not looked at. -/
theorem faithful_compatible :
    Compatible (fun _ => True) fun f _ => ∀ m, (f m).Faithful m where
  pure a _ := .pure a
  bind hf hg m := (hf m).bind hg
  halt h _ _ _ := .halt h
  record _ ha m := .record (ha.fits m).1 (ha.fits m).2
  returned _ _ := .record rfl rfl
  push _ _ := ⟨rfl, rfl, trivial⟩
  pop := Machine.pop_faithful
  drain := Machine.drain_faithful
  register _ _ _ _ := ⟨rfl, trivial, trivial⟩
  lookup _ _ := .pure _
  wait _ _ := ⟨rfl, trivial, trivial⟩
  syscall hc name _ := Machine.syscall_faithful hc name
  invokeExit := Machine.invokeExit_faithful

/-- **Replay.** Every run of code is `Faithful`, however it ends and wherever it is cut off. -/
theorem Code.run_faithful (routines : Code.Routines) (depth : Nat) (code : Code)
    (args : List Value) (m : Machine) : (code.run routines depth args m).Faithful m :=
  faithful_compatible.run (fun _ => Code.all_true _) code.all_true depth args m

end StackMachine
