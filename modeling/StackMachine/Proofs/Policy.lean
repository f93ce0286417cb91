import StackMachine.Proofs.Replay

namespace StackMachine

/-!
# Runs under different configurations

A running machine looks at its configuration only when a syscall finds its name unbound. Two
machines that differ in the configuration alone therefore run in step until that happens, and beyond
it when both configurations have the same policy.

* `Machine.withConfig c m`, `Run.withConfig c r` — another configuration in the place of the own
  one.
* `Run.Agrees c' r r'` — `r'` is `r` under the configuration `c'`, or it fails where `r` passes over
  an unbound name for the first time.
* `Run.InStep c c' r r'` — the same with what the induction needs besides.
* `Code.run_inStep` — runs of one piece of code are in step.
-/

/-! ### Definitions -/

/-- The machine with another configuration. -/
def Machine.withConfig (c : Config) (m : Machine) : Machine := { m with config := c }

/-- The run with another configuration of the machine that it left. -/
def Run.withConfig {α : Type} (c : Config) (r : Run α) : Run α :=
  { r with machine := r.machine.withConfig c }

/-- No syscall of an unbound name is passed over. -/
def Unmissed (t : List Action) : Prop := ∀ name, .ignored name ∉ t

/-- The second run does the same as the first one, configuration apart. -/
structure Run.Alike {α : Type} (r r' : Run α) : Prop where
  result : r'.result = r.result
  stack : r'.machine.stack = r.machine.stack
  table : r'.machine.table = r.machine.table
  output : r'.output = r.output
  events : r'.events = r.events

/-- The run `r'` is the run `r` under the configuration `c'`: the whole of it, or, if `c'` rejects
    unbound names, what comes before the first one that `r` passes over. -/
inductive Run.Agrees {α : Type} (c' : Config) (r r' : Run α) : Prop where
  | same (hr : r' = r.withConfig c') (ht : c'.unknownSyscall = .reject → Unmissed r.trace)
  | missed (hc : c'.unknownSyscall = .reject) (name : String) (t t' : List Action)
      (hr : r.trace = t ++ .ignored name :: t') (ht : Unmissed t)
      (hres : r'.result = .error (.failed (.unknownSyscall name)))
      (htr : r'.trace = t ++ [.rejected name])

variable {c c' : Config}

namespace Unmissed

/-- Nothing is passed over in an empty trace. -/
theorem nil : Unmissed [] := fun _ => List.not_mem_nil

/-- Two traces put together miss no name if neither does. -/
theorem append {t t' : List Action} (h : Unmissed t) (h' : Unmissed t') : Unmissed (t ++ t') :=
  fun name hm => (List.mem_append.1 hm).elim (h name) (h' name)

/-- An action that is not `ignored` misses no name. -/
theorem singleton {a : Action} (h : ∀ name, a ≠ .ignored name) : Unmissed [a] :=
  fun name hm => h name (List.mem_singleton.1 hm).symm

/-- The first miss of a trace is one only: everything before it is the same in two descriptions. -/
theorem eq_of_append {t u t' u' : List Action} {name name' : String} (ht : Unmissed t)
    (hu : Unmissed u) (h : t ++ .ignored name :: t' = u ++ .ignored name' :: u') :
    t = u ∧ name = name' := by
  obtain ⟨s, rfl, hs⟩ := exists_append_of_not_mem h.symm (hu name)
  cases s with
  | nil => exact ⟨by simp, by simpa using (List.cons.inj hs).1.symm⟩
  | cons a s =>
    -- the part before the second miss would hold the first one
    obtain ⟨rfl, -⟩ := List.cons.inj hs
    exact absurd (by simp) (ht name')

end Unmissed

/-! ### Runs in step

`InStep` has more in it than the result needs: that the configuration stays, and that no failure
blames a name that is passed over. Without these, runs in turn would not stay in step.
-/

/-- What is kept of a run on a machine with configuration `c` and one with `c'`: the configuration
    does not change, no failure blames an unbound name that `c` lets pass, and the runs `Agrees`. -/
structure Run.InStep {α : Type} (c c' : Config) (r r' : Run α) : Prop where
  config : r.machine.config = c
  known : c.unknownSyscall = .ignore → ∀ name, r.result ≠ .error (.failed (.unknownSyscall name))
  agrees : r.Agrees c' r'

namespace Run.InStep

variable {α β : Type}

/-- Runs that do the same and pass over nothing are in step. -/
theorem same {r r' : Run α} (hc : r.machine.config = c) (hr : r' = r.withConfig c')
    (ht : Unmissed r.trace) (hu : ∀ name, r.result ≠ .error (.failed (.unknownSyscall name))) :
    r.InStep c c' r' :=
  ⟨hc, fun _ => hu, .same hr fun _ => ht⟩

/-- **Sequencing.** Runs in step, in turn, are in step. If the second side has stopped at a miss of
    the first part, it stays there whatever the first side goes on to do. -/
theorem bind {r r' : Run α} {g g' : α → Runner β} (h : r.InStep c c' r')
    (hg : ∀ a m, m.config = c → (g a m).InStep c c' (g' a (m.withConfig c'))) :
    (r.bind g).InStep c c' (r'.bind g') := by
  cases hr : r.result with
  | error e =>
    refine ⟨by simpa [Run.bind_of_error hr] using h.config, fun hp => ?_, ?_⟩
    · simpa [Run.bind_of_error hr, hr] using h.known hp
    · cases h.agrees with
      | same hs ht =>
        -- both runs halt in the first part
        subst hs
        have hr' : (r.withConfig c').result = .error e := hr
        rw [Run.bind_of_error hr, Run.bind_of_error hr']
        exact .same rfl ht
      | missed hc name t t' htr hm hres htr' =>
        rw [Run.bind_of_error hr, Run.bind_of_error hres]
        exact .missed hc name t t' htr hm rfl htr'
  | ok a =>
    have ha := hg a r.machine h.config
    refine ⟨by simpa [Run.bind_of_ok hr] using ha.config, fun hp => ?_, ?_⟩
    · simpa [Run.bind_of_ok hr] using ha.known hp
    · cases h.agrees with
      | missed hc name t t' htr hm hres htr' =>
        -- the second run stopped in the first part already
        rw [Run.bind_of_ok hr, Run.bind_of_error hres]
        exact .missed hc name t (t' ++ (g a r.machine).trace) (by simp [htr]) hm rfl htr'
      | same hs ht =>
        subst hs
        have hr' : (r.withConfig c').result = .ok a := hr
        rw [Run.bind_of_ok hr, Run.bind_of_ok hr']
        cases ha.agrees with
        | same hs' ht' =>
          refine .same ?_ fun hp => (ht hp).append (ht' hp)
          have hm : (r.withConfig c').machine = r.machine.withConfig c' := rfl
          rw [hm, hs']
          rfl
        | missed hc name t t' htr hm hres htr' =>
          -- the first part has passed over nothing, so the first miss is in the second one
          exact .missed hc name (r.trace ++ t) t' (by simp [htr]) ((ht hc).append hm) hres
            (by simp only [List.append_assoc, ← htr']; rfl)

end Run.InStep

namespace Machine

variable {m : Machine}

/-- A pop does not look at the configuration. -/
theorem pop_inStep (hm : m.config = c) : m.pop.InStep c c' (m.withConfig c').pop := by
  cases hs : m.stack.values with
  | nil =>
    have hs' : (m.withConfig c').stack.values = [] := hs
    rw [pop_of_empty hs, pop_of_empty hs']
    exact .same hm rfl (.singleton (by simp)) (by simp)
  | cons v vs =>
    have hs' : (m.withConfig c').stack.values = v :: vs := hs
    rw [pop_of_cons hs, pop_of_cons hs']
    exact .same hm rfl (.singleton (by simp)) (by simp)

/-- A `drain` only pops. -/
theorem unmissed_drainActions (depth : Nat) (vs : List Value) :
    Unmissed (drainActions depth vs) := by
  induction vs generalizing depth with
  | nil => exact .singleton (by simp)
  | cons v vs ih => exact Unmissed.append (.singleton (by simp)) (ih (depth - 1))

/-- The built-in exit does not look at the configuration either. -/
theorem invokeExit_inStep (hm : m.config = c) :
    m.invokeExit.InStep c c' (m.withConfig c').invokeExit := by
  rw [invokeExit_eq, invokeExit_eq]
  rcases hs : m.stack.values with _ | ⟨n | b, vs⟩
  · have hs' : (m.withConfig c').stack.values = [] := hs
    rw [leave_of_empty hs, leave_of_empty hs']
    exact .same hm rfl (by simp [Unmissed]) (by simp)
  · have hs' : (m.withConfig c').stack.values = .i64 n :: vs := hs
    rw [leave_of_i64 hs, leave_of_i64 hs']
    exact .same hm rfl (by simp [Unmissed]) (by simp)
  · have hs' : (m.withConfig c').stack.values = .bool b :: vs := hs
    rw [leave_of_bool hs, leave_of_bool hs']
    exact .same hm rfl (by simp [Unmissed]) (by simp)

/-- A machine that passes over unbound names goes on as if nothing had been asked. -/
theorem syscall_of_ignored {calls : Calls} {name : String} (ht : m.table.get name = none)
    (hp : m.config.unknownSyscall = .ignore) : m.syscall calls name = m.record (.ignored name) := by
  simp [syscall, ht, hp]

/-- A machine that rejects unbound names fails at one, with nothing changed. -/
theorem syscall_of_rejected {calls : Calls} {name : String} (ht : m.table.get name = none)
    (hp : m.config.unknownSyscall = .reject) :
    m.syscall calls name = ⟨.error (.failed (.unknownSyscall name)), m, [.rejected name]⟩ := by
  simp only [syscall, ht, hp]
  rfl

/-- A bound name is called under every configuration. -/
theorem syscall_of_bound {calls : Calls} {name : String} {h : Handler}
    (ht : m.table.get name = some h) :
    m.syscall calls name = (m.record (.called name m.depth)).bind fun _ m => m.invoke calls h := by
  simp [syscall, ht]

/-- A syscall is where the sides may part: at an unbound name, if the first one passes over it and
    the second one rejects it. -/
theorem syscall_inStep {calls calls' : Calls}
    (hcc : c.unknownSyscall = c'.unknownSyscall ∨
      c.unknownSyscall = .ignore ∧ c'.unknownSyscall = .reject)
    (hi : ∀ h m, m.config = c →
      (invoke calls h m).InStep c c' (invoke calls' h (m.withConfig c')))
    (name : String) (hm : m.config = c) :
    (m.syscall calls name).InStep c c' ((m.withConfig c').syscall calls' name) := by
  cases ht : m.table.get name with
  | some h =>
    have ht' : (m.withConfig c').table.get name = some h := ht
    have hr : (m.record (.called name m.depth)).InStep c c'
        ((m.withConfig c').record (.called name m.depth)) :=
      .same hm rfl (.singleton (by simp)) (by simp [record])
    rw [syscall_of_bound ht, syscall_of_bound ht']
    exact hr.bind fun _ => hi h
  | none =>
    have ht' : (m.withConfig c').table.get name = none := ht
    -- here alone the configurations are looked at
    cases hp : c.unknownSyscall <;> cases hp' : c'.unknownSyscall
    case reject.reject =>
      rw [syscall_of_rejected ht (hm ▸ hp), syscall_of_rejected ht' hp']
      exact ⟨hm, by simp [hp], .same rfl fun _ => .singleton (by simp)⟩
    case ignore.ignore =>
      rw [syscall_of_ignored ht (hm ▸ hp), syscall_of_ignored ht' hp']
      exact ⟨hm, by simp [record], .same rfl (by simp [hp'])⟩
    case ignore.reject =>
      rw [syscall_of_ignored ht (hm ▸ hp), syscall_of_rejected ht' hp']
      exact ⟨hm, by simp [record], .missed hp' name [] [] rfl .nil rfl rfl⟩
    case reject.ignore => simp [hp, hp'] at hcc

end Machine

/-- A plain action is no miss. -/
theorem Action.IsPlain.ne_ignored {a : Action} (h : a.IsPlain) (name : String) :
    a ≠ .ignored name := by
  rintro rfl
  exact h

/-- `InStep` is kept by everything that a machine does, whatever the code can ask for, if the
    policies are the same or the first one is the one of passing over. -/
theorem inStep_compatible
    (hcc : c.unknownSyscall = c'.unknownSyscall ∨
      c.unknownSyscall = .ignore ∧ c'.unknownSyscall = .reject) :
    Compatible (fun _ => True) fun f f' => ∀ m, m.config = c →
      (f m).InStep c c' (f' (m.withConfig c')) where
  pure _ _ hm := .same hm rfl .nil (by simp [Run.pure])
  bind hf hg m hm := (hf m hm).bind hg
  halt _ _ hu _ hm := .same hm rfl .nil (by simpa [Run.halt] using hu)
  record _ ha _ hm := .same hm rfl (.singleton ha.ne_ignored) (by simp [Machine.record])
  returned _ _ hm := .same hm rfl (.singleton (by simp)) (by simp [Machine.record])
  push _ _ hm := .same hm rfl (.singleton (by simp)) (by simp [Machine.push])
  pop _ := Machine.pop_inStep
  drain _ hm := .same hm rfl (Machine.unmissed_drainActions _ _) (by simp [Machine.drain])
  register _ _ _ _ hm := .same hm rfl (.singleton (by simp)) (by simp [Machine.register])
  lookup _ _ hm := .same hm rfl .nil (by simp [Machine.lookup, Run.pure])
  wait _ _ hm := .same hm rfl (.singleton (by simp)) (by simp [Machine.wait])
  syscall hi name _ _ := Machine.syscall_inStep hcc hi name
  invokeExit _ := Machine.invokeExit_inStep

/-- Runs of code under two configurations are in step. -/
theorem Code.run_inStep
    (hcc : c.unknownSyscall = c'.unknownSyscall ∨
      c.unknownSyscall = .ignore ∧ c'.unknownSyscall = .reject)
    (routines : Routines) (depth : Nat) (code : Code) (args : List Value) (m : Machine) :
    (code.run routines depth args (m.withConfig c)).InStep c c'
      (code.run routines depth args (m.withConfig c')) :=
  (inStep_compatible hcc).run (fun _ => all_true _) code.all_true depth args (m.withConfig c) rfl

/-! ### What the configuration can change

Nothing in a trace depends on the configuration but the answer to a syscall that found its name
unbound.
-/

/-- A trace does the same to a machine with another configuration. -/
theorem Machine.after_withConfig (m : Machine) (t : List Action) :
    (m.withConfig c).after t = (m.after t).withConfig c := by
  induction t generalizing m with
  | nil => rfl
  | cons a t ih =>
    have he : a.effect (m.withConfig c) = (a.effect m).withConfig c := by cases a <;> rfl
    rw [after_cons, he, ih, after_cons]

/-- To exchange the configuration at the end changes nothing else. -/
theorem Run.alike_withConfig {α : Type} (c : Config) (r : Run α) : r.Alike (r.withConfig c) :=
  ⟨rfl, rfl, rfl, rfl, rfl⟩

/-- **Influence of the configuration.** Machines that differ in nothing but the configuration run
    `Alike` when the policies are the same, and when one of them passes over unbound names and never
    meets any. When it meets one, the other fails at the first, with all as it was then. Under the
    policy of passing over no failure blames an unbound name, and passing over one changes
    nothing. -/
theorem Code.run_config (routines : Routines) (depth : Nat) (code : Code) (args : List Value)
    (m : Machine) (c c' : Config) :
    let r := code.run routines depth args (m.withConfig c)
    let r' := code.run routines depth args (m.withConfig c')
    (c.unknownSyscall = c'.unknownSyscall → r.Alike r') ∧
    (c.unknownSyscall = .ignore → c'.unknownSyscall = .reject →
      (Unmissed r.trace → r.Alike r') ∧
      (¬ Unmissed r.trace → ∃ name t t', r.trace = t ++ .ignored name :: t' ∧ Unmissed t ∧
        ((m.withConfig c).after t).table.get name = none ∧
        r'.result = .error (.failed (.unknownSyscall name)) ∧
        r'.machine = ((m.withConfig c).after t).withConfig c' ∧
        r'.output = t.filterMap Action.line?)) ∧
    (c.unknownSyscall = .ignore → ∀ name, r.result ≠ .error (.failed (.unknownSyscall name))) ∧
    (∀ calls name (m : Machine), m.config.unknownSyscall = .ignore → m.table.get name = none →
      m.syscall calls name = ⟨.ok (), m, [.ignored name]⟩) := by
  intro r r'
  have hf : r.Faithful (m.withConfig c) := run_faithful ..
  have hf' : r'.Faithful (m.withConfig c') := run_faithful ..
  refine ⟨fun hcc => ?_, fun hc hc' => ?_, fun hc => ?_,
    fun calls name m hp ht => Machine.syscall_of_ignored ht hp⟩
  · cases (run_inStep (.inl hcc) routines depth code args m).agrees with
    | same hr _ =>
      have hs : r' = r.withConfig c' := hr
      rw [hs]
      exact r.alike_withConfig c'
    | missed hc' name t t' hr _ _ _ =>
      -- a name is passed over only under the policy that the other configuration does not have
      have hi : ((m.withConfig c).after t).config.unknownSyscall = .ignore := (hf.fits hr).2
      rw [Machine.config_after] at hi
      have hn : c'.unknownSyscall = .ignore := hcc ▸ hi
      rw [hc'] at hn
      cases hn
  · cases (run_inStep (.inr ⟨hc, hc'⟩) routines depth code args m).agrees with
    | same hr hu =>
      have hs : r' = r.withConfig c' := hr
      rw [hs]
      exact ⟨fun _ => r.alike_withConfig c', fun h => absurd (hu hc') h⟩
    | missed _ name t t' hr hu hres htr' =>
      have ht : r.trace = t ++ .ignored name :: t' := hr
      have ht' : r'.trace = t ++ [.rejected name] := htr'
      refine ⟨fun h => absurd (by rw [ht]; simp) (h name), fun _ => ?_⟩
      have hm : r'.machine = ((m.withConfig c).after t).withConfig c' := by
        rw [hf'.machine_eq, ht', Machine.after_append, ← Machine.after_withConfig]
        rfl
      have ho : r'.output = t.filterMap Action.line? := by
        rw [Run.output, ht', List.filterMap_append]
        simp [Action.line?]
      exact ⟨name, t, t', ht, hu, (hf.fits ht).1, hres, hm, ho⟩
  · exact (run_inStep (.inl rfl) routines depth code args m).known hc

/-- A routine that asks for an unbound name between two lines of output. Where such names are passed
    over both lines are printed, and else the first alone. -/
theorem Code.unbound_in_routine_config :
    let routines : Routines := fun _ => .perform (.write "before") fun _ =>
      .perform (.syscall "Nowhere") fun _ => .perform (.write "after") fun _ => .skip
    let code : Code := .perform (.register "Go" (.routine 0)) fun _ =>
      .perform (.syscall "Go") fun _ => .skip
    let run := fun p =>
      code.run routines 1 [] ((Machine.boot {}).withConfig { unknownSyscall := p })
    (run .ignore).output = [.text "before", .text "after"] ∧
      (run .reject).output = [.text "before"] ∧
      (run .reject).result = .error (.failed (.unknownSyscall "Nowhere")) := by
  intro routines code run
  have htr : (run .ignore).trace = [.registered "Go" (.routine 0), .called "Go" 0,
      .invoked (.routine 0), .wrote (.text "before")] ++ .ignored "Nowhere" ::
      [.wrote (.text "after")] := by
    decide +kernel
  -- The run that passes the name over misses it, so the other one stops there.
  have hu : ¬ Unmissed (run .ignore).trace := fun h => absurd (by simp [htr]) (h "Nowhere")
  obtain ⟨name, t, t', ht, hm, -, hres, -, ho⟩ := ((Code.run_config routines 1 code []
    (Machine.boot {}) { unknownSyscall := .ignore } { unknownSyscall := .reject }).2.1 rfl rfl).2 hu
  -- The first miss is where the trace says it is.
  obtain ⟨rfl, rfl⟩ := hm.eq_of_append (by simp [Unmissed]) (ht.symm.trans htr)
  exact ⟨by rw [Run.output, htr]; rfl, ho, hres⟩

end StackMachine
