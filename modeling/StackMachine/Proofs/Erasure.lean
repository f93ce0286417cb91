import Mathlib.Data.Set.Basic
import StackMachine.Proofs.Nesting

namespace StackMachine

/-!
# Syscalls of unbound names

Where unbound names are passed over, a syscall of a name that stays unbound leaves nothing but an
event in the log. All such syscalls can be taken out of code, of the programs inside and of every
handler, and nothing else about the run changes.

The two runs are compared by a relation between runners (`Erases`): the second one is the first one
with some actions left out, and both begin and end on the same machine, on which the names are
unbound. Relations of this kind pass to all code by `Compatible`, except for the syscalls that are
taken out, which are the one case of its own.

* `Code.erase N c` — the code without its syscalls of the names in `N`.
* `Op.LeavesUnbound N op` — the operation binds no name in `N`.
* `Run.without N r` — the run without the actions that pass over a name in `N`.
* `Code.run_erase` — erased code makes the run without these actions.
-/

variable (N : Set String) [DecidablePred (· ∈ N)]

/-! ### Definitions -/

/-- The code without its syscalls of names in `N`, whose only answer is that they were made. -/
def Code.erase : Code → Code
  | .done a => .done a
  | .perform (.syscall name) next =>
    if name ∈ N then (next ()).erase else .perform (.syscall name) fun r => (next r).erase
  | .perform op next => .perform op fun r => (next r).erase
  | .enter main args next => .enter main.erase args next.erase
  | .execute program params main args next => .execute program params main.erase args next.erase

/-- The code of each slot, erased. -/
def Code.Routines.erase (routines : Code.Routines) : Code.Routines :=
  fun slot => (routines slot).erase N

/-- The operation binds no name in `N`. -/
def Op.LeavesUnbound : Op → Prop
  | .register name _ => name ∉ N
  | .wrap name _ => name ∉ N
  | _ => True

/-- The event tells that a name in `N` was passed over. -/
def Log.Event.passesOver : Log.Event → Bool
  | .ignored name => name ∈ N
  | _ => false

@[inherit_doc Log.Event.passesOver]
def Action.passesOver : Action → Bool
  | .ignored name => name ∈ N
  | _ => false

/-- The run without the actions that pass over a name in `N`. -/
def Run.without {α : Type} (r : Run α) : Run α :=
  { r with trace := r.trace.filter fun a => !a.passesOver N }

variable {N}

/-! ### Traces -/

/-- An action passes over a name just if its event says so. -/
theorem Action.passesOver_event {a : Action} {e : Log.Event} (h : a.event? = some e) :
    e.passesOver N = a.passesOver N := by
  cases a <;> cases h <;> rfl

/-- A plain action passes over no name. -/
theorem Action.IsPlain.passesOver {a : Action} (h : a.IsPlain) : a.passesOver N = false := by
  cases a <;> first | rfl | exact h.elim

namespace Run

variable {α : Type}

/-- The log without these actions is the log without their events. -/
theorem events_without (r : Run α) :
    (r.without N).events = r.events.filter fun e => !e.passesOver N := by
  rw [events, without, events, List.filterMap_filter, List.filter_filterMap]
  congr 1
  funext a
  cases ha : a.event? with
  | none => simp
  | some e => simp [Option.filter, Action.passesOver_event ha]

/-- Passing over a name prints nothing. -/
theorem output_without (r : Run α) : (r.without N).output = r.output := by
  rw [output, without, output, List.filterMap_filter]
  congr 1
  funext a
  cases a <;> simp [Action.line?, Action.passesOver]

/-- A run that passes over none of the names stays as it is. -/
theorem without_of_forall {r : Run α} (h : ∀ a ∈ r.trace, a.passesOver N = false) :
    r.without N = r := by
  have ht : r.trace.filter (fun a => !a.passesOver N) = r.trace :=
    List.filter_eq_self.2 fun a ha => by simp [h a ha]
  rw [without, ht]

end Run

/-! ### Runs of erased code

The syscalls that are erased would have called no handler. So both runs nest equally deep, and are
compared under every bound on the nesting.
-/

omit [DecidablePred (· ∈ N)] in
/-- Unbound names are passed over, and those in `N` are unbound. -/
structure Machine.PassesOver (N : Set String) (m : Machine) : Prop where
  policy : m.config.unknownSyscall = .ignore
  unbound : ∀ name ∈ N, m.table.get name = none

/-- On machines that pass over the names in `N`, the second runner does what the first one does
    without passing over them, and they are passed over after it too. -/
def Erases (N : Set String) [DecidablePred (· ∈ N)] {α : Type} (f f' : Runner α) : Prop :=
  ∀ m, m.PassesOver N → (f m).machine.PassesOver N ∧ f' m = (f m).without N

namespace Erases

variable {α β : Type}

/-- A runner that neither passes over a name in `N` nor binds one is its own erasure. -/
theorem refl {f : Runner α} (h : ∀ m, m.PassesOver N → (f m).machine.PassesOver N ∧
    ∀ a ∈ (f m).trace, a.passesOver N = false) : Erases N f f :=
  fun m hm => ⟨(h m hm).1, (Run.without_of_forall (h m hm).2).symm⟩

/-- **Sequencing.** What is done in turn is erased part by part, on machines that still pass over
    the names. -/
theorem bind {f f' : Runner α} {g g' : α → Runner β} (hf : Erases N f f')
    (hg : ∀ a, Erases N (g a) (g' a)) :
    Erases N (fun m => (f m).bind g) (fun m => (f' m).bind g') := by
  intro m h
  obtain ⟨hm, he⟩ := hf m h
  cases hr : (f m).result with
  | error e =>
    have hr' : ((f m).without N).result = .error e := hr
    simp only [he, Run.bind_of_error hr, Run.bind_of_error hr']
    exact ⟨hm, rfl⟩
  | ok a =>
    have hr' : ((f m).without N).result = .ok a := hr
    -- the second part begins on the same machine
    obtain ⟨hm', he'⟩ := hg a (f m).machine hm
    have hg' : g' a ((f m).without N).machine = (g a (f m).machine).without N := he'
    simp only [he, Run.bind_of_ok hr, Run.bind_of_ok hr', hg']
    exact ⟨hm', by simp [Run.without]⟩

end Erases

namespace Machine

/-- A pop passes over no name. -/
theorem erases_pop : Erases N pop pop := by
  refine .refl fun m h => ?_
  cases hs : m.stack.values with
  | nil =>
    rw [pop_of_empty hs]
    exact ⟨h, by simp [Action.passesOver]⟩
  | cons v vs =>
    rw [pop_of_cons hs]
    exact ⟨⟨h.policy, h.unbound⟩, by simp [Action.passesOver]⟩

/-- A `drain` passes over no name, however many values it pops. -/
theorem passesOver_drainActions (depth : Nat) (vs : List Value) :
    ∀ a ∈ drainActions depth vs, a.passesOver N = false := by
  intro a ha
  rcases mem_drainActions ha with rfl | ⟨v, d, rfl⟩
  · rfl
  · rfl

/-- The built-in exit passes over no name, so it is the same run without such actions. -/
theorem erases_invokeExit : Erases N invokeExit invokeExit := by
  refine .refl fun m h => ?_
  rw [invokeExit_eq]
  rcases hs : m.stack.values with _ | ⟨n | b, vs⟩
  · rw [leave_of_empty hs]
    exact ⟨h, by simp [Action.passesOver]⟩
  · rw [leave_of_i64 hs]
    exact ⟨⟨h.policy, h.unbound⟩, by simp [Action.passesOver]⟩
  · rw [leave_of_bool hs]
    exact ⟨⟨h.policy, h.unbound⟩, by simp [Action.passesOver]⟩

/-- A registration of another name leaves the names in `N` unbound. -/
theorem erases_register {name : String} (hn : name ∉ N) (handler : Handler) :
    Erases N (register name handler) (register name handler) := by
  refine .refl fun m h => ⟨⟨h.policy, fun name' hn' => ?_⟩, by simp [register, Action.passesOver]⟩
  have hne : name' ≠ name := fun e => hn (e ▸ hn')
  rw [← h.unbound name' hn']
  exact m.table.get_register_of_ne handler hne

/-- A syscall of another name stays, and runs the same handler on both sides. -/
theorem erases_syscall {calls calls' : Calls}
    (hc : ∀ h, Erases N (invoke calls h) (invoke calls' h)) {name : String} (hn : name ∉ N) :
    Erases N (syscall calls name) (syscall calls' name) := by
  intro m h
  cases ht : m.table.get name with
  | some handler =>
    have hr : Erases N (fun m => m.record (.called name m.depth))
        fun m => m.record (.called name m.depth) :=
      .refl fun m h => ⟨h, by simp [record, Action.passesOver]⟩
    have hs (calls : Calls) : m.syscall calls name =
        (m.record (.called name m.depth)).bind fun _ => invoke calls handler := by
      simp [syscall, ht]
    rw [hs, hs]
    exact hr.bind (fun _ => hc handler) m h
  | none =>
    -- the name is passed over on both sides, and is none of those erased
    have hs (calls : Calls) : m.syscall calls name = m.record (.ignored name) := by
      simp [syscall, ht, h.policy]
    rw [hs, hs, Run.without_of_forall (by simp [record, Action.passesOver, hn])]
    exact ⟨h, rfl⟩

/-- A syscall of a name in `N` is as good as none. -/
theorem erases_syscall_pure {name : String} (hn : name ∈ N) (calls : Calls) :
    Erases N (syscall calls name) (Run.pure ()) := by
  intro m h
  have hs : m.syscall calls name = m.record (.ignored name) := by
    simp [syscall, h.unbound name hn, h.policy]
  rw [hs]
  exact ⟨h, by simp [Run.without, record, Run.pure, Action.passesOver, hn]⟩

end Machine

/-- The operation neither binds a name in `N` nor is it a syscall of one. -/
def Op.Avoids (N : Set String) (op : Op) : Prop :=
  op.LeavesUnbound N ∧ ∀ name ∈ N, op ≠ .syscall name

/-- `Erases` is kept by everything that a machine does, as long as code can only ask for operations
    that avoid `N`. What is left are the syscalls that are erased, see `erases_exec`. -/
theorem erases_compatible : Compatible (Op.Avoids N) (Erases N) where
  pure _ := .refl fun _ h => ⟨h, by simp [Run.pure]⟩
  bind := .bind
  halt _ _ _ := .refl fun _ h => ⟨h, by simp [Run.halt]⟩
  record _ ha := .refl fun _ h => ⟨h, by simp [Machine.record, ha.passesOver]⟩
  returned _ := .refl fun _ h => ⟨h, by simp [Machine.record, Action.passesOver]⟩
  push _ := .refl fun _ h =>
    ⟨⟨h.policy, h.unbound⟩, by simp [Machine.push, Action.passesOver]⟩
  pop := Machine.erases_pop
  drain := .refl fun _ h =>
    ⟨⟨h.policy, h.unbound⟩, Machine.passesOver_drainActions _ _⟩
  register _ handler hp := Machine.erases_register (hp.elim And.left And.left) handler
  lookup _ := .refl fun _ h => ⟨h, by simp [Machine.lookup, Run.pure]⟩
  wait _ := .refl fun _ h =>
    ⟨⟨h.policy, h.unbound⟩, by simp [Machine.wait, Action.passesOver]⟩
  syscall hc name hp := Machine.erases_syscall hc fun hn => hp.2 name hn rfl
  invokeExit := Machine.erases_invokeExit

namespace Code

variable {routines : Routines} {code : Code} {args : List Value} {m : Machine}

/-- Unfolding lemma: a syscall of a name in `N` is erased. -/
theorem erase_syscall_of_mem {name : String} (hn : name ∈ N)
    (next : (Op.syscall name).Result → Code) :
    (perform (.syscall name) next).erase N = (next ()).erase N := by
  simp [erase, hn]

/-- Unfolding lemma: any other operation stays. -/
theorem erase_perform {op : Op} (hop : ∀ name ∈ N, op ≠ .syscall name)
    (next : op.Result → Code) :
    (perform op next).erase N = .perform op fun r => (next r).erase N := by
  cases op with
  | syscall name =>
    have hn : name ∉ N := fun hn => hop name hn rfl
    simp [erase, hn]
  | _ => rfl

/-- Erased code does what the code does, when handlers are related like that. -/
theorem erases_exec {calls calls' : Calls}
    (hc : ∀ h, Erases N (Machine.invoke calls h) (Machine.invoke calls' h))
    (hcode : code.All (Op.LeavesUnbound N)) (args : List Value) :
    Erases N (code.exec calls args) ((code.erase N).exec calls' args) := by
  -- Induction over the tree, and for an operation by whether it is erased.
  induction code generalizing args with
  | done a => exact erases_compatible.pure a
  | perform op next ih =>
    have hnext (r : op.Result) := ih r (hcode.2 r) args
    by_cases hop : ∃ name ∈ N, op = .syscall name
    · obtain ⟨name, hn, rfl⟩ := hop
      rw [erase_syscall_of_mem hn]
      exact (Machine.erases_syscall_pure hn calls).bind hnext
    · have hop' : ∀ name ∈ N, op ≠ .syscall name := fun name hn he => hop ⟨name, hn, he⟩
      rw [erase_perform hop']
      exact (erases_compatible.op hc args op ⟨hcode.1, hop'⟩).bind hnext
  | enter main args' next ihm ihn =>
    exact (ihm hcode.1 args').bind fun _ => ihn hcode.2 args
  | execute program params main args' next ihm ihn =>
    exact (erases_compatible.execute program params args' (ihm hcode.1 args')).bind fun _ =>
      ihn hcode.2 args

/-- A run of erased code is the run of the code `without` the actions that pass over a name. -/
theorem run_erase (hr : ∀ slot, (routines slot).All (Op.LeavesUnbound N))
    (hcode : code.All (Op.LeavesUnbound N)) (hm : m.PassesOver N) (depth : Nat)
    (args : List Value) : (code.erase N).run (routines.erase N) depth args m =
      (code.run routines depth args m).without N := by
  have hcalls (h : Handler) : Erases N (Machine.invoke (call routines depth) h)
      (Machine.invoke (call (routines.erase N) depth) h) :=
    erases_compatible.invoke_of_exec (fun hc slot => erases_exec hc (hr slot) []) depth h
  exact (erases_exec hcalls hcode args m hm).2

/-- Erased code ends with the run of the code, but for the actions that pass over a name. -/
theorem ends_erase_iff (hr : ∀ slot, (routines slot).All (Op.LeavesUnbound N))
    (hcode : code.All (Op.LeavesUnbound N)) (hm : m.PassesOver N) {r' : Run Answer} :
    (code.erase N).Ends (routines.erase N) args m r' ↔
      ∃ r, code.Ends routines args m r ∧ r' = r.without N := by
  constructor
  · rintro ⟨depth, rfl, hd⟩
    rw [run_erase hr hcode hm] at hd ⊢
    exact ⟨_, ⟨depth, rfl, hd⟩, rfl⟩
  · rintro ⟨_, ⟨depth, rfl, hd⟩, rfl⟩
    exact ⟨depth, run_erase hr hcode hm depth args, hd⟩

/-- **Erasure of unbound syscalls.** A machine passes over unbound names, the names in `N` are
    unbound on it, and neither code nor handlers bind one of them (`Op.LeavesUnbound`). Then code
    ends just if it ends when all syscalls of these names are taken out of it, of the programs
    inside and of every handler. It ends in the same way, with the same stack, the same names bound
    to the same slots and the same output, and the logs differ only in the events of passing over a
    name in `N`. -/
theorem ends_erase (hpolicy : m.config.unknownSyscall = .ignore)
    (hnames : ∀ name ∈ N, name ∉ m.table.names)
    (hr : ∀ slot, (routines slot).All (Op.LeavesUnbound N))
    (hcode : code.All (Op.LeavesUnbound N)) :
    ((∃ r, code.Ends routines args m r) ↔
      ∃ r', (code.erase N).Ends (routines.erase N) args m r') ∧
    ∀ r r', code.Ends routines args m r → (code.erase N).Ends (routines.erase N) args m r' →
      r'.result = r.result ∧ r'.machine.stack = r.machine.stack ∧
      r'.machine.table = r.machine.table ∧ r'.output = r.output ∧
      r'.events = r.events.filter fun e => !e.passesOver N := by
  -- What the theorem assumes of the machine is the invariant that erasure keeps.
  have hm : m.PassesOver N := by
    refine ⟨hpolicy, fun name hn => ?_⟩
    have hc : ¬ m.table.contains name := fun hc =>
      hnames name hn ((m.table.contains_iff_mem_names name).1 hc)
    simpa [Table.contains] using hc
  refine ⟨⟨?_, ?_⟩, fun r r' h h' => ?_⟩
  · rintro ⟨r, h⟩
    exact ⟨r.without N, (ends_erase_iff hr hcode hm).2 ⟨r, h, rfl⟩⟩
  · rintro ⟨r', h'⟩
    obtain ⟨r, h, -⟩ := (ends_erase_iff hr hcode hm).1 h'
    exact ⟨r, h⟩
  · -- both runs are the one run of the code as it was, with and without the events
    obtain ⟨r₁, h₁, rfl⟩ := (ends_erase_iff hr hcode hm).1 h'
    obtain rfl := h.unique h₁
    exact ⟨rfl, rfl, rfl, r.output_without, r.events_without⟩

/-- A routine asks for two unbound names between two lines of output, and the first one is
    erased. -/
theorem ends_erase_in_routine :
    let routines : Routines := fun _ => .perform (.write "before") fun _ =>
      .perform (.syscall "Nowhere") fun _ => .perform (.syscall "Elsewhere") fun _ =>
      .perform (.write "after") fun _ => .skip
    let code : Code := .perform (.register "Go" (.routine 0)) fun _ =>
      .perform (.syscall "Go") fun _ => .skip
    ∃ r', (code.erase {name | name = "Nowhere"}).Ends (routines.erase {name | name = "Nowhere"}) []
        (Machine.boot { unknownSyscall := .ignore }) r' ∧
      r'.output = [.text "before", .text "after"] ∧
      r'.events = [Log.Event.called "Go" 0, Log.Event.ignored "Elsewhere"] := by
  intro routines code
  let m := Machine.boot { unknownSyscall := .ignore }
  have hresult : (code.run routines 1 [] m).result = .ok .nothing := rfl
  have hends : code.Ends routines [] m (code.run routines 1 [] m) :=
    ⟨1, rfl, by rw [hresult]; simp⟩
  have hnames : ∀ name ∈ {name | name = "Nowhere"}, name ∉ m.table.names := by
    rintro _ rfl
    decide
  -- Nothing here binds the name that is erased.
  have hroutine (slot : Nat) : (routines slot).All (Op.LeavesUnbound {name | name = "Nowhere"}) :=
    ⟨trivial, fun _ => ⟨trivial, fun _ => ⟨trivial, fun _ => ⟨trivial, fun _ => trivial⟩⟩⟩⟩
  have hgo : Op.LeavesUnbound {name | name = "Nowhere"} (.register "Go" (.routine 0)) :=
    show "Go" ≠ "Nowhere" by decide
  have hcode : code.All (Op.LeavesUnbound {name | name = "Nowhere"}) :=
    ⟨hgo, fun _ => ⟨trivial, fun _ => trivial⟩⟩
  obtain ⟨hiff, hsame⟩ : ((∃ r, code.Ends routines [] m r) ↔ _) ∧ _ :=
    ends_erase rfl hnames hroutine hcode
  -- So the erased code ends, as the code does; its output and events follow without running it.
  obtain ⟨r', hr'⟩ := hiff.1 ⟨_, hends⟩
  obtain ⟨-, -, -, hout, hevents⟩ := hsame _ r' hends hr'
  exact ⟨r', hr', hout, hevents⟩

end Code

end StackMachine
