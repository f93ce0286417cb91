import StackMachine.Proofs.Nesting

namespace StackMachine

/-!
# Termination

Handlers may call handlers and bind names anew while they run. Such a run still ends if the names
can be ranked so that a handler bound to a name calls names of a smaller rank only.

* `Bindings` — what is ever bound to a name, by the table at the start or by a registration.
* `Code.Obeys bound may` — the registrations of code are among `bound`, and the names that it calls
  are among `may`, those left out that nothing is ever bound to.
* `Ranked` — every handler calls names of a smaller rank than the names that it is bound to.
* `Settles` — from some nesting on, runs are one and the same run, which is not cut off.
* `Ranked.ends` — code ends if handlers are ranked.
-/

/-- The handlers that are bound to a name at one time or another. -/
abbrev Bindings := String → Handler → Prop

variable {bound : Bindings} {may : String → Prop}

/-! ### Ranked handlers

`bound` is fixed once and for all: it has everything that is ever bound to a name, so it does not
change with the table. That is what lets the induction be over the rank alone.
-/

/-- An operation binds names only to handlers that are `bound` to them, and it calls only names that
    it may call and names that are never bound. A handler at hand is called under a name of its own,
    and one that is replaced under the name that it was bound to. -/
def Op.Obeys (bound : Bindings) (may : String → Prop) : Op → Prop
  | .syscall name => (∃ h, bound name h) → may name
  | .call name => (∃ h, bound name h) → may name
  | .register name h => bound name h
  | .wrap name h => bound name h ∧ may name
  | .invoke h => ∃ name, bound name h ∧ may name
  | _ => True

/-- An operation that answers with a handler answers with one that is `bound` to the name. -/
def Op.CanAnswer (bound : Bindings) : (op : Op) → op.Result → Prop
  | .lookup name, h? => ∀ h, h? = some h → bound name h
  | .register name _, h? => ∀ h, h? = some h → bound name h
  | _, _ => True

/-- All operations of code, and of the programs inside it, bind and call only such names. -/
def Code.Obeys (bound : Bindings) (may : String → Prop) : Code → Prop
  | .done _ => True
  | .perform op next =>
    op.Obeys bound may ∧ ∀ r, op.CanAnswer bound r → (next r).Obeys bound may
  | .enter main _ next => main.Obeys bound may ∧ next.Obeys bound may
  | .execute _ _ main _ next => main.Obeys bound may ∧ next.Obeys bound may

/-- The table of a machine binds names only to handlers that are `bound` to them. -/
def Machine.Within (bound : Bindings) (m : Machine) : Prop :=
  ∀ name h, m.table.get name = some h → bound name h

/-- A handler that is `bound` to a name calls names of a smaller rank only. The code itself may call
    any name. -/
structure Ranked (routines : Code.Routines) (bound : Bindings) (rank : String → Nat) (code : Code)
    (m : Machine) : Prop where
  table : m.Within bound
  code : code.Obeys bound fun _ => True
  routine : ∀ name slot, bound name (.routine slot) →
    (routines slot).Obeys bound fun name' => rank name' < rank name

/-! ### Runs that settle

"From some nesting on" is kept by sequences, at the larger of two nestings, whereas a nesting that
is fixed beforehand would not be. The bindings are kept within `bound` along the way.
-/

/-- From some nesting on, the runs are one and the same, which is not cut off, leaves a machine with
    bindings among `bound`, and answers with an answer that `can` be. -/
def Settles {α : Type} (bound : Bindings) (can : α → Prop) (f : Nat → Run α) : Prop :=
  ∃ r : Run α, (r.result ≠ .error .tooDeep ∧ r.machine.Within bound ∧
    ∀ a, r.result = .ok a → can a) ∧ ∃ d, ∀ d', d ≤ d' → f d' = r

/-- Handlers settle that are `bound` to names which may be called. -/
def CallsSettle (bound : Bindings) (may : String → Prop) (calls : Nat → Calls) : Prop :=
  ∀ name h m, bound name h → may name → m.Within bound →
    Settles bound (fun _ => True) fun d => calls d h m

/-- A run that answers was not cut off. -/
theorem Run.ne_tooDeep_of_ok {α : Type} {r : Run α} {a : α} (h : r.result = .ok a) :
    r.result ≠ .error .tooDeep := by
  rw [h]
  simp

/-- A run that keeps the table and is not cut off. Most operations are like that, and settle at
    once. -/
structure Run.KeepsTable {α : Type} (m : Machine) (r : Run α) : Prop where
  table : r.machine.table = m.table
  inTime : r.result ≠ .error .tooDeep

namespace Run.KeepsTable

variable {α β : Type} {m : Machine}

/-- An answer shows that a run was not cut off. -/
theorem of_ok {r : Run α} {a : α} (ht : r.machine.table = m.table) (hr : r.result = .ok a) :
    r.KeepsTable m :=
  ⟨ht, r.ne_tooDeep_of_ok hr⟩

theorem pure (a : α) : (Run.pure a m).KeepsTable m := .of_ok rfl rfl

theorem record (a : Action) : (m.record a).KeepsTable m := .of_ok rfl rfl

/-- A halt keeps the table, unless it is the one for nesting too deep. -/
theorem halt {h : Halt} (hh : h ≠ .tooDeep) : (Run.halt h m : Run α).KeepsTable m :=
  ⟨rfl, by simpa [Run.halt] using hh⟩

/-- Runs in turn keep the table if each does. -/
theorem bind {r : Run α} {next : α → Runner β} (hr : r.KeepsTable m)
    (hn : ∀ a m, (next a m).KeepsTable m) : (r.bind next).KeepsTable m := by
  cases h : r.result with
  | error e =>
    rw [Run.bind_of_error h]
    exact ⟨hr.table, fun he => hr.inTime (h.trans (congrArg _ (Except.error.inj he)))⟩
  | ok a =>
    rw [Run.bind_of_ok h]
    exact ⟨(hn a r.machine).table.trans hr.table, (hn a r.machine).inTime⟩

end Run.KeepsTable

namespace Settles

variable {α β : Type} {can : α → Prop} {can' : β → Prop}

/-- A run that is the same at every nesting. -/
theorem const {r : Run α} (hr : r.result ≠ .error .tooDeep) (hw : r.machine.Within bound)
    (hc : ∀ a, r.result = .ok a → can a) : Settles bound can fun _ => r :=
  ⟨r, ⟨hr, hw, hc⟩, 0, fun _ _ => rfl⟩

/-- A run that keeps the table settles, since the table was within `bound` before it. -/
theorem of_keepsTable {m : Machine} {r : Run α} (hr : r.KeepsTable m) (hm : m.Within bound) :
    Settles bound (fun _ => True) fun _ => r := by
  refine const hr.inTime (fun name h hg => ?_) fun _ _ => trivial
  rw [hr.table] at hg
  exact hm name h hg

/-- **Sequencing.** What is done in turn settles at the larger of the nestings at which its parts
    do. -/
theorem bind {f : Nat → Run α} {g : Nat → α → Runner β} (hf : Settles bound can f)
    (hg : ∀ a m, can a → m.Within bound → Settles bound can' fun d => g d a m) :
    Settles bound can' fun d => (f d).bind (g d) := by
  obtain ⟨r, ⟨hr, hw, hc⟩, d, hd⟩ := hf
  cases h : r.result with
  | error e =>
    have hnot : e ≠ .tooDeep := fun he => hr (h.trans (congrArg _ he))
    refine ⟨⟨.error e, r.machine, r.trace⟩, ⟨by simpa using hnot, hw, by simp⟩, d, ?_⟩
    intro d' hle
    show (f d').bind (g d') = _
    rw [hd d' hle, Run.bind_of_error h]
  | ok a =>
    obtain ⟨r', ⟨hr', hw', hc'⟩, e, he⟩ := hg a r.machine (hc a h) hw
    refine ⟨⟨r'.result, r'.machine, r.trace ++ r'.trace⟩, ⟨hr', hw', hc'⟩, max d e, ?_⟩
    intro d' hle
    -- both parts have settled at a nesting that is at least that of either
    have hfirst : f d' = r := hd d' (Nat.le_trans (Nat.le_max_left d e) hle)
    have hsecond : g d' a r.machine = r' := he d' (Nat.le_trans (Nat.le_max_right d e) hle)
    show (f d').bind (g d') = _
    rw [hfirst, Run.bind_of_ok h, hsecond]

/-- What settles one level down settles. -/
theorem of_succ {f : Nat → Run α} (h : Settles bound can fun d => f (d + 1)) :
    Settles bound can f := by
  obtain ⟨r, hr, d, hd⟩ := h
  refine ⟨r, hr, d + 1, fun d' hle => ?_⟩
  obtain ⟨e, rfl⟩ := Nat.exists_eq_add_of_le' hle
  exact hd (e + d) (Nat.le_add_left d e)

end Settles

/-! ### The operations of a machine

What keeps the table settles at once. That leaves the operations that bind names and those that run
handlers.
-/

namespace Machine

variable {m : Machine}

theorem pop_keepsTable (m : Machine) : m.pop.KeepsTable m := by
  cases hs : m.stack.values with
  | nil =>
    rw [pop_of_empty hs]
    exact ⟨rfl, by simp⟩
  | cons v vs =>
    rw [pop_of_cons hs]
    exact .of_ok rfl rfl

theorem popAs_keepsTable (k : Kind) (m : Machine) : (m.popAs k).KeepsTable m := by
  refine m.pop_keepsTable.bind fun v m => ?_
  cases v.get k with
  | ok a => exact .pure a
  | error e => exact .halt (by simp)

theorem leave_keepsTable {α : Type} (m : Machine) : (m.leave : Run α).KeepsTable m :=
  (m.popAs_keepsTable .i64).bind fun _ _ => (Run.KeepsTable.record _).bind fun _ _ =>
    (Run.KeepsTable.record _).bind fun _ _ => .halt (by simp)

theorem readArg_keepsTable (args : List Value) (i : Nat) (m : Machine) :
    (m.readArg args i).KeepsTable m := by
  unfold readArg
  cases args[i]? with
  | some v => exact .pure v
  | none => exact (Run.KeepsTable.record _).bind fun _ _ => .halt (by simp)

theorem readArgAs_keepsTable (args : List Value) (i : Nat) (k : Kind) (m : Machine) :
    (m.readArgAs args i k).KeepsTable m := by
  refine (m.readArg_keepsTable args i).bind fun v m => ?_
  cases v.get k with
  | ok a => exact .pure a
  | error e => exact (Run.KeepsTable.record _).bind fun _ _ => .halt (by simp)

theorem check_keepsTable (program : String) (params : List Kind) (args : List Value)
    (m : Machine) : (m.check program params args).KeepsTable m := by
  unfold check
  cases checkArguments program params args with
  | ok _ => exact .pure ()
  | error f => exact (Run.KeepsTable.record _).bind fun _ _ => .halt (by simp)

theorem wait_keepsTable (nanos : Nat) (m : Machine) : (m.wait nanos).KeepsTable m :=
  .of_ok rfl rfl

/-- A registration binds a name to a handler that is `bound` to it, and so is the one before. -/
theorem register_settles {name : String} {h : Handler} (hn : bound name h) (hm : m.Within bound) :
    Settles bound (fun h? => ∀ h, h? = some h → bound name h) fun _ => m.register name h := by
  refine .const (Run.ne_tooDeep_of_ok rfl) (fun name' h' hg => ?_) fun h? hh => ?_
  · have hg' : (m.table.register name h).get name' = some h' := hg
    rw [Table.get_register] at hg'
    by_cases hname : name' = name
    · rw [if_pos hname, Option.some.injEq] at hg'
      rw [hname, ← hg']
      exact hn
    · rw [if_neg hname] at hg'
      exact hm name' h' hg'
  · obtain rfl : m.table.get name = h? := Except.ok.inj hh
    exact hm name

/-! Handlers, when their own runs settle. -/

section

variable {calls : Nat → Calls} (hcalls : CallsSettle bound may calls)
include hcalls

/-- An invocation settles if the handler may be called under one of its names. -/
theorem invoke_settles {name : String} {h : Handler} (hn : bound name h) (hmay : may name)
    (hm : m.Within bound) : Settles bound (fun _ => True) fun d => m.invoke (calls d) h :=
  (Settles.of_keepsTable (.record _) hm).bind fun _ m _ hm =>
    (hcalls name h m hn hmay hm).bind fun _ _ _ hm => .of_keepsTable (.pure ()) hm

/-- A handler that may be missing settles if it may be called, and if there is none at once. -/
theorem invoke?_settles {name : String} {h? : Option Handler}
    (hn : ∀ h, h? = some h → bound name h) (hmay : (∃ h, bound name h) → may name)
    (hm : m.Within bound) : Settles bound (fun _ => True) fun d => m.invoke? (calls d) h? := by
  cases h? with
  | none => exact .of_keepsTable (.pure false) hm
  | some h =>
    have hb : bound name h := hn h rfl
    exact (invoke_settles hcalls hb (hmay ⟨h, hb⟩) hm).bind fun _ _ _ hm =>
      .of_keepsTable (.pure true) hm

/-- A syscall finds a handler that is `bound` to the name, or none. -/
theorem syscall_settles {name : String} (hmay : (∃ h, bound name h) → may name)
    (hm : m.Within bound) : Settles bound (fun _ => True) fun d => m.syscall (calls d) name := by
  unfold syscall
  cases ht : m.table.get name with
  | some h =>
    have hb : bound name h := hm name h ht
    exact (Settles.of_keepsTable (.record _) hm).bind fun _ _ _ hm =>
      invoke_settles hcalls hb (hmay ⟨h, hb⟩) hm
  | none =>
    cases m.config.unknownSyscall with
    | reject => exact .of_keepsTable ((Run.KeepsTable.record _).bind fun _ _ => .halt (by simp)) hm
    | ignore => exact .of_keepsTable (.record _) hm

end

end Machine

/-! ### Code

Handlers come first: by induction on a bound for the rank, the handlers of all names below the bound
settle. The code itself may call any name, so it comes last.
-/

namespace Code

variable {calls : Nat → Calls} {m : Machine}

/-- One operation that `Obeys` settles, with an answer that it `CanAnswer`, when handlers settle. -/
theorem op_settles (hcalls : CallsSettle bound may calls) (args : List Value) {op : Op}
    (hop : op.Obeys bound may) (hm : m.Within bound) :
    Settles bound (op.CanAnswer bound) fun d => op.run (calls d) args m := by
  cases op with
  | push v => exact .of_keepsTable (.of_ok rfl rfl) hm
  | pop => exact .of_keepsTable m.pop_keepsTable hm
  | popAs k => exact .of_keepsTable (m.popAs_keepsTable k) hm
  | drain => exact .of_keepsTable (.of_ok rfl rfl) hm
  | syscall name => exact Machine.syscall_settles hcalls hop hm
  | register name h => exact Machine.register_settles hop hm
  -- what is looked up is bound now, so it is one of the handlers that were ever bound
  | lookup name =>
    refine .const (Run.ne_tooDeep_of_ok rfl) hm fun h? hh => ?_
    obtain rfl : m.table.get name = h? := Except.ok.inj hh
    exact hm name
  | invoke h =>
    obtain ⟨name, hn, hmay⟩ := hop
    exact Machine.invoke_settles hcalls hn hmay hm
  -- the handler of before is run, if there was one, on the table with the new one
  | wrap name h =>
    exact (Machine.register_settles hop.1 hm).bind fun h? m hh hm =>
      Machine.invoke?_settles hcalls hh (fun _ => hop.2) hm
  | call name => exact Machine.invoke?_settles hcalls (hm name) hop hm
  | write s => exact .of_keepsTable (.record _) hm
  | exit c => exact .of_keepsTable (.halt (by simp)) hm
  | sleep millis => exact .of_keepsTable (m.wait_keepsTable _) hm
  | compute n => exact .of_keepsTable (.record _) hm
  | arg i => exact .of_keepsTable (m.readArg_keepsTable args i) hm
  | argAs i k => exact .of_keepsTable (m.readArgAs_keepsTable args i k) hm
  | check program params args' =>
    exact .of_keepsTable (m.check_keepsTable program params args') hm

/-- Code that `Obeys` settles, when the handlers that it may call do. -/
theorem exec_settles (hcalls : CallsSettle bound may calls) {code : Code}
    (hcode : code.Obeys bound may) (args : List Value) (hm : m.Within bound) :
    Settles bound (fun _ => True) fun d => code.exec (calls d) args m := by
  -- Induction over the tree. What has settled so far tells the machine and the answer that the rest
  -- of the code goes on with.
  induction code generalizing args m with
  | done a => exact .of_keepsTable (.pure a) hm
  | perform op next ih =>
    exact (op_settles hcalls args hcode.1 hm).bind fun r m hr hm => ih r (hcode.2 r hr) args hm
  | enter main args' next ihm ihn =>
    exact (ihm hcode.1 args' hm).bind fun _ _ _ hm => ihn hcode.2 args hm
  | execute program params main args' next ihm ihn =>
    have hexecute : Settles bound (fun _ => True) fun d =>
        m.execute program params args' (main.exec (calls d) args') :=
      (Settles.of_keepsTable (m.check_keepsTable program params args') hm).bind fun _ _ _ hm =>
        (Settles.of_keepsTable (.record _) hm).bind fun _ _ _ hm =>
          (ihm hcode.1 args' hm).bind fun _ _ _ hm => .of_keepsTable (.record _) hm
    exact hexecute.bind fun _ _ _ hm => ihn hcode.2 args hm

end Code

namespace Ranked

variable {routines : Code.Routines} {rank : String → Nat} {code : Code} {m : Machine}

/-- Handlers settle, those of a smaller rank first. -/
theorem callsSettle (h : Ranked routines bound rank code m) (n : Nat) :
    CallsSettle bound (fun name => rank name < n) fun d => Code.call routines d := by
  -- Induction on a bound for the rank. The code of a routine calls names of a rank below its own.
  induction n with
  | zero => exact fun _ _ _ _ hn => absurd hn (Nat.not_lt_zero _)
  | succ n ih =>
    intro name handler m' hb hn hm
    refine .of_succ ?_
    cases handler with
    | exit => exact .of_keepsTable m'.leave_keepsTable hm
    | routine slot =>
      have hbelow : CallsSettle bound (fun name' => rank name' < rank name) fun d =>
          Code.call routines d := fun name' h' m hb' hlt =>
        ih name' h' m hb' (Nat.lt_of_lt_of_le hlt (Nat.le_of_lt_succ hn))
      exact Code.exec_settles hbelow (h.routine name slot hb) [] hm

/-- **Ranked handlers end.** Code ends if handlers are `Ranked`. It comes to its end, fails, leaves
    the process or reads an argument that is missing. -/
theorem ends (h : Ranked routines bound rank code m) (args : List Value) :
    ∃ r, code.Ends routines args m r ∧
      ((∃ a, r.result = .ok a) ∨ (∃ f, r.result = .error (.failed f)) ∨
        (∃ c, r.result = .error (.exited c)) ∨
        ∃ count i, r.result = .error (.argumentMissing count i)) := by
  have hcalls : CallsSettle bound (fun _ => True) fun d => Code.call routines d :=
    fun name handler m hb _ => h.callsSettle (rank name + 1) name handler m hb (Nat.lt_succ_self _)
  obtain ⟨r, ⟨hr, -⟩, d, hd⟩ := Code.exec_settles hcalls h.code args h.table
  refine ⟨r, ⟨d, hd d (Nat.le_refl d), hr⟩, ?_⟩
  cases hres : r.result with
  | ok a => exact .inl ⟨a, rfl⟩
  | error e =>
    cases e with
    | failed f => exact .inr (.inl ⟨f, rfl⟩)
    | exited c => exact .inr (.inr (.inl ⟨c, rfl⟩))
    | argumentMissing count i => exact .inr (.inr (.inr ⟨count, i, rfl⟩))
    | tooDeep => exact absurd hres hr

/-- A routine that binds its own name anew while it runs, to one that replaces the routine of a name
    of smaller rank and runs it. Another name that it calls is never bound. -/
theorem rebinding_ends :
    let routines : Code.Routines := fun slot =>
      if slot = 0 then
        .perform (.register "High" (.routine 1)) fun _ => .perform (.syscall "Low") fun _ =>
          .perform (.syscall "Nowhere") fun _ => .skip
      else if slot = 1 then .perform (.wrap "Low" (.routine 2)) fun _ => .skip
      else .perform (.write "low") fun _ => .skip
    let code : Code := .perform (.register "Low" (.routine 2)) fun _ =>
      .perform (.register "High" (.routine 0)) fun _ => .perform (.syscall "High") fun _ =>
      .perform (.syscall "High") fun _ => .skip
    ∃ r, code.Ends routines [] (Machine.boot { unknownSyscall := .ignore }) r ∧
      r.output = [.text "low", .text "low"] := by
  intro routines code
  let m := Machine.boot { unknownSyscall := .ignore }
  -- Both handlers of "High" are among those ever bound, so the rank has to drop below either.
  let bound : Bindings := fun name h => (name, h) ∈ [("High", Handler.routine 0),
    ("High", .routine 1), ("Low", .routine 2), (exitName, .exit)]
  let rank (name : String) : Nat := if name = "High" then 1 else 0
  have htable : m.Within bound := by
    intro name h hg
    have hg' : (Table.empty.register exitName Handler.exit).get name = some h := hg
    rw [Table.get_register] at hg'
    by_cases hn : name = exitName
    · rw [if_pos hn, Option.some.injEq] at hg'
      simp [bound, hn, ← hg']
    · rw [if_neg hn] at hg'
      cases hg'
  have hcode : code.Obeys bound fun _ => True :=
    ⟨by simp [bound, Op.Obeys], fun _ _ => ⟨by simp [bound, Op.Obeys], fun _ _ =>
      ⟨fun _ => trivial, fun _ _ => ⟨fun _ => trivial, fun _ _ => trivial⟩⟩⟩⟩
  have hroutine (name : String) (slot : Nat) (hb : bound name (.routine slot)) :
      (routines slot).Obeys bound fun name' => rank name' < rank name := by
    simp only [bound, List.mem_cons, Prod.mk.injEq, Handler.routine.injEq, List.not_mem_nil,
      reduceCtorEq, and_false, or_false] at hb
    -- one case for each routine and the name that it is bound to
    rcases hb with ⟨rfl, rfl⟩ | ⟨rfl, rfl⟩ | ⟨rfl, rfl⟩
    · refine ⟨by simp [bound, Op.Obeys], fun _ _ => ⟨fun _ => by simp [rank], fun _ _ =>
        ⟨fun ⟨h, hb⟩ => ?_, fun _ _ => trivial⟩⟩⟩
      -- `Nowhere` is never bound, so its rank does not matter
      simp [bound, exitName] at hb
    · exact ⟨⟨by simp [bound], by simp [rank]⟩, fun _ _ => trivial⟩
    · exact ⟨trivial, fun _ _ => trivial⟩
  have hranked : Ranked routines bound rank code m := ⟨htable, hcode, hroutine⟩
  obtain ⟨r, hr, -⟩ := hranked.ends []
  have hresult : (code.run routines 2 [] m).result = .ok .nothing := rfl
  -- The run that the theorem gives is the one that can be worked out at a depth of two.
  have hsame : r = code.run routines 2 [] m := hr.unique ⟨2, rfl, Run.ne_tooDeep_of_ok hresult⟩
  refine ⟨r, hr, ?_⟩
  rw [hsame]
  decide +kernel

end Ranked

end StackMachine
