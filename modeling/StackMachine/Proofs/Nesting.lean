import Mathlib.Data.Nat.Init
import StackMachine.Proofs.Runner

namespace StackMachine

/-!
# Runs that end

Handlers can be nested without end, so code is run with a bound on the nesting, and a run that goes
beyond the bound halts as `tooDeep`. A run that stays within the bound is the run under every larger
bound too.

`Extends` relates a run with a run under a larger bound: if the first one was not cut off, the two
are the same. It is kept by all operations, so it is an instance of `Compatible`, and one induction
over the nesting finishes the proof.

* `Code.Ends` — code ends on a machine with a run, whatever nesting that takes.
* `Code.Ends.unique` — it ends with one run only.
-/

/-- The second runner does what the first one does whenever that is not cut off by the bound. -/
def Extends {α : Type} (f f' : Runner α) : Prop :=
  ∀ m, (f m).result ≠ .error .tooDeep → f' m = f m

/-- A runner extends itself. -/
theorem Extends.refl {α : Type} (f : Runner α) : Extends f f := fun _ _ => rfl

/-- What is done in turn is extended part by part: if the whole is not cut off, neither part is. -/
theorem Extends.bind {α β : Type} {f f' : Runner α} {g g' : α → Runner β} (hf : Extends f f')
    (hg : ∀ a, Extends (g a) (g' a)) :
    Extends (fun m => (f m).bind g) (fun m => (f' m).bind g') := by
  intro m hm
  cases hr : (f m).result with
  | error h =>
    -- the first part halts, and not by being cut off, since the whole is not
    have hf' : f' m = f m := hf m fun e => hm (by simp [Run.bind_of_error e])
    simp only [hf', Run.bind_of_error hr]
  | ok a =>
    have hf' : f' m = f m := hf m (by simp [hr])
    have hg' : g' a (f m).machine = g a (f m).machine :=
      hg a _ (by simpa [Run.bind_of_ok hr] using hm)
    simp only [hf', Run.bind_of_ok hr, hg']

/-- `Extends` is kept by everything that a machine does. Only a syscall runs handlers, and those
    extend by assumption. -/
theorem extends_compatible : Compatible (fun _ => True) Extends where
  pure _ := .refl _
  bind := .bind
  halt _ _ _ := .refl _
  record _ _ := .refl _
  returned _ := .refl _
  push _ := .refl _
  pop := .refl _
  drain := .refl _
  register _ _ _ := .refl _
  lookup _ := .refl _
  wait _ := .refl _
  invokeExit := .refl _
  syscall hc name _ := by
    intro m hm
    unfold Machine.syscall at hm ⊢
    -- A bound name: what its handler does is extended by assumption.
    cases ht : m.table.get name with
    | some h =>
      simp only [ht] at hm
      exact (Extends.refl (Machine.record _)).bind (fun _ => hc h) m hm
    | none => rfl

namespace Code

variable {routines : Routines} {code : Code} {args : List Value} {m : Machine} {r r' : Run Answer}

/-- A handler with one more level of nesting at hand extends itself. The induction is over the
    levels: a routine runs its own handlers with one level less. -/
theorem invoke_extends (routines : Routines) (depth : Nat) (h : Handler) :
    Extends (Machine.invoke (call routines depth) h)
      (Machine.invoke (call routines (depth + 1)) h) := by
  induction depth generalizing h with
  | zero =>
    cases h with
    | exit =>
      rw [Machine.invoke_exit, Machine.invoke_exit]
      exact .refl _
    | routine slot =>
      -- without any nesting left every routine is cut off
      have hcut : Extends (call routines 0 (.routine slot)) (call routines 1 (.routine slot)) :=
        fun m hm => absurd rfl hm
      exact extends_compatible.invoke_routine hcut
  | succ depth ih =>
    cases h with
    | exit =>
      rw [Machine.invoke_exit, Machine.invoke_exit]
      exact .refl _
    | routine slot =>
      have hcode := extends_compatible.exec ih (routines slot).all_true []
      exact extends_compatible.invoke_routine hcode

/-- A run that is not cut off stays the same when handlers may be nested deeper. -/
theorem run_of_le {depth depth' : Nat} (hle : depth ≤ depth')
    (hr : (code.run routines depth args m).result ≠ .error .tooDeep) :
    code.run routines depth' args m = code.run routines depth args m := by
  induction depth', hle using Nat.le_induction with
  | base => rfl
  | succ n _ ih =>
    -- one more level of nesting, from a run that is known not to be cut off at level `n`
    rw [← ih] at hr ⊢
    have he := extends_compatible.exec (invoke_extends routines n) code.all_true args
    exact he m hr

/-- Code ends on a machine with the run `r`: some bound on the nesting gives `r` and does not cut it
    off. -/
def Ends (routines : Routines) (code : Code) (args : List Value) (m : Machine) (r : Run Answer) :
    Prop :=
  ∃ depth, code.run routines depth args m = r ∧ r.result ≠ .error .tooDeep

/-- Code ends with one run only, since of two bounds one is the larger, see `run_of_le`. -/
theorem Ends.unique (h : code.Ends routines args m r) (h' : code.Ends routines args m r') :
    r = r' := by
  obtain ⟨d, rfl, hd⟩ := h
  obtain ⟨d', rfl, hd'⟩ := h'
  cases Nat.le_total d d' with
  | inl hle => exact (run_of_le hle hd).symm
  | inr hle => exact run_of_le hle hd'

end Code

end StackMachine
