import StackMachine.Proofs.Dispatch

namespace StackMachine

/-!
# Histories of a machine

A machine is built once and then runs one script after another, each on what the one before it left,
however that one ended. What holds of the machine at every point of such a history is told by what
was done up to there.

* `Script`, `History`, `History.of` — scripts, and what running them in turn comes to.
* `bound? name t` — the handler that a name is bound to after the actions `t`: that of its latest
  registration, or the built-in exit under its own name.
* `Lasting c t m` — what holds of a machine built with `c` after the actions `t`.
* `History.of_lasting` — it holds at every point of every history.
-/

/-! ### Registrations

The latest registration of a name is the last one in the trace, so it is read from the right.
-/

/-- The handler that an action binds a name to: only a `registered` of that name does. -/
def Action.binding? (name : String) : Action → Option Handler
  | .registered n h => if n = name then some h else none
  | _ => none

/-- The handler of the latest registration of a name among the actions of a trace. -/
def latest? (name : String) (t : List Action) : Option Handler :=
  t.reverse.findSome? (Action.binding? name)

/-- The handler that a name is bound to, when all that was done since the machine was built is `t`:
    the `latest?` one, and before any registration the built-in exit under `exitName`. -/
def bound? (name : String) (t : List Action) : Option Handler :=
  (latest? name t).or (if name = exitName then some .exit else none)

/-- The first action of a trace counts only if none behind it binds the name. -/
theorem latest?_cons (name : String) (a : Action) (t : List Action) :
    latest? name (a :: t) = (latest? name t).or (a.binding? name) := by
  rw [latest?, List.reverse_cons, List.findSome?_append]
  simp [latest?]

example : latest? "Go" [.registered "Go" Handler.exit, .registered "Go" (.routine 1), .starved,
    .registered "Stay" Handler.exit] = some (.routine 1) := by
  decide

namespace Machine

/-- One action binds what `Action.binding?` says and nothing else. -/
theorem get_effect (m : Machine) (a : Action) (name : String) :
    (a.effect m).table.get name = (a.binding? name).or (m.table.get name) := by
  cases a with
  | registered n h =>
    show (m.table.register n h).get name = _
    rw [Table.get_register]
    by_cases hn : n = name
    · simp [Action.binding?, hn]
    · simp [Action.binding?, hn, Ne.symm hn]
  | _ => rfl

/-- A look-up after some actions finds the `latest?` of their registrations. -/
theorem get_after (m : Machine) (t : List Action) (name : String) :
    (m.after t).table.get name = (latest? name t).or (m.table.get name) := by
  induction t generalizing m with
  | nil => rfl
  | cons a t ih => rw [after_cons, ih, get_effect, latest?_cons, Option.or_assoc]

/-- A machine just built binds `exitName` only. -/
theorem get_boot (c : Config) (name : String) :
    (boot c).table.get name = if name = exitName then some .exit else none := by
  show builtinTable.get name = _
  rw [get_builtinTable]

/-- A look-up on a machine that was built with `boot` finds `bound?`, at every point of its
    history. -/
theorem get_after_boot (c : Config) (t : List Action) (name : String) :
    ((boot c).after t).table.get name = bound? name t := by
  rw [get_after, get_boot, bound?]

/-- Names stay bound, whatever is done. -/
theorem names_subset_after (m : Machine) (t : List Action) :
    m.table.names ⊆ (m.after t).table.names := by
  intro name hn
  rw [← Table.contains_iff_mem_names, Table.contains] at hn ⊢
  rw [get_after, Option.isSome_or, hn, Bool.or_true]

end Machine

/-- The exit is bound at every point of a history. -/
theorem bound?_exitName_ne_none (t : List Action) : bound? exitName t ≠ none := by
  simp [bound?]

/-! ### Points of a history -/

/-- What holds of a machine that was built with `c` and has done `t` since, and of the lines that
    its host has captured, `captured` of them from before. -/
structure Lasting (c : Config) (captured : List Line) (t : List Action) (m : Machine)
    (output : List Line) : Prop where
  config : m.config = c
  /-- no name that was bound at an earlier point has become unbound -/
  names : ∀ s, s <+: t → ((Machine.boot c).after s).table.names ⊆ m.table.names
  exit_mem : exitName ∈ m.table.names
  get : ∀ name, m.table.get name = bound? name t
  /-- the lines of an earlier point are there, in front of the others -/
  output : ∀ s, s <+: t → captured ++ s.filterMap Action.line? <+: output

/-- A replayed machine is `Lasting`. That runs leave the replayed machine is the other half, see
    `Told`. -/
theorem Machine.lasting_after (c : Config) (captured : List Line) (t : List Action) :
    Lasting c captured t ((boot c).after t) (captured ++ t.filterMap Action.line?) where
  config := config_after _ _
  names s hs := by
    obtain ⟨u, rfl⟩ := hs
    rw [after_append]
    exact names_subset_after _ u
  exit_mem := by
    rw [← Table.contains_iff_mem_names, Table.contains, get_after_boot]
    exact Option.isSome_iff_ne_none.2 (bound?_exitName_ne_none t)
  get := get_after_boot c t
  output s hs := by
    obtain ⟨u, rfl⟩ := hs
    rw [List.filterMap_append, ← List.append_assoc]
    exact List.prefix_append _ _

/-! ### Histories

A script that fails or leaves the process does not end a history: the next one begins on the machine
that it left.
-/

/-- Code to run, with the arguments that it is given. -/
structure Script where
  code : Code
  args : List Value := []

/-- What scripts that ran in turn came to. -/
structure History where
  /-- the machine that was left -/
  machine : Machine
  /-- all that was done -/
  trace : List Action
  /-- the lines captured -/
  output : List Line

namespace History

variable {c : Config} {captured : List Line} {routines : Code.Routines} {depth : Nat}

/-- The run of one more script on the machine that a history left. -/
def run (routines : Code.Routines) (depth : Nat) (h : History) (s : Script) : Run Answer :=
  s.code.run routines depth s.args h.machine

/-- One more script goes on with the machine as it was left, and its lines are captured behind those
    there are. -/
def extend (routines : Code.Routines) (depth : Nat) (h : History) (s : Script) : History :=
  let r := h.run routines depth s
  ⟨r.machine, h.trace ++ r.trace, h.output ++ r.output⟩

/-- The history of a machine just built, whose host has captured some lines already, and then of
    `scripts`, one `extend` after another. -/
def of (c : Config) (captured : List Line) (routines : Code.Routines) (depth : Nat)
    (scripts : List Script) : History :=
  scripts.foldl (extend routines depth) ⟨Machine.boot c, [], captured⟩

/-- The machine and the lines of a history are those that its trace tells of. -/
structure Told (c : Config) (captured : List Line) (h : History) : Prop where
  machine_eq : h.machine = (Machine.boot c).after h.trace
  output_eq : h.output = captured ++ h.trace.filterMap Action.line?

/-- One more script is told of by its own trace, since runs are `Faithful`. -/
theorem Told.extend {h : History} (ht : h.Told c captured) (s : Script) :
    (h.extend routines depth s).Told c captured where
  machine_eq := by
    have hf := (Code.run_faithful routines depth s.code s.args h.machine).machine_eq
    rw [History.extend, Machine.after_append, ← ht.machine_eq]
    exact hf
  output_eq := by
    rw [History.extend, List.filterMap_append, ← List.append_assoc, ← ht.output_eq]
    rfl

/-- Every history is told by its trace, by induction over the scripts from the last one. -/
theorem of_told (c : Config) (captured : List Line) (routines : Code.Routines) (depth : Nat)
    (scripts : List Script) : (of c captured routines depth scripts).Told c captured := by
  have hb : (⟨Machine.boot c, [], captured⟩ : History).Told c captured := ⟨rfl, by simp⟩
  rw [of]
  -- induction over the scripts, from a history that is told by its trace already
  generalize (⟨Machine.boot c, [], captured⟩ : History) = h at hb
  induction scripts generalizing h with
  | nil => exact hb
  | cons s ss ih => exact ih (h.extend routines depth s) (hb.extend s)

/-- **What lasts.** A machine is built, and scripts run on it in turn; `past` is all that was done
    up to some point in the last of them. There the configuration is the one of the start, names
    have only been added and the exit is one of them, a look-up finds the latest registration of a
    name (`bound?`), and lines have only been added at the end. What comes next is no miss of the
    exit; a syscall invokes the handler of the latest registration; and an invocation is followed by
    the whole run of that handler's own code from there, whatever it registers. -/
theorem of_lasting (c : Config) (captured : List Line) (routines : Code.Routines) (depth : Nat)
    (before : List Script) (s : Script) :
    let h := of c captured routines depth before
    let r := h.run routines depth s
    ∀ t u, r.trace = t ++ u →
      let past := h.trace ++ t
      let m := h.machine.after t
      Lasting c captured past m (h.output ++ t.filterMap Action.line?) ∧
      (u = [] → h.extend routines depth s = ⟨m, past, h.output ++ t.filterMap Action.line?⟩) ∧
      (∀ name handler, m.lookup name = .pure (bound? name past) m ∧
        (m.register name handler).result = .ok (bound? name past)) ∧
      ∀ a v, u = a :: v → a ≠ .ignored exitName ∧ a ≠ .rejected exitName ∧
        (∀ name d, a = .called name d →
          ∃ handler w, bound? name past = some handler ∧ v = .invoked handler :: w) ∧
        ∀ handler, a = .invoked handler →
          ∃ d w, v = (Code.call routines d handler m).trace ++ w ∧
            (w ≠ [] → ∃ b, (Code.call routines d handler m).result = .ok b) := by
  intro h r t u htr past m
  have htold : h.Told c captured := of_told ..
  have hr : r.Dispatched routines h.machine := Code.run_dispatched ..
  -- the machine and the lines at this point are told by all that was done
  have hm : m = (Machine.boot c).after past := by
    rw [Machine.after_append, ← htold.machine_eq]
  have ho : h.output ++ t.filterMap Action.line? = captured ++ past.filterMap Action.line? := by
    rw [List.filterMap_append, ← List.append_assoc, ← htold.output_eq]
  have hl : Lasting c captured past m (h.output ++ t.filterMap Action.line?) := by
    rw [hm, ho]
    exact Machine.lasting_after c captured past
  refine ⟨hl, ?_, fun name handler => ?_, ?_⟩
  · -- at the end of the script the point is the history extended by it
    rintro rfl
    rw [List.append_nil] at htr
    subst htr
    show (⟨r.machine, _, _⟩ : History) = _
    rw [hr.faithful.machine_eq]
    rfl
  · -- look-ups and registrations answer with the binding at this point
    rw [← hl.get name]
    exact ⟨rfl, rfl⟩
  · rintro a v rfl
    -- the next action fits the machine at this point, where the exit is bound
    have hfit : a.Fits m := hr.faithful.fits htr
    have hexit : m.table.get exitName ≠ none := hl.get exitName ▸ bound?_exitName_ne_none past
    refine ⟨?_, ?_, ?_, ?_⟩
    · rintro rfl
      exact hexit hfit.1
    · rintro rfl
      exact hexit hfit.1
    · rintro name d rfl
      rw [← hl.get name]
      exact hr.called t name d v htr
    · rintro handler rfl
      obtain ⟨d, w, hv, hok⟩ := hr.invoked t handler v htr
      exact ⟨d, w, hv, fun hw => hok (.inr hw)⟩

/-- A routine binds its own name anew before it prints a line. The line is printed all the same, and
    the next script's syscall finds the other routine. -/
theorem rebound_while_running :
    let routines : Code.Routines := fun slot =>
      if slot = 0 then
        .perform (.register "Go" (.routine 1)) fun _ => .perform (.write "first") fun _ => .skip
      else .perform (.write "second") fun _ => .skip
    let go : Script := ⟨.perform (.syscall "Go") fun _ => .skip, []⟩
    let start : Script := ⟨.perform (.register "Go" (.routine 0)) fun _ => go.code, []⟩
    let h := of {} [] routines 1 [start]
    h.output = [.text "first"] ∧ bound? "Go" h.trace = some (.routine 1) ∧
      (h.extend routines 1 go).output = [.text "first", .text "second"] := by
  intro routines go start h
  have htr : (h.run routines 1 go).trace =
      [] ++ .called "Go" 0 :: [.invoked (.routine 1), .wrote (.text "second")] := rfl
  -- The next script calls the name; the theorem tells which handler it finds.
  obtain ⟨-, -, -, hnext⟩ := of_lasting {} [] routines 1 [start] go [] _ htr
  obtain ⟨handler, w, hb, hv⟩ := (hnext _ _ rfl).2.2.1 "Go" 0 rfl
  obtain ⟨rfl, -⟩ : Handler.routine 1 = handler ∧ _ := by simpa using hv
  exact ⟨rfl, by simpa using hb, rfl⟩

end History

end StackMachine
