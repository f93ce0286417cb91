import StackMachine.Proofs.Replay

namespace StackMachine

/-!
# The log as a journal of the stack

The pushes and pops that a run logs are all that happens to the stack, so the log alone tells the
stack at every point of the run from the stack at its start.

* `Log.Event.onValues?`, `Log.replay?` — the pushes and pops of a log, done again on some values.
* `Log.Pending`, `Log.pending` — what a log has pushed and not popped, and how far it has popped
  into what was there before.
* `Run.Journalled m r` — the log of `r`, which began on `m`, is a journal of the stack.
* `Run.Faithful.journalled` — the log of a run whose trace tells the truth is one.
-/

/-! ### Logs

`Log.pending` sums up a log without the values that it began on: how many of these it takes off, and
what it puts in their place.
-/

namespace Log

/-- What an event makes of the values on a stack, the top first. A pop needs one. -/
def Event.onValues? : Event → List Value → Option (List Value)
  | .pushed v _, vs => some (v :: vs)
  | .popped _ _, [] => none
  | .popped _ _, _ :: vs => some vs
  | _, vs => some vs

/-- The stack depth that an event reports. -/
def Event.depth? : Event → Option Nat
  | .pushed _ depth => some depth
  | .popped _ depth => some depth
  | .called _ depth => some depth
  | .returned _ depth => some depth
  | _ => none

/-- The values that the pushes and pops of a log leave of some values, or `none` where a pop meets
    none. -/
def replay? : List Event → List Value → Option (List Value)
  | [], vs => some vs
  | e :: es, vs => (e.onValues? vs).bind (replay? es)

/-- A log in two parts is replayed part by part. -/
theorem replay?_append (es es' : List Event) (vs : List Value) :
    replay? (es ++ es') vs = (replay? es vs).bind (replay? es') := by
  induction es generalizing vs with
  | nil => rfl
  | cons e es ih =>
    rw [List.cons_append, replay?, replay?, Option.bind_assoc]
    congr 1
    funext ws
    exact ih ws

/-- The values pushed and not popped yet, the latest first, and the number of pops that met none. -/
structure Pending where
  values : List Value
  below : Nat
  deriving DecidableEq, Repr

namespace Pending

/-- What is pending after one more event. -/
def after : Pending → Event → Pending
  | ⟨vs, below⟩, .pushed v _ => ⟨v :: vs, below⟩
  | ⟨_ :: vs, below⟩, .popped _ _ => ⟨vs, below⟩
  | ⟨[], below⟩, .popped _ _ => ⟨[], below + 1⟩
  | p, _ => p

/-- The value that a pop has to take: the latest one pending, and if there is none, the next of the
    values that were there at the start. -/
def next? (start : List Value) : Pending → Option Value
  | ⟨v :: _, _⟩ => some v
  | ⟨[], below⟩ => start[below]?

/-- The stack with the pending values above what is left of the values at the start. -/
def onto (start : List Value) (p : Pending) : List Value := p.values ++ start.drop p.below

/-- The value that a pop has to take is the top of the stack that `onto` makes. -/
theorem next?_eq (start : List Value) (p : Pending) : p.next? start = (p.onto start).head? := by
  obtain ⟨_ | ⟨v, vs⟩, below⟩ := p
  · simp [next?, onto, List.head?_drop]
  · rfl

/-- An event does the same to the pending values as to the whole stack. -/
theorem onto_after {start ws : List Value} {p : Pending} {e : Event}
    (h : e.onValues? (p.onto start) = some ws) : (p.after e).onto start = ws := by
  -- all but a pop with nothing pending is seen on the pending values alone
  obtain ⟨vs, below⟩ := p
  cases e with
  | pushed v depth => exact Option.some.inj h
  | popped v depth =>
    cases vs with
    | cons w vs => exact Option.some.inj h
    | nil =>
      -- the pop reaches into the start, whose next value goes
      have hs : (Event.popped v depth).onValues? (start.drop below) = some ws := h
      show start.drop (below + 1) = ws
      cases hd : start.drop below with
      | nil => simp [hd, Event.onValues?] at hs
      | cons w us =>
        rw [hd] at hs
        rw [← List.tail_drop, hd]
        exact Option.some.inj hs
  | _ => exact Option.some.inj h

end Pending

/-- What is pending at the end of a log, which began with nothing pending. -/
def pending (es : List Event) : Pending := es.foldl Pending.after ⟨[], 0⟩

/-- Replaying a log on a stack gives what is pending after it. The induction goes through
    `onto_after`, with the pending values generalised. -/
theorem Pending.onto_foldl {start ws : List Value} {p : Pending} {es : List Event}
    (h : replay? es (p.onto start) = some ws) : (es.foldl Pending.after p).onto start = ws := by
  induction es generalizing p with
  | nil => exact Option.some.inj h
  | cons e es ih =>
    obtain ⟨us, he, hes⟩ := Option.bind_eq_some_iff.1 h
    rw [← Pending.onto_after he] at hes
    exact ih hes

/-- The replayed stack is what is `pending` on what is left of the start. -/
theorem onto_pending {start ws : List Value} {es : List Event} (h : replay? es start = some ws) :
    (pending es).onto start = ws :=
  Pending.onto_foldl (p := ⟨[], 0⟩) h

example : pending [.pushed (.i64 1) 2, .popped (.i64 1) 1, .popped (.bool true) 0] = ⟨[], 1⟩ := by
  decide

end Log

/-! ### Traces and their logs

A trace knows more than its log, as it records what is not logged. A faithful trace changes the
stack only by actions that are logged.
-/

namespace Machine

variable {m : Machine} {a : Action} {t : List Action}

/-- An action that is not logged leaves the stack alone. -/
theorem stack_effect (h : a.event? = none) : (a.effect m).stack = m.stack := by
  cases a <;> first | rfl | cases h

/-- An action that is logged does to the stack what its event says. -/
theorem onValues?_event {e : Log.Event} (hf : a.Fits m) (h : a.event? = some e) :
    e.onValues? m.stack.values = some (a.effect m).stack.values := by
  cases a with
  | popped v depth =>
    obtain rfl := Option.some.inj h
    obtain ⟨vs, hs⟩ := List.head?_eq_some_iff.1 hf.1
    simp [Log.Event.onValues?, Action.effect, hs]
  | _ => first | (obtain rfl := Option.some.inj h; rfl) | cases h

/-- An action that reports a depth reports the one that it leaves. -/
theorem depth_event {e : Log.Event} {depth : Nat} (hf : a.Fits m) (h : a.event? = some e)
    (hd : e.depth? = some depth) : depth = (a.effect m).depth := by
  cases a with
  | pushed v d =>
    obtain rfl := Option.some.inj h
    obtain rfl := Option.some.inj hd
    exact hf
  | popped v d =>
    obtain rfl := Option.some.inj h
    obtain rfl := Option.some.inj hd
    have hm : d + 1 = m.stack.values.length := hf.2.trans m.depth_eq
    simp [depth_eq, Action.effect, ← hm]
  | called name d =>
    obtain rfl := Option.some.inj h
    obtain rfl := Option.some.inj hd
    exact hf.2
  | returned program d =>
    obtain rfl := Option.some.inj h
    obtain rfl := Option.some.inj hd
    exact hf
  -- the other actions have no event, or one without a depth
  | _ =>
    first
    | (obtain rfl := Option.some.inj h; cases hd)
    | cases h

/-- The log of a trace replays to the stack that the trace leaves. -/
theorem replay?_after (h : m.Admits t) :
    Log.replay? (t.filterMap Action.event?) m.stack.values = some (m.after t).stack.values := by
  -- an action that is not logged is skipped on one side and does nothing to the stack on the other
  induction t generalizing m with
  | nil => rfl
  | cons a t ih =>
    have hr := ih h.2
    cases he : a.event? with
    | none =>
      rw [stack_effect he] at hr
      rw [List.filterMap_cons_none he, hr, after_cons]
    | some e =>
      rw [List.filterMap_cons_some he, Log.replay?, onValues?_event h.1 he, after_cons]
      exact hr

end Machine

/-- Where an event stands in the log, there is its action in the trace. -/
theorem Run.trace_of_events {α : Type} {r : Run α} {es es' : List Log.Event} {e : Log.Event}
    (h : r.events = es ++ e :: es') : ∃ t a t', r.trace = t ++ a :: t' ∧
      t.filterMap Action.event? = es ∧ a.event? = some e := by
  obtain ⟨t, u, htr, ht, hu⟩ := List.filterMap_eq_append_iff.1 h
  obtain ⟨s, a, t', rfl, hs, ha, -⟩ := List.filterMap_eq_cons_iff.1 hu
  refine ⟨t ++ s, a, t', by rw [htr, List.append_assoc], ?_, ha⟩
  have hn : s.filterMap Action.event? = [] := List.filterMap_eq_nil_iff.2 hs
  rw [List.filterMap_append, ht, hn, List.append_nil]

/-! ### Journals -/

/-- The log of a run that began on `m` is a journal of the stack. -/
structure Run.Journalled {α : Type} (m : Machine) (r : Run α) : Prop where
  /-- no pop of the log meets an empty stack, and the stack at the end is the one that was left -/
  replay : Log.replay? r.events m.stack.values = some r.machine.stack.values
  /-- a pop takes the latest value pending, or else the next of the stack at the start -/
  popped : ∀ es v depth es', r.events = es ++ .popped v depth :: es' →
    (Log.pending es).next? m.stack.values = some v
  /-- a reported depth is that of the stack replayed with the event -/
  depth : ∀ es e es' depth, r.events = es ++ e :: es' → e.depth? = some depth →
    ∃ vs, Log.replay? (es ++ [e]) m.stack.values = some vs ∧ depth = vs.length

namespace Run.Faithful

variable {α : Type} {m : Machine} {r : Run α}

/-- The machine on which an event of the log was reported: its stack is the one replayed so far, and
    the action behind the event fits it. -/
theorem at_event (h : r.Faithful m) {es es' : List Log.Event} {e : Log.Event}
    (hes : r.events = es ++ e :: es') : ∃ (m' : Machine) (a : Action), a.event? = some e ∧
      a.Fits m' ∧ Log.replay? es m.stack.values = some m'.stack.values := by
  obtain ⟨t, a, t', ht, rfl, ha⟩ := Run.trace_of_events hes
  have hadm : m.Admits (t ++ a :: t') := ht ▸ h.admits
  have hbefore : m.Admits t := (Machine.admits_append.1 hadm).1
  exact ⟨m.after t, a, ha, h.fits ht, Machine.replay?_after hbefore⟩

/-- The log of a `Faithful` run is a journal. -/
theorem journalled (h : r.Faithful m) : r.Journalled m where
  replay := by
    rw [h.machine_eq]
    exact Machine.replay?_after h.admits
  popped es v depth es' hes := by
    obtain ⟨m', a, ha, hf, hr⟩ := h.at_event hes
    -- only a pop reports a pop, and it says that the value was on top
    have htop : m'.stack.top? = some v := by
      cases a <;> cases ha
      exact hf.1
    rw [Log.Pending.next?_eq, Log.onto_pending hr]
    exact htop
  depth es e es' depth hes hd := by
    obtain ⟨m', a, ha, hf, hr⟩ := h.at_event hes
    refine ⟨(a.effect m').stack.values, ?_, ?_⟩
    · rw [Log.replay?_append, hr, Option.bind_some, Log.replay?, Machine.onValues?_event hf ha]
      rfl
    · rw [← Machine.depth_eq]
      exact Machine.depth_event hf ha hd

end Run.Faithful

/-- **The journal of the stack.** However a run of code ends, its log is a journal of the stack, see
    `Run.Journalled`. A pop that finds nothing is not in it and changes nothing. A typed pop takes
    what it finds: it fails on a value of another kind, and answers with the payload of a value of
    its own. -/
theorem Code.run_journal (routines : Routines) (depth : Nat) (code : Code) (args : List Value)
    (m : Machine) :
    (code.run routines depth args m).Journalled m ∧
    (∀ m : Machine, m.stack.values = [] →
      m.pop.events = [] ∧ m.pop.machine = m ∧ m.pop.result = .error (.failed .stackUnderflow)) ∧
    ∀ (m : Machine) (k : Kind),
      (m.stack.values = [] → (m.popAs k).events = [] ∧ (m.popAs k).machine = m ∧
        (m.popAs k).result = .error (.failed .stackUnderflow)) ∧
      ∀ v vs, m.stack.values = v :: vs →
        (m.popAs k).events = [.popped v vs.length] ∧
        (m.popAs k).machine = { m with stack := .ofList vs } ∧
        (v.kind ≠ k → (m.popAs k).result = .error (.failed (.kindMismatch ⟨k, v.kind⟩))) ∧
        (v.kind = k → ∃ a, v = .of k a ∧ (m.popAs k).result = .ok a) := by
  refine ⟨(run_faithful ..).journalled, fun m h => ?_, fun m k => ⟨fun h => ?_, fun v vs h => ?_⟩⟩
  · rw [Machine.pop_of_empty h]
    exact ⟨rfl, rfl, rfl⟩
  · rw [Machine.popAs_of_empty k h]
    exact ⟨rfl, rfl, rfl⟩
  · by_cases hk : v.kind = k
    · obtain ⟨a, rfl⟩ := Value.exists_of_kind hk
      rw [Machine.popAs_of_kind h]
      exact ⟨rfl, rfl, fun hn => absurd hk hn, fun _ => ⟨a, rfl, rfl⟩⟩
    · rw [Machine.popAs_of_kind_ne h hk]
      exact ⟨rfl, rfl, fun _ => rfl, fun he => absurd he hk⟩

/-- A value that is pushed, popped and followed by one more pop, which reaches below it. -/
theorem Code.popped_below_journal :
    let m : Machine := { Machine.boot {} with stack := .ofList [.bool true] }
    let code : Code := .perform (.push (.i64 1)) fun _ => .perform .pop fun _ =>
      .perform (.popAs .i64) fun _ => .skip
    let r := code.run noRoutines 0 [] m
    r.events = [.pushed (.i64 1) 2, .popped (.i64 1) 1, .popped (.bool true) 0] ∧
      (Log.pending [.pushed (.i64 1) 2, .popped (.i64 1) 1]).next? m.stack.values =
        some (.bool true) ∧
      r.machine.stack.values = [] := by
  intro m code r
  have he : r.events = [.pushed (.i64 1) 2, .popped (.i64 1) 1, .popped (.bool true) 0] := rfl
  have h : r.Journalled m := (Code.run_journal noRoutines 0 code [] m).1
  have hr := h.replay
  rw [he] at hr
  exact ⟨he, h.popped _ _ 0 [] he, (Option.some.inj hr).symm⟩

end StackMachine
