import Mathlib.Data.List.Basic
import Mathlib.Data.List.Flatten
import StackMachine.Session.Basic

namespace StackMachine.Session

/-!
# Machines that are driven together

Orders are given to several machines in any sequence. The machines share nothing but the buffer that
they print to, and that only if the session says so. So a machine does what it does alone, whatever
the others do in between and however their orders end.

* `Order`, `Session.carry` — an instruction for one of the machines, and what a session tells of
  orders that are carried out in turn.
* `Session.alone`, `ordersFor`, `reportsOn` — a session of one machine, and what the orders and the
  reports of several machines have for one of them.
* `Single i s t`, `Alike s t` — what the inductions keep: the first machine of `t` is machine `i` of
  `s`, and `t` has the machines of `s`.
* `carry_apart` — machines that are driven together are driven apart.
-/

/-! ### Orders -/

/-- An instruction for one of the machines. -/
structure Order where
  machine : Nat
  instr : Instr

/-- The steps in which an order is carried out: its machine takes over and performs it. -/
def Order.steps (o : Order) : List Step := [.use o.machine, .perform o.instr]

/-- The order for a machine that is the only one, and so the first. -/
def Order.single (o : Order) : Order := { o with machine := 0 }

/-- What is told of an order, and the session that it leaves. -/
def obey (s : Session) (o : Order) : Report × Session :=
  (s.step (.use o.machine)).2.step (.perform o.instr)

/-- What is told of orders that are carried out in turn, and the session that they leave. An order
    that fails or exits does not keep the next one from being carried out. -/
def carry (s : Session) : List Order → List Report × Session
  | [] => ([], s)
  | o :: os => ((s.obey o).1 :: ((s.obey o).2.carry os).1, ((s.obey o).2.carry os).2)

/-- The orders for a machine, as they are given to it alone. -/
def ordersFor (i : Nat) (os : List Order) : List Order :=
  (os.filter fun o => o.machine = i).map Order.single

/-- What is told of the orders for a machine. -/
def reportsOn (i : Nat) (os : List Order) (rs : List Report) : List Report :=
  ((os.zip rs).filter fun p => p.1.machine = i).map Prod.snd

/-- The lines that reports tell of. -/
def printed (rs : List Report) : List Line := rs.flatMap Report.lines

/-- A session of one machine alone, with a buffer of its own. -/
def alone (s : Session) (m : Machine) : Session :=
  { s with machines := [m], shared := false, buffers := [[]], current := 0 }

variable {s t : Session} {o : Order} {i : Nat} {m : Machine}

/-- Orders in two parts are carried out part by part. -/
theorem carry_append (s : Session) (os os' : List Order) :
    (s.carry (os ++ os')).1 = (s.carry os).1 ++ ((s.carry os).2.carry os').1 ∧
      (s.carry (os ++ os')).2 = ((s.carry os).2.carry os').2 := by
  induction os generalizing s with
  | nil => exact ⟨rfl, rfl⟩
  | cons o os ih =>
    obtain ⟨hr, hs⟩ := ih (s.obey o).2
    exact ⟨congrArg ((s.obey o).1 :: ·) hr, hs⟩

/-- There is one report for each order. -/
theorem length_carry (s : Session) (os : List Order) : (s.carry os).1.length = os.length := by
  induction os generalizing s with
  | nil => rfl
  | cons o os ih => exact congrArg (· + 1) (ih (s.obey o).2)

/-- Of the steps of orders every second one is told of as the order is, and they leave the session
    that the orders leave. With it `carry` stands for `Session.run`. -/
theorem run_steps (s : Session) (os : List Order) :
    (∀ k, (s.run (os.flatMap Order.steps)).1[2 * k + 1]? = (s.carry os).1[k]?) ∧
      (s.run (os.flatMap Order.steps)).2 = (s.carry os).2 := by
  induction os generalizing s with
  | nil => exact ⟨fun _ => rfl, rfl⟩
  | cons o os ih =>
    obtain ⟨hr, hs⟩ := ih (s.obey o).2
    refine ⟨fun k => ?_, hs⟩
    cases k with
    | zero => rfl
    | succ k => exact hr k

/-- A report on an order for the machine is one of its reports. -/
theorem reportsOn_cons_self {r : Report} {os : List Order} {rs : List Report}
    (h : o.machine = i) : reportsOn i (o :: os) (r :: rs) = r :: reportsOn i os rs := by
  simp [reportsOn, h]

/-- A report on an order for another machine is not. -/
theorem reportsOn_cons_of_ne {r : Report} {os : List Order} {rs : List Report}
    (h : o.machine ≠ i) : reportsOn i (o :: os) (r :: rs) = reportsOn i os rs := by
  simp [reportsOn, h]

/-- All that is told is told of one machine, when all orders are for it. -/
theorem reportsOn_of_forall {os : List Order} {rs : List Report} (h : ∀ o ∈ os, o.machine = i)
    (hl : rs.length = os.length) : reportsOn i os rs = rs := by
  have hall : (os.zip rs).filter (fun p => p.1.machine = i) = os.zip rs :=
    List.filter_eq_self.2 fun p hp => decide_eq_true (h p.1 (List.of_mem_zip hp).1)
  rw [reportsOn, hall, List.map_snd_zip (Nat.le_of_eq hl)]

/-! ### One order

An order is two steps of a session: to make the machine the current one, and the instruction. What
comes of it is told by the run on that machine alone.
-/

/-- The run of an instruction on a machine of a session. -/
def perform (s : Session) (instr : Instr) (m : Machine) : Run Answer :=
  Code.run s.routines s.nesting (instr.code .done) [] m

/-- What is told of a run. -/
def Report.of (r : Run Answer) : Report :=
  ⟨r.result.map (·.read r.machine), r.machine.stack.depth, r.machine.stack.top?, r.output, r.events⟩

/-- An order for a machine that is there is told of as the run of its instruction, which replaces
    the machine and adds its lines to a buffer. -/
theorem obey_of_machine (h : s.machines[o.machine]? = some m) :
    s.obey o = (.of (s.perform o.instr m), { s with
      machines := s.machines.set o.machine (s.perform o.instr m).machine
      buffers := s.buffers.modify (s.bufferOf o.machine) (· ++ (s.perform o.instr m).output)
      current := o.machine }) := by
  obtain ⟨hlt, -⟩ := List.getElem?_eq_some_iff.1 h
  have hset (m' : Machine) : (s.machines.set o.machine m')[o.machine]? = some m' :=
    List.getElem?_set_self hlt
  simp only [obey, step, h, report, hset]
  rfl

/-- An order for a machine that is not there does nothing. -/
theorem obey_of_none (h : s.machines[o.machine]? = none) :
    s.obey o = (⟨.ok .nothing, 0, none, [], []⟩, { s with current := o.machine }) := by
  simp only [obey, step, h, report]
  rfl

/-- The machine of an order is there or not. Lemmas about `obey` split here. -/
theorem obey_cases (s : Session) (o : Order) :
    (∃ m, s.machines[o.machine]? = some m) ∨ s.machines[o.machine]? = none := by
  cases h : s.machines[o.machine]? with
  | some m => exact .inl ⟨m, rfl⟩
  | none => exact .inr rfl

/-- An order changes neither what handlers run nor how machines print. -/
theorem kept_obey (s : Session) (o : Order) : (s.obey o).2.routines = s.routines ∧
    (s.obey o).2.nesting = s.nesting ∧ (s.obey o).2.shared = s.shared := by
  rcases obey_cases s o with ⟨m, h⟩ | h
  · rw [obey_of_machine h]
    exact ⟨rfl, rfl, rfl⟩
  · rw [obey_of_none h]
    exact ⟨rfl, rfl, rfl⟩

/-- An order for one machine leaves the others alone. -/
theorem machines_obey_of_ne (s : Session) (h : o.machine ≠ i) :
    (s.obey o).2.machines[i]? = s.machines[i]? := by
  rcases obey_cases s o with ⟨m, hm⟩ | hm
  · rw [obey_of_machine hm]
    exact List.getElem?_set_ne h
  · rw [obey_of_none hm]

/-- What is told of an order is added to the buffer that its machine prints to. -/
theorem buffers_obey (s : Session) (o : Order) : (s.obey o).2.buffers =
    s.buffers.modify (s.bufferOf o.machine) (· ++ (s.obey o).1.lines) := by
  rcases obey_cases s o with ⟨m, h⟩ | h
  · rw [obey_of_machine h]
    rfl
  · rw [obey_of_none h]
    refine List.ext_getElem? fun i => ?_
    rw [List.getElem?_modify]
    split <;> simp

/-- What is told of an order, and what becomes of its machine, is up to the machine and to the
    handlers that it runs. Two sessions that agree on these cannot be told apart by the order. -/
theorem obey_congr {o' : Order} (hi : o'.instr = o.instr)
    (hm : t.machines[o'.machine]? = s.machines[o.machine]?) (hr : t.routines = s.routines)
    (hn : t.nesting = s.nesting) :
    (t.obey o').1 = (s.obey o).1 ∧
      (t.obey o').2.machines[o'.machine]? = (s.obey o).2.machines[o.machine]? := by
  rcases obey_cases s o with ⟨m, h⟩ | h
  · have hp : t.perform o'.instr m = s.perform o.instr m := by
      rw [perform, hr, hn, hi]
      rfl
    have h' : t.machines[o'.machine]? = some m := hm.trans h
    obtain ⟨hlt, -⟩ := List.getElem?_eq_some_iff.1 h
    obtain ⟨hlt', -⟩ := List.getElem?_eq_some_iff.1 h'
    rw [obey_of_machine h, obey_of_machine h', hp]
    exact ⟨rfl, (List.getElem?_set_self hlt').trans (List.getElem?_set_self hlt).symm⟩
  · have h' : t.machines[o'.machine]? = none := hm.trans h
    rw [obey_of_none h, obey_of_none h']
    exact ⟨rfl, hm⟩

/-! ### A machine alone

The induction over the orders keeps that the machine alone is the machine among the others
(`Single`). An order for it is done on both sides, any other order on one side only.
-/

/-- The first machine of `t` is machine `i` of `s`, and both sessions run the same handlers. -/
structure Single (i : Nat) (s t : Session) : Prop where
  machine : t.machines[0]? = s.machines[i]?
  routines : t.routines = s.routines
  nesting : t.nesting = s.nesting

/-- A machine that is set `alone` is `Single` among the others. -/
theorem single_alone (h : s.machines[i]? = some m) : Single i s (s.alone m) :=
  ⟨h.symm, rfl, rfl⟩

/-- An order for the machine is told of in the same way when it is given to the machine alone. -/
theorem Single.own (h : Single i s t) (ho : o.machine = i) :
    (t.obey o.single).1 = (s.obey o).1 ∧ Single i (s.obey o).2 (t.obey o.single).2 := by
  subst ho
  obtain ⟨hr, hn, -⟩ := kept_obey s o
  obtain ⟨hr', hn', -⟩ := kept_obey t o.single
  have hi : o.single.instr = o.instr := rfl
  obtain ⟨hreport, hm⟩ := obey_congr hi h.machine h.routines h.nesting
  refine ⟨hreport, hm, ?_, ?_⟩
  · rw [hr, hr', h.routines]
  · rw [hn, hn', h.nesting]

/-- An order for another machine is none for the machine alone. -/
theorem Single.other (h : Single i s t) (ho : o.machine ≠ i) : Single i (s.obey o).2 t := by
  obtain ⟨hr, hn, -⟩ := kept_obey s o
  exact ⟨h.machine.trans (machines_obey_of_ne s ho).symm, h.routines.trans hr.symm,
    h.nesting.trans hn.symm⟩

/-- **A machine by itself.** Of orders for all machines, the machine alone is given its own, and
    answers as it does among the others. `Single` is kept at every order, by `own` or by `other`. -/
theorem Single.carry (h : Single i s t) (os : List Order) :
    (t.carry (ordersFor i os)).1 = reportsOn i os (s.carry os).1 ∧
      Single i (s.carry os).2 (t.carry (ordersFor i os)).2 := by
  induction os generalizing s t with
  | nil => exact ⟨rfl, h⟩
  | cons o os ih =>
    by_cases ho : o.machine = i
    · -- an order for the machine is given to it alone as well
      obtain ⟨hr, hs⟩ := h.own ho
      obtain ⟨hrs, hss⟩ := ih hs
      have hown : ordersFor i (o :: os) = o.single :: ordersFor i os := by
        simp [ordersFor, ho]
      rw [hown]
      refine ⟨?_, hss⟩
      show (t.obey o.single).1 :: _ = reportsOn i (o :: os) ((s.obey o).1 :: _)
      rw [reportsOn_cons_self ho, hr, hrs]
    · -- an order for another machine is not given to it, and changes nothing that it can tell
      obtain ⟨hrs, hss⟩ := ih (h.other ho)
      have hother : ordersFor i (o :: os) = ordersFor i os := by
        simp [ordersFor, ho]
      rw [hother]
      refine ⟨?_, hss⟩
      show _ = reportsOn i (o :: os) ((s.obey o).1 :: _)
      rw [reportsOn_cons_of_ne ho, hrs]

/-! ### Buffers

A shared buffer gains the lines of every report, and a buffer of its own those of one machine.
-/

/-- A buffer that all machines print to gains all lines, in the order in which they are told of. -/
theorem buffers_carry_of_shared (hs : s.shared = true) (os : List Order) :
    (s.carry os).2.buffers[0]? = s.buffers[0]?.map (· ++ printed (s.carry os).1) := by
  induction os generalizing s with
  | nil =>
    show s.buffers[0]? = _
    cases s.buffers[0]? <;> simp [Session.carry, printed]
  | cons o os ih =>
    have hb : s.bufferOf o.machine = 0 := by simp [bufferOf, hs]
    have ho := ih ((kept_obey s o).2.2.trans hs)
    rw [buffers_obey, hb, List.getElem?_modify_eq] at ho
    show ((s.obey o).2.carry os).2.buffers[0]? = _
    rw [ho, Option.map_eq_map, Option.map_map]
    simp [Session.carry, printed, Function.comp_def]

/-- A buffer of a machine's own gains the lines that the machine prints. -/
theorem buffers_carry_of_own (hs : s.shared = false) (i : Nat) (os : List Order) :
    (s.carry os).2.buffers[i]? =
      s.buffers[i]?.map (· ++ printed (reportsOn i os (s.carry os).1)) := by
  induction os generalizing s with
  | nil =>
    show s.buffers[i]? = _
    cases s.buffers[i]? <;> simp [Session.carry, printed, reportsOn]
  | cons o os ih =>
    have hb : s.bufferOf o.machine = o.machine := by simp [bufferOf, hs]
    -- the induction hypothesis is about the session after the first order
    have ho := ih ((kept_obey s o).2.2.trans hs)
    rw [buffers_obey, hb] at ho
    show ((s.obey o).2.carry os).2.buffers[i]? =
      s.buffers[i]?.map (· ++ printed (reportsOn i (o :: os) ((s.obey o).1 :: _)))
    by_cases hi : o.machine = i
    · rw [hi, List.getElem?_modify_eq] at ho
      rw [ho, reportsOn_cons_self hi, Option.map_eq_map, Option.map_map]
      simp [printed, Function.comp_def]
    · rw [List.getElem?_modify_ne _ _ hi] at ho
      rw [ho, reportsOn_cons_of_ne hi]

/-- The lines of one machine are among the lines of all, in their order. -/
theorem printed_reportsOn_sublist (i : Nat) (os : List Order) (rs : List Report) :
    (printed (reportsOn i os rs)).Sublist (printed rs) := by
  have h : (reportsOn i os rs).Sublist rs := by
    induction os generalizing rs with
    | nil => exact List.nil_sublist rs
    | cons o os ih =>
      cases rs with
      | nil => exact .slnil
      | cons r rs =>
        by_cases ho : o.machine = i
        · rw [reportsOn_cons_self ho]
          exact (ih rs).cons_cons r
        · rw [reportsOn_cons_of_ne ho]
          exact (ih rs).cons r
  exact h.flatMap Report.lines

/-! ### Orders that change places

Two orders for different machines set different entries of a list, which commutes. The reports come
out the same but in the other order.
-/

/-- The sessions have the same machines, which run the same handlers. Their buffers may differ. -/
structure Alike (s t : Session) : Prop where
  machines : t.machines = s.machines
  routines : t.routines = s.routines
  nesting : t.nesting = s.nesting

/-- Sessions that are alike answer an order alike and stay so. -/
theorem Alike.obey (h : Alike s t) (o : Order) :
    (t.obey o).1 = (s.obey o).1 ∧ Alike (s.obey o).2 (t.obey o).2 := by
  obtain ⟨hr, hn, -⟩ := kept_obey s o
  obtain ⟨hr', hn', -⟩ := kept_obey t o
  have hm (i : Nat) : t.machines[i]? = s.machines[i]? := by rw [h.machines]
  obtain ⟨hrep, hself⟩ := obey_congr rfl (hm o.machine) h.routines h.nesting
  refine ⟨hrep, List.ext_getElem? fun i => ?_, ?_, ?_⟩
  · by_cases hi : o.machine = i
    · subst hi
      exact hself
    · rw [machines_obey_of_ne t hi, machines_obey_of_ne s hi, hm]
  · rw [hr, hr', h.routines]
  · rw [hn, hn', h.nesting]

/-- Sessions that are `Alike` tell the same of orders in turn, and stay alike. -/
theorem Alike.carry (h : Alike s t) (os : List Order) :
    (t.carry os).1 = (s.carry os).1 ∧ (t.carry os).2.machines = (s.carry os).2.machines := by
  induction os generalizing s t with
  | nil => exact ⟨rfl, h.machines⟩
  | cons o os ih =>
    obtain ⟨hr, hs⟩ := h.obey o
    obtain ⟨hrs, hm⟩ := ih hs
    exact ⟨List.cons_eq_cons.2 ⟨hr, hrs⟩, hm⟩

/-- Orders for two machines can change places: each is answered as before, and the sessions after
    both are `Alike`. -/
theorem obey_comm (s : Session) {a b : Order} (hab : a.machine ≠ b.machine) :
    ((s.obey b).2.obey a).1 = (s.obey a).1 ∧ ((s.obey a).2.obey b).1 = (s.obey b).1 ∧
      Alike ((s.obey a).2.obey b).2 ((s.obey b).2.obey a).2 := by
  obtain ⟨hra, hna, -⟩ := kept_obey s a
  obtain ⟨hrb, hnb, -⟩ := kept_obey s b
  obtain ⟨hrab, hnab, -⟩ := kept_obey (s.obey a).2 b
  obtain ⟨hrba, hnba, -⟩ := kept_obey (s.obey b).2 a
  -- each of the two finds its machine as it was before the other one
  obtain ⟨ha, hma⟩ := obey_congr rfl (machines_obey_of_ne s hab.symm) hrb hnb
  obtain ⟨hb, hmb⟩ := obey_congr rfl (machines_obey_of_ne s hab) hra hna
  refine ⟨ha, hb, List.ext_getElem? fun i => ?_, ?_, ?_⟩
  · by_cases hia : a.machine = i
    · subst hia
      rw [hma, machines_obey_of_ne _ hab.symm]
    · rw [machines_obey_of_ne _ hia]
      by_cases hib : b.machine = i
      · subst hib
        exact hmb.symm
      · rw [machines_obey_of_ne _ hib, machines_obey_of_ne _ hib, machines_obey_of_ne _ hia]
  · rw [hrab, hrba, hra, hrb]
  · rw [hnab, hnba, hna, hnb]

/-- Reports on orders that change places change places, and the machines are the same. -/
theorem carry_swap (s : Session) (pre : List Order) {a b : Order} (post : List Order)
    (hab : a.machine ≠ b.machine) :
    (s.carry (pre ++ b :: a :: post)).2.machines = (s.carry (pre ++ a :: b :: post)).2.machines ∧
    ∃ rs ra rb rs', rs.length = pre.length ∧
      (s.carry (pre ++ a :: b :: post)).1 = rs ++ ra :: rb :: rs' ∧
      (s.carry (pre ++ b :: a :: post)).1 = rs ++ rb :: ra :: rs' := by
  obtain ⟨hab₁, hab₂⟩ := carry_append s pre (a :: b :: post)
  obtain ⟨hba₁, hba₂⟩ := carry_append s pre (b :: a :: post)
  rw [hab₁, hab₂, hba₁, hba₂]
  generalize hs : (s.carry pre).2 = s'
  obtain ⟨ha, hb, hlike⟩ := obey_comm s' hab
  obtain ⟨hrs, hm⟩ := hlike.carry post
  refine ⟨hm, (s.carry pre).1, (s'.obey a).1, (s'.obey b).1,
    (((s'.obey a).2.obey b).2.carry post).1, length_carry s pre, ?_, ?_⟩
  · show _ ++ (s'.obey a).1 :: ((s'.obey a).2.obey b).1 :: _ = _
    rw [hb]
  · show _ ++ (s'.obey b).1 :: ((s'.obey b).2.obey a).1 :: _ = _
    rw [ha, hrs]

/-- Reports on orders in two parts are those on the parts. -/
theorem reportsOn_append {os os' : List Order} {rs rs' : List Report}
    (h : rs.length = os.length) :
    reportsOn i (os ++ os') (rs ++ rs') = reportsOn i os rs ++ reportsOn i os' rs' := by
  rw [reportsOn, List.zip_append h.symm, List.filter_append, List.map_append]
  rfl

/-- No machine notices that orders for two machines change places. -/
theorem reportsOn_swap {pre post : List Order} {a b : Order} {rs rs' : List Report}
    {ra rb : Report} (hl : rs.length = pre.length) (hab : a.machine ≠ b.machine) (i : Nat) :
    reportsOn i (pre ++ b :: a :: post) (rs ++ rb :: ra :: rs') =
      reportsOn i (pre ++ a :: b :: post) (rs ++ ra :: rb :: rs') := by
  rw [reportsOn_append hl, reportsOn_append hl]
  congr 1
  by_cases hia : a.machine = i
  · have hib : b.machine ≠ i := fun h => hab (hia.trans h.symm)
    rw [reportsOn_cons_of_ne hib, reportsOn_cons_self hia, reportsOn_cons_self hia,
      reportsOn_cons_of_ne hib]
  · rw [reportsOn_cons_of_ne (o := a) hia]
    by_cases hib : b.machine = i
    · rw [reportsOn_cons_self hib, reportsOn_cons_self hib, reportsOn_cons_of_ne hia]
    · rw [reportsOn_cons_of_ne hib, reportsOn_cons_of_ne hib, reportsOn_cons_of_ne hia]

/-! ### All machines -/

/-- **Machines do not meet.** Machines that are driven together are driven apart: what is told of
    the orders for a machine and what becomes of it is what its own orders come to when it is
    `alone`. A buffer that the machines share gains the lines of all orders in turn, and no machine
    notices when orders for two of them change places. -/
theorem carry_apart (s : Session) (os : List Order) :
    ((∀ k, (s.run (os.flatMap Order.steps)).1[2 * k + 1]? = (s.carry os).1[k]?) ∧
      (s.run (os.flatMap Order.steps)).2 = (s.carry os).2) ∧
    (∀ i m, s.machines[i]? = some m →
      let solo := (s.alone m).carry (ordersFor i os)
      reportsOn i os (s.carry os).1 = solo.1 ∧
      (s.carry os).2.machines[i]? = solo.2.machines[0]? ∧
      solo.2.buffers[0]? = some (printed solo.1) ∧
      (s.shared = false →
        (s.carry os).2.buffers[i]? = s.buffers[i]?.map (· ++ printed solo.1)) ∧
      (printed solo.1).Sublist (printed (s.carry os).1)) ∧
    (s.shared = true →
      (s.carry os).2.buffers[0]? = s.buffers[0]?.map (· ++ printed (s.carry os).1)) ∧
    ∀ pre a b post, os = pre ++ a :: b :: post → a.machine ≠ b.machine →
      let swapped := pre ++ b :: a :: post
      (s.carry swapped).2.machines = (s.carry os).2.machines ∧
      (s.shared = false → (s.carry swapped).2.buffers = (s.carry os).2.buffers) ∧
      ∃ rs ra rb rs', rs.length = pre.length ∧
        (s.carry os).1 = rs ++ ra :: rb :: rs' ∧ (s.carry swapped).1 = rs ++ rb :: ra :: rs' ∧
        (s.shared = true → (s.carry swapped).2.buffers[0]? = s.buffers[0]?.map fun ls =>
          ls ++ printed rs ++ rb.lines ++ ra.lines ++ printed rs') := by
  refine ⟨run_steps s os, fun i m hm => ?_, fun hs => buffers_carry_of_shared hs os, ?_⟩
  · obtain ⟨hr, hone⟩ := (single_alone hm).carry os
    refine ⟨hr.symm, hone.machine.symm, ?_, fun hs => ?_, ?_⟩
    · -- alone, the machine is the first one, and all orders are for it
      have hown : ∀ o ∈ ordersFor i os, o.machine = 0 := by
        intro o ho
        obtain ⟨o', -, rfl⟩ := List.mem_map.1 ho
        rfl
      have hb := buffers_carry_of_own (s := s.alone m) rfl 0 (ordersFor i os)
      rw [reportsOn_of_forall hown (length_carry _ _)] at hb
      exact hb
    · rw [hr]
      exact buffers_carry_of_own hs i os
    · rw [hr]
      exact printed_reportsOn_sublist i os _
  · rintro pre a b post rfl hab
    obtain ⟨hm, rs, ra, rb, rs', hl, hos, hsw⟩ := carry_swap s pre post hab
    refine ⟨hm, fun hs => ?_, rs, ra, rb, rs', hl, hos, hsw, fun hs => ?_⟩
    · refine List.ext_getElem? fun i => ?_
      rw [buffers_carry_of_own hs, buffers_carry_of_own hs, hos, hsw, reportsOn_swap hl hab]
    · rw [buffers_carry_of_shared hs, hsw]
      simp [printed, List.append_assoc]

/-- Two machines take turns. A pop of the second one fails, a syscall of the first one prints a line
    and the same syscall of the second one is passed over, and the first one exits before its last
    line. In between, two orders change places. -/
theorem taking_turns_apart :
    let s (shared : Bool) := boot [{}, { unknownSyscall := .ignore }]
      (fun _ => .perform (.write "routine") fun _ => .skip) shared
    let pre : List Order := [⟨0, .perform (.register "Go" (.routine 0))⟩, ⟨1, .perform .pop⟩]
    let a : Order := ⟨0, .perform (.syscall "Go")⟩
    let b : Order := ⟨1, .perform (.write "second")⟩
    let post : List Order := [⟨1, .perform (.syscall "Go")⟩, ⟨0, .perform (.exit 3)⟩,
      ⟨0, .perform (.write "first")⟩]
    ((s true).carry (pre ++ a :: b :: post)).2.buffers[0]? =
        some [.text "routine", .text "second", .text "first"] ∧
      ((s true).carry (pre ++ b :: a :: post)).2.buffers[0]? =
        some [.text "second", .text "routine", .text "first"] ∧
      ((s false).carry (pre ++ b :: a :: post)).2.buffers =
        [[.text "routine", .text "first"], [.text "second"]] ∧
      ((s false).carry (pre ++ a :: b :: post)).2.buffers[1]? = some [.text "second"] ∧
      reportsOn 1 (pre ++ a :: b :: post) ((s true).carry (pre ++ a :: b :: post)).1 =
        ((boot [{ unknownSyscall := .ignore }] (s true).routines false).carry
          (ordersFor 1 (pre ++ a :: b :: post))).1 ∧
      ((s true).carry (pre ++ a :: b :: post)).2.machines[1]? =
        some (Machine.boot { unknownSyscall := .ignore }) := by
  intro s pre a b post
  have hone (shared : Bool) : (s shared).machines[1]? =
      some (Machine.boot { unknownSyscall := .ignore }) := rfl
  obtain ⟨-, hsolo, hshared, hswap⟩ := carry_apart (s true) (pre ++ a :: b :: post)
  obtain ⟨-, hsolo', -, hswap'⟩ := carry_apart (s false) (pre ++ a :: b :: post)
  obtain ⟨hreports, hmachine, -⟩ := hsolo 1 _ (hone true)
  obtain ⟨-, -, -, hbuffer, -⟩ := hsolo' 1 _ (hone false)
  obtain ⟨-, -, rs, ra, rb, rs', hl, hrs, -, hb⟩ := hswap pre a b post rfl (by decide)
  obtain ⟨-, hb', -⟩ := hswap' pre a b post rfl (by decide)
  refine ⟨(hshared rfl).trans (by decide +kernel), ?_, (hb' rfl).trans (by decide +kernel),
    (hbuffer rfl).trans (by decide +kernel), hreports, hmachine.trans (by decide +kernel)⟩
  -- the lines of the two orders are known from the reports of the first sequence
  obtain ⟨r, r', rfl⟩ := List.length_eq_two.1 hl
  have hlines : ((s true).carry (pre ++ a :: b :: post)).1.map Report.lines =
      [[], [], [.text "routine"], [.text "second"], [], [], [.text "first"]] := by
    decide +kernel
  rw [hrs] at hlines
  obtain ⟨hr, hr', hra, hrb, hrs'⟩ := by simpa using hlines
  have hnone : (s true).buffers[0]? = some [] := rfl
  rw [hb rfl, hnone]
  simp [printed, List.flatMap_def, hr, hr', hra, hrb, hrs']

end StackMachine.Session
