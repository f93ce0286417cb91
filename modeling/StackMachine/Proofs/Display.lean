import StackMachine.Proofs.Readability
import StackMachine.Proofs.Registrations
import StackMachine.Proofs.Spelling

namespace StackMachine

open Text (Layout IsWord isBare)

/-!
# What the text of a machine tells

The text that a machine is shown as tells its stack, the names of its syscalls and its
configuration, and nothing else: what is bound to the names, the order in which they came to be
bound and the time leave no trace. Names are in quotes, so none can be taken for the end of the list
that it is in.

* `Value.layout_inj`, `Table.layout_inj`, `Config.layout_inj` — the layouts of the parts.
* `Machine.legible_layout`, `Machine.layout_inj` — the layout of the whole can be read back.
* `Machine.layout_tells` — what two machines have in common if their texts are the same.
-/

/-! ### Parts

Each part of a machine is shown as a layout. Two things are shown of each: that the layout is
legible, so that its text tells it, and that it tells the part.
-/

/-- The decimal text of an integer is a word, the minus sign included. -/
theorem isWord_toString_int (n : Int) : IsWord (toString n) := by
  have hdigits : ∀ c ∈ Nat.toDigits 10 n.natAbs, isBare c := fun c hc =>
    Text.isBare_of_isDigit (Nat.isDigit_of_mem_toDigits (by decide) (by decide) hc)
  rw [IsWord, toList_toString]
  split
  · exact ⟨Nat.toDigits_ne_nil, List.all_eq_true.2 hdigits⟩
  · exact ⟨List.cons_ne_nil _ _, List.all_eq_true.2 (List.forall_mem_cons.2 ⟨by decide, hdigits⟩)⟩

namespace Value

/-- The payload of a value is shown as a word. -/
theorem isWord_payloadText (v : Value) : IsWord v.payloadText := by
  cases v with
  | i64 n => exact isWord_toString_int _
  | bool b => cases b <;> decide

/-- A value is legible: it is a constructor on a word. -/
theorem legible_layout (v : Value) : v.layout.Legible := by
  have hkind : IsWord v.kind.name := by cases v.kind <;> decide
  exact .apply hkind (List.forall_mem_singleton.2 (.word v.isWord_payloadText))

/-- Values are told by their layouts: by the kind in front and the payload. -/
theorem layout_inj {v w : Value} : v.layout = w.layout ↔ v = w := by
  refine ⟨fun h => ?_, congrArg _⟩
  simp only [layout, Layout.apply.injEq, List.cons.injEq, Layout.word.injEq, and_true] at h
  obtain ⟨hkind, hpayload⟩ := h
  apply Option.some.inj
  rw [← read?_payloadText_self v, ← read?_payloadText_self w, Kind.name_inj.1 hkind, hpayload]

end Value

/-- The two policies are told by their words. -/
theorem Policy.layout_inj {p q : Policy} : p.layout = q.layout ↔ p = q := by
  cases p <;> cases q <;> simp [layout]

namespace Config

theorem legible_layout (c : Config) : c.layout.Legible := by
  have hpolicy : c.unknownSyscall.layout.Legible := by
    cases c.unknownSyscall <;> exact .word (by decide)
  refine .record (by decide) ?_ ?_
  · simp only [List.forall_mem_cons, List.not_mem_nil, false_implies, implies_true, and_true]
    exact ⟨by decide, by decide⟩
  · simp only [List.forall_mem_cons, List.not_mem_nil, false_implies, implies_true, and_true]
    exact ⟨hpolicy, Layout.legible_number _⟩

/-- Configurations are told by their layouts, field by field. -/
theorem layout_inj {c d : Config} : c.layout = d.layout ↔ c = d := by
  refine ⟨fun h => ?_, congrArg _⟩
  obtain ⟨p, n⟩ := c
  obtain ⟨q, m⟩ := d
  simp only [layout, Layout.record.injEq, List.cons.injEq, Prod.mk.injEq, true_and, and_true,
    Policy.layout_inj, Layout.number_inj, UInt64.toNat_inj] at h
  obtain ⟨rfl, rfl⟩ := h
  rfl

end Config

namespace Table

variable {α : Type} {t u : Table α}

theorem legible_layout (t : Table α) : t.layout.Legible := by
  refine .set fun l hl => ?_
  obtain ⟨n, -, rfl⟩ := List.mem_map.1 hl
  exact .quoted n

/-- Two tables list the same names if the same ones are bound, since the listing has its order. -/
theorem names_eq_iff : t.names = u.names ↔ ∀ n, t.contains n ↔ u.contains n := by
  simp only [contains_iff_mem_names]
  refine ⟨fun h n => by rw [h], fun h => ?_⟩
  have hperm : t.names.Perm u.names := perm_names t.names_nodup fun n => by
    rw [h, ← mem_names_iff]
  exact eq_names_of_perm hperm t.names_sorted

/-- Tables are told by their layouts, up to what the names are bound to. -/
theorem layout_inj : t.layout = u.layout ↔ ∀ n, t.contains n ↔ u.contains n := by
  have hquoted : Function.Injective Layout.quoted := fun _ _ => Layout.quoted_inj
  rw [layout, layout, Layout.set.injEq, List.map_inj_right hquoted, names_eq_iff]

end Table

/-! ### Machines -/

namespace Machine

/-- A machine is legible. -/
theorem legible_layout (m : Machine) : m.layout.Legible := by
  have hstack : (Layout.list (m.stack.values.reverse.map Value.layout)).Legible := by
    refine .list fun l hl => ?_
    obtain ⟨v, -, rfl⟩ := List.mem_map.1 hl
    exact v.legible_layout
  refine .record (by decide) ?_ ?_
  · simp only [List.forall_mem_cons, List.not_mem_nil, false_implies, implies_true, and_true]
    exact ⟨by decide, by decide, by decide⟩
  · simp only [List.forall_mem_cons, List.not_mem_nil, false_implies, implies_true, and_true]
    exact ⟨hstack, m.table.legible_layout, m.config.legible_layout⟩

/-- Machines are told by their layouts, up to what `Machine.layout` leaves out. -/
theorem layout_inj {m m' : Machine} : m.layout = m'.layout ↔ m.stack = m'.stack ∧
    (∀ n, m.table.contains n ↔ m'.table.contains n) ∧ m.config = m'.config := by
  have hvalues : Function.Injective Value.layout := fun v w => Value.layout_inj.1
  have hstack : m.stack.values = m'.stack.values ↔ m.stack = m'.stack :=
    ⟨Stack.ext, congrArg Stack.values⟩
  simp only [layout, Layout.record.injEq, Layout.list.injEq, List.cons.injEq, Prod.mk.injEq,
    true_and, and_true, List.map_inj_right hvalues, List.reverse_inj, hstack, Table.layout_inj,
    Config.layout_inj]

end Machine

/-- Registrations add the names that they are of, and no registration takes one away. -/
theorem Table.contains_registerAll {α : Type} (t : Table α) (rs : List (String × α)) (n : String) :
    (t.registerAll rs).contains n ↔ n ∈ rs.map Prod.fst ∨ t.contains n := by
  have hlast : (last? rs n).isSome ↔ n ∈ rs.map Prod.fst := by
    induction rs with
    | nil => simp [last?_nil]
    | cons r rs ih => rw [last?_cons, Option.isSome_or]; grind
  rw [contains, get_registerAll, bound, Option.isSome_or, Bool.or_eq_true, hlast, contains]

namespace Machine

/-- **The text of a machine.** On one line or in many, the texts of two machines are the same if and
    only if they have the same stack, the same names and the same configuration. So it does not
    matter to what the names were bound, in which order or how often, nor how long ago the machine
    was built. The texts of two tables are the same if and only if they have the same names. -/
theorem layout_tells :
    (∀ m m' : Machine,
      let alike := m.stack = m'.stack ∧ (∀ n, m.table.contains n ↔ m'.table.contains n) ∧
        m.config = m'.config
      (m.layout.line = m'.layout.line ↔ alike) ∧ (m.layout.block = m'.layout.block ↔ alike)) ∧
    (∀ (m : Machine) (start : Table Handler) (rs rs' : List (String × Handler)) (elapsed : Nat),
      (∀ n, n ∈ rs.map Prod.fst ↔ n ∈ rs'.map Prod.fst) →
      let before := { m with table := start.registerAll rs }
      let after := { m with table := start.registerAll rs', elapsed }
      before.layout.line = after.layout.line ∧ before.layout.block = after.layout.block) ∧
    ∀ t u : Table Handler,
      let alike := ∀ n, t.contains n ↔ u.contains n
      (t.layout.line = u.layout.line ↔ alike) ∧ (t.layout.block = u.layout.block ↔ alike) := by
  refine ⟨fun m m' => ?_, fun m start rs rs' elapsed hnames => ?_, fun t u => ?_⟩
  · have hline := Layout.line_inj m.legible_layout m'.legible_layout
    have hblock := Layout.block_inj m.legible_layout m'.legible_layout
    exact ⟨hline.trans layout_inj, hblock.trans layout_inj⟩
  · intro before after
    -- A layout shows names only, so it does not depend on what they are bound to, nor on the time.
    have hlayout : before.layout = after.layout := by
      refine layout_inj.2 ⟨rfl, fun n => ?_, rfl⟩
      rw [Table.contains_registerAll, Table.contains_registerAll, hnames]
    rw [hlayout]
    exact ⟨rfl, rfl⟩
  · have hline := Layout.line_inj t.legible_layout u.legible_layout
    have hblock := Layout.block_inj t.legible_layout u.legible_layout
    exact ⟨hline.trans Table.layout_inj, hblock.trans Table.layout_inj⟩

/-- One name that imitates two of them, a quote and a comma in it; and two names that are bound in
    another order, to other things. -/
theorem layout_tells_imitation :
    let one : Table Handler := Table.empty.register "a\", \"b" .exit
    let rs : List (String × Handler) := [("a", .exit), ("b", .exit)]
    let rs' : List (String × Handler) := [("b", .exit), ("a", .exit), ("b", .routine 3)]
    let two := Table.empty.registerAll rs
    (∀ n, n ∈ rs.map Prod.fst ↔ n ∈ rs'.map Prod.fst) ∧
    one.layout.line ≠ two.layout.line ∧ one.layout.block ≠ two.layout.block ∧
    { boot {} with table := one }.layout.line ≠ { boot {} with table := two }.layout.line ∧
    { boot {} with table := two }.layout.block =
      { boot {} with table := Table.empty.registerAll rs', elapsed := 7 }.layout.block := by
  intro one rs rs' two
  have hnames : ∀ n, n ∈ rs.map Prod.fst ↔ n ∈ rs'.map Prod.fst := by
    intro n
    simp only [rs, rs', List.map_cons, List.map_nil, List.mem_cons, List.not_mem_nil]
    grind
  -- The one name is not the two: `a` is bound only in the second table.
  have hother : ¬ ∀ n, one.contains n ↔ two.contains n := fun h => absurd (h "a") (by decide)
  obtain ⟨hmachines, hregistered, htables⟩ := layout_tells
  refine ⟨hnames, fun h => hother ((htables one two).1.1 h),
    fun h => hother ((htables one two).2.1 h), fun h => hother ?_,
    (hregistered (boot {}) .empty rs rs' 7 hnames).2⟩
  exact ((hmachines _ _).1.1 h).2.1

end Machine

end StackMachine
