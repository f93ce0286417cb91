import Mathlib.Data.List.Nodup
import StackMachine.Machine.Run

namespace StackMachine

/-!
# Tables after registrations

A table is built by registrations, one after another. What it binds a name to is told by the last
registration of that name, and how it lists its names is told by which names are bound: the order in
which they came to be bound leaves no trace.

* `Table.registerAll t rs` — the table `t` after the registrations `rs`.
* `Table.bound start rs n` — what the last registration of `n` binds it to, or else the table that
  the registrations began with.
* `Table.IsMap t f` — `t` is the finite map `f`, and lists the names where `f` is defined in the
  order of their bytes.
* `Table.registerAll_canonical` — so is every table after any registrations, and two of them that
  bind alike cannot be told apart.
-/

/-- Quoted texts are shown one by one. -/
theorem Text.Layout.lines_map_quoted (names : List String) :
    lines (names.map quoted) = names.map quote := by
  induction names with
  | nil => rfl
  | cons n names ih => rw [List.map_cons, List.map_cons, lines, ih, quoted, line]

namespace Table

variable {α : Type}

/-! ### Registrations in turn

The last registration of a name is found from the right, the table is built from the left;
`registerAll` of a list with one more at its end is one more `register`.
-/

/-- The table after some registrations, the first of them first. -/
def registerAll (t : Table α) (rs : List (String × α)) : Table α :=
  rs.foldl (fun t r => t.register r.1 r.2) t

/-- What the last of some registrations of a name binds it to. -/
def last? (rs : List (String × α)) (n : String) : Option α := rs.reverse.lookup n

/-- What a name is bound to after some registrations that began with the table `start`. -/
def bound (start : Table α) (rs : List (String × α)) (n : String) : Option α :=
  (last? rs n).or (start.get n)

/-- Unfolding lemma: without registrations there is no last one. -/
theorem last?_nil (n : String) : last? ([] : List (String × α)) n = none := rfl

/-- The first registration counts only if none behind it is of the same name. -/
theorem last?_cons (m : String) (a : α) (rs : List (String × α)) (n : String) :
    last? ((m, a) :: rs) n = (last? rs n).or (if n = m then some a else none) := by
  have hone : [(m, a)].lookup n = if n = m then some a else none := by
    by_cases h : n = m
    · simp [h]
    · rw [List.lookup_cons, beq_false_of_ne h, if_neg h]
      rfl
  rw [last?, List.reverse_cons, List.lookup_append, hone, last?]

/-- After registrations in turn `get` finds what `bound` says. -/
theorem get_registerAll (t : Table α) (rs : List (String × α)) (n : String) :
    (t.registerAll rs).get n = bound t rs n := by
  -- the first registration has been done when the others begin, so the table is generalised
  induction rs generalizing t with
  | nil => rfl
  | cons r rs ih =>
    obtain ⟨m, a⟩ := r
    have hreg : (t.register m a).get n = (if n = m then some a else none).or (t.get n) := by
      rw [get_register]
      by_cases h : n = m <;> simp [h]
    show ((t.register m a).registerAll rs).get n = _
    rw [ih, bound, bound, hreg, last?_cons, Option.or_assoc]

/-- A table is determined by what it binds, see `Table.ext_get`. So registrations that bind alike
    make the same table. -/
theorem registerAll_eq {start start' : Table α} {rs rs' : List (String × α)}
    (h : ∀ n, bound start' rs' n = bound start rs n) :
    start'.registerAll rs' = start.registerAll rs := by
  apply ext_get
  intro n
  rw [get_registerAll, get_registerAll, h n]

/-! ### Listings

Names are listed in strictly increasing order, and a list like that is known by its members. So the
listing depends on which names are bound and on nothing else.
-/

/-- The listing increases strictly in `NameLt`. -/
theorem names_pairwise (t : Table α) : t.names.Pairwise NameLt := by
  rw [names, List.pairwise_map]
  exact t.ordered

/-- No name of the listing comes before an earlier one, which is how a sort is specified. -/
theorem names_sorted (t : Table α) : t.names.Pairwise fun m n => ¬ NameLt n m := by
  apply t.names_pairwise.imp
  intro m n h h'
  exact NameLt.irrefl m (h.trans h')

/-- No name is listed twice. -/
theorem names_nodup (t : Table α) : t.names.Nodup := t.names_pairwise.imp NameLt.ne

/-- Exactly the bound names are listed. -/
theorem mem_names_iff (t : Table α) (n : String) : n ∈ t.names ↔ t.get n ≠ none := by
  rw [← contains_iff_mem_names, contains, Option.isSome_iff_ne_none]

/-- Bound names that were come by in any order are a permutation of the listing. -/
theorem perm_names {t : Table α} {ks : List String} (hk : ks.Nodup)
    (hm : ∀ n, n ∈ ks ↔ t.get n ≠ none) : ks.Perm t.names := by
  rw [List.perm_ext_iff_of_nodup hk t.names_nodup]
  intro n
  rw [hm, mem_names_iff]

/-- Whatever puts them in order comes to the listing, since the order leaves no choice. -/
theorem eq_names_of_perm {t : Table α} {l : List String} (hl : l.Perm t.names)
    (ho : l.Pairwise fun m n => ¬ NameLt n m) : l = t.names := by
  apply List.Perm.eq_of_pairwise _ ho t.names_sorted hl
  intro m n _ _ hmn hnm
  exact NameLt.eq_of_not hnm hmn

/-- The size is the number of names listed. -/
theorem size_eq_length_names (t : Table α) : t.size = t.names.length := by
  rw [size, names, List.length_map]

/-- A table is empty if and only if it lists no name. -/
theorem isEmpty_iff (t : Table α) : t.isEmpty ↔ t.names = [] := by
  rw [isEmpty, List.isEmpty_iff, names, List.map_eq_nil_iff]

/-- A table is a finite map from names, and lists them. -/
structure IsMap (t : Table α) (f : String → Option α) : Prop where
  get : ∀ n, t.get n = f n
  contains : ∀ n, t.contains n ↔ f n ≠ none
  mem_names : ∀ n, n ∈ t.names ↔ f n ≠ none
  increasing : t.names.Pairwise NameLt
  /-- Take the bound names, each once, in any order: there are `size` of them, and putting them in
      order gives the listing. -/
  sorted : ∀ ks, ks.Nodup → (∀ n, n ∈ ks ↔ f n ≠ none) →
    ks.length = t.size ∧ ∀ l, l.Perm ks → l.Pairwise (fun m n => ¬ NameLt n m) → l = t.names
  size_eq : t.size = t.names.length
  isEmpty : t.isEmpty ↔ t.names = []

/-- Every table is the finite map `Table.get`. -/
theorem isMap_get (t : Table α) : t.IsMap t.get where
  get _ := rfl
  contains n := (contains_iff_mem_names t n).trans (mem_names_iff t n)
  mem_names := mem_names_iff t
  increasing := t.names_pairwise
  sorted ks hk hm := by
    have hp : ks.Perm t.names := perm_names hk hm
    refine ⟨?_, fun l hl ho => eq_names_of_perm (hl.trans hp) ho⟩
    rw [hp.length_eq, size_eq_length_names]
  size_eq := t.size_eq_length_names
  isEmpty := t.isEmpty_iff

/-! ### Texts -/

/-- A table is shown as its names in quotes, in order, between braces. -/
theorem line_layout (t : Table α) :
    t.layout.line = "\x7b" ++ ", ".intercalate (t.names.map Text.quote) ++ "\x7d" := by
  rw [Table.layout, Text.Layout.line, Text.Layout.lines_map_quoted]

/-! ### Tables of handlers

The built-in table is the empty one after one registration.
-/

/-- Registrations that begin with the empty table bind what their last one says. -/
theorem bound_empty (rs : List (String × α)) (n : String) : bound empty rs n = last? rs n := by
  rw [bound, get_empty, Option.or_none]

/-- **Tables as finite maps.** Registrations in turn, from any table, make a finite map (`IsMap`): a
    name is bound to what its last registration says, or else to what it was bound to at the start,
    where the empty table has no names and the built-in one the exit. The names are listed in the
    order of their bytes. A further registration answers with what the name was bound to and touches
    no name with other bytes. Registrations that bind alike, in whatever order, make tables that
    nothing tells apart. -/
theorem registerAll_canonical (start : Table Handler) (rs : List (String × Handler)) :
    let t := start.registerAll rs
    (∀ n, bound empty rs n = last? rs n ∧ bound builtinTable rs n =
      (last? rs n).or (if n = exitName then some .exit else none)) ∧
    t.IsMap (bound start rs) ∧
    (∀ (m : Machine) (n : String) (h : Handler),
      let r := { m with table := t }.register n h
      r.result = .ok (bound start rs n) ∧
      r.machine = { m with table := start.registerAll (rs ++ [(n, h)]) } ∧
      ∀ n', r.machine.table.get n' = (if n' = n then some h else bound start rs n') ∧
        (n' = n ↔ n'.toUTF8 = n.toUTF8)) ∧
    t.layout.line = "\x7b" ++ ", ".intercalate (t.names.map Text.quote) ++ "\x7d" ∧
    ∀ start' rs', (∀ n, bound start' rs' n = bound start rs n) →
      let t' := start'.registerAll rs'
      t'.get = t.get ∧ t'.contains = t.contains ∧ t'.names = t.names ∧ t'.size = t.size ∧
        t'.layout.line = t.layout.line ∧ t'.layout.block = t.layout.block := by
  intro t
  have hget : t.get = bound start rs := funext (get_registerAll start rs)
  refine ⟨fun n => ⟨bound_empty rs n, ?_⟩, ?_, ?_, t.line_layout, ?_⟩
  · rw [bound, get_builtinTable]
  · rw [← hget]
    exact t.isMap_get
  · intro m n h r
    have hnext : start.registerAll (rs ++ [(n, h)]) = t.register n h := List.foldl_append
    rw [hnext, ← hget]
    refine ⟨rfl, rfl, fun n' => ⟨t.get_register n n' h, ?_⟩⟩
    exact String.toByteArray_inj.symm
  · intro start' rs' h t'
    -- Tables with the same bindings are the same table, which settles all that can be asked of
    -- them.
    have ht : t' = t := registerAll_eq h
    rw [ht]
    exact ⟨rfl, rfl, rfl, rfl, rfl, rfl⟩

/-- One name is bound anew and another differs from it in case only. The same bindings are made from
    the empty table in another order, the exit among them, and the listing is the same. -/
theorem registerAll_shuffled :
    let rs : List (String × Handler) :=
      [("b", .routine 0), ("", .routine 1), ("B", .exit), ("b", .routine 2)]
    let rs' : List (String × Handler) :=
      [("b", .routine 2), ("B", .exit), (exitName, .exit), ("", .routine 1)]
    (builtinTable.registerAll rs).names = ["", "B", "Exit", "b"] ∧
      (builtinTable.registerAll rs).size = 4 ∧
      (empty.registerAll rs').layout.line = "\x7b\"\", \"B\", \"Exit\", \"b\"\x7d" := by
  intro rs rs'
  obtain ⟨-, hmap, -, hline, hsame⟩ := registerAll_canonical builtinTable rs
  have hbound (n : String) : bound empty rs' n = bound builtinTable rs n := by
    simp only [bound, rs, rs', last?_cons, last?_nil, get_builtinTable, get_empty, exitName]
    grind
  -- The listing is the one ordered list of the bound names, so they need not be sorted here.
  have hks : ∀ n, n ∈ ["b", "Exit", "", "B"] ↔ bound builtinTable rs n ≠ none := by
    intro n
    simp only [bound, rs, last?_cons, last?_nil, get_builtinTable, exitName]
    grind
  obtain ⟨hsize, hnames⟩ := hmap.sorted ["b", "Exit", "", "B"] (by decide) hks
  have hl : ["", "B", "Exit", "b"] = (builtinTable.registerAll rs).names :=
    hnames _ (by decide) (by decide)
  refine ⟨hl.symm, hsize.symm, ?_⟩
  rw [(hsame empty rs' hbound).2.2.2.2.1, hline, ← hl]
  decide +kernel

end Table

end StackMachine
