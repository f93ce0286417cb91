namespace StackMachine

/-!
# Tables of named things

A table binds each name at most once. Its entries are kept in the order of the names' UTF-8 bytes,
so a table is determined by its bindings and lists its names in one way only.

* `Table.get t n`, `Table.register t n a`, `Table.names t` — look up, bind or rebind, list.
* `get_register`, `get_register_of_ne` — a registration changes one name's binding.
* `ext_get` — tables with the same bindings are equal.
-/

/-- The order of names in a `Table`: byte by byte in UTF-8. -/
def NameLt (m n : String) : Prop := m.toUTF8.data.toList < n.toUTF8.data.toList

instance (m n : String) : Decidable (NameLt m n) :=
  inferInstanceAs (Decidable (m.toUTF8.data.toList < n.toUTF8.data.toList))

namespace NameLt

/-- No name comes before itself, so `NameLt` is strict. -/
theorem irrefl (m : String) : ¬ NameLt m m := List.lt_irrefl _

/-- The order of names is transitive, as the order of their bytes is. -/
theorem trans {l m n : String} (h : NameLt l m) (h' : NameLt m n) : NameLt l n :=
  List.lt_trans h h'

/-- A name is not the one that it comes before. Look-ups cite this to pass over an entry. -/
theorem ne {m n : String} (h : NameLt m n) : m ≠ n := fun e => irrefl n (e ▸ h)

/-- Of two names neither of which comes before the other by `NameLt`, both are the same. -/
theorem eq_of_not {m n : String} (h : ¬ NameLt m n) (h' : ¬ NameLt n m) : m = n := by
  have e : m.toUTF8.data.toList = n.toUTF8.data.toList :=
    List.le_antisymm (List.not_lt.1 h') (List.not_lt.1 h)
  have e' : m.toUTF8 = n.toUTF8 := by
    cases hm : m.toUTF8; cases hn : n.toUTF8
    simp_all [Array.ext']
  exact String.toByteArray_inj.1 e'

end NameLt

/-- A finite map from names, with its `entries` in the order of the names. The field `ordered` makes
    it one list for one map, see `ext_get`. -/
structure Table (α : Type) where
  entries : List (String × α)
  ordered : entries.Pairwise fun a b => NameLt a.1 b.1
  deriving DecidableEq

namespace Table

variable {α : Type}

/-- Bind `n` to `a` at its place among ordered entries, dropping an earlier binding of `n`. -/
def place (n : String) (a : α) : List (String × α) → List (String × α)
  | [] => [(n, a)]
  | e :: es =>
    if n = e.1 then (n, a) :: es
    else if NameLt n e.1 then (n, a) :: e :: es
    else e :: place n a es

/-- An entry of `place n a es` is the new binding or one of `es`. -/
theorem mem_place {n : String} {a : α} {es : List (String × α)} {x : String × α}
    (h : x ∈ place n a es) : x = (n, a) ∨ x ∈ es := by
  induction es with
  | nil => simpa [place] using h
  | cons e es ih =>
    unfold place at h
    split at h
    · cases List.mem_cons.1 h with
      | inl h => exact .inl h
      | inr h => exact .inr (List.mem_cons_of_mem _ h)
    · split at h
      · exact List.mem_cons.1 h
      · cases List.mem_cons.1 h with
        | inl h => exact .inr (h ▸ List.mem_cons_self)
        | inr h => exact (ih h).imp_right (List.mem_cons_of_mem _)

/-- Placing an entry keeps the order of `NameLt`. With it `register` builds the field `ordered`. -/
theorem place_ordered (n : String) (a : α) {es : List (String × α)}
    (h : es.Pairwise fun a b => NameLt a.1 b.1) :
    (place n a es).Pairwise fun a b => NameLt a.1 b.1 := by
  induction es with
  | nil => simp [place]
  | cons e es ih =>
    obtain ⟨he, hes⟩ := List.pairwise_cons.1 h
    unfold place
    split
    · next hn => exact List.pairwise_cons.2 ⟨fun x hx => hn ▸ he x hx, hes⟩
    · next hn =>
      split
      · next hlt =>
        refine List.pairwise_cons.2 ⟨fun x hx => ?_, h⟩
        cases List.mem_cons.1 hx with
        | inl hx => exact hx ▸ hlt
        | inr hx => exact hlt.trans (he x hx)
      · next hlt =>
        -- the rest has the order by induction, and the new name comes behind the first one
        refine List.pairwise_cons.2 ⟨fun x hx => ?_, ih hes⟩
        cases mem_place hx with
        | inl hx =>
          subst hx
          exact Decidable.byContradiction fun hge => hn (NameLt.eq_of_not hlt hge)
        | inr hx => exact he x hx

/-- The table without bindings. -/
def empty : Table α := ⟨[], .nil⟩

/-- What the first entry for `n` binds it to. In ordered entries it is the only one. -/
def find (n : String) : List (String × α) → Option α
  | [] => none
  | e :: es => if n = e.1 then some e.2 else find n es

/-- The thing bound to a name, by `find` among the entries. -/
def get (t : Table α) (n : String) : Option α := find n t.entries

/-- Whether `get` finds anything. -/
def contains (t : Table α) (n : String) : Bool := (t.get n).isSome

/-- Bind a name, or rebind it: the entry is put in by `place`. -/
def register (t : Table α) (n : String) (a : α) : Table α :=
  ⟨place n a t.entries, place_ordered n a t.ordered⟩

/-- The bound names in the order of their UTF-8 bytes. -/
def names (t : Table α) : List String := t.entries.map Prod.fst

def size (t : Table α) : Nat := t.entries.length

def isEmpty (t : Table α) : Bool := t.entries.isEmpty

/-! ### Look-ups after a registration -/

/-- Unfolding lemma: nothing is bound in `empty`. -/
@[simp] theorem get_empty (n : String) : (empty : Table α).get n = none := rfl

/-- Looking up `m` after `n` was placed finds the new binding if `m = n`, and what was there before
    otherwise. -/
theorem find_place (n m : String) (a : α) (es : List (String × α)) :
    find m (place n a es) = if m = n then some a else find m es := by
  induction es with
  | nil => simp [place, find]
  | cons e es ih =>
    by_cases hm : m = n
    · subst hm
      by_cases he : m = e.1
      · simp [place, find, ← he]
      · by_cases hlt : NameLt m e.1 <;> simp [place, find, he, hlt, ih]
    · by_cases he : n = e.1
      · subst he; simp [place, find, hm]
      · by_cases hlt : NameLt n e.1 <;> simp [place, find, he, hlt, hm, ih]

/-- A registration changes what `get` finds under one name, and under no other. -/
theorem get_register (t : Table α) (n m : String) (a : α) :
    (t.register n a).get m = if m = n then some a else t.get m := find_place ..

/-- Every other name keeps its binding. -/
theorem get_register_of_ne (t : Table α) {n m : String} (a : α) (h : m ≠ n) :
    (t.register n a).get m = t.get m := by simp [get_register, h]

/-! ### A table is its bindings -/

/-- Among entries, `find` succeeds exactly on their names. -/
private theorem find_isSome_iff (es : List (String × α)) (n : String) :
    (find n es).isSome ↔ n ∈ es.map Prod.fst := by
  induction es with
  | nil => simp [find]
  | cons e es ih => by_cases h : n = e.1 <;> simp [find, h, ih]

/-- The table contains exactly the names that `names` lists. -/
theorem contains_iff_mem_names (t : Table α) (n : String) : t.contains n ↔ n ∈ t.names :=
  find_isSome_iff t.entries n

/-- In front of ordered entries a name that comes before all of theirs is not found. -/
private theorem find_eq_none_of_lt {es : List (String × α)} {n : String}
    (h : ∀ e ∈ es, NameLt n e.1) : find n es = none := by
  induction es with
  | nil => rfl
  | cons e es ih =>
    simp [find, (h e List.mem_cons_self).ne, ih fun x hx => h x (List.mem_cons_of_mem _ hx)]

/-- Ordered entries in which `find` finds the same under every name are the same list. The induction
    compares the first names: if one came before the other, it could be found on one side only. -/
private theorem entries_eq_of_find {es fs : List (String × α)}
    (hes : es.Pairwise fun a b => NameLt a.1 b.1) (hfs : fs.Pairwise fun a b => NameLt a.1 b.1)
    (h : ∀ n, find n es = find n fs) : es = fs := by
  induction es generalizing fs with
  | nil =>
    cases fs with
    | nil => rfl
    | cons f fs => simpa [find] using h f.1
  | cons e es ih =>
    cases fs with
    | nil => simpa [find] using h e.1
    | cons f fs =>
      obtain ⟨he, hes'⟩ := List.pairwise_cons.1 hes
      obtain ⟨hf, hfs'⟩ := List.pairwise_cons.1 hfs
      -- the smaller of two different first names would be missing on the other side
      have hkey : e.1 = f.1 := by
        refine NameLt.eq_of_not (fun hlt => ?_) (fun hlt => ?_)
        · have := h e.1
          simp [find, hlt.ne, find_eq_none_of_lt fun x hx => hlt.trans (hf x hx)] at this
        · have := h f.1
          simp [find, hlt.ne, find_eq_none_of_lt fun x hx => hlt.trans (he x hx)] at this
      have hval : e.2 = f.2 := by simpa [find, hkey] using h e.1
      -- under the first name nothing is found behind it, under another one the first entry does not
      -- count
      have htail : es = fs := ih hes' hfs' fun n => by
        by_cases hn : n = e.1
        · rw [hn, find_eq_none_of_lt he, hkey, find_eq_none_of_lt hf]
        · simpa [find, hn, hkey ▸ hn] using h n
      rw [htail, Prod.ext hkey hval]

/-- Tables in which `get` finds the same under every name are equal. -/
theorem ext_get {t u : Table α} (h : ∀ n, t.get n = u.get n) : t = u := by
  cases t; cases u
  simpa using entries_eq_of_find ‹_› ‹_› h

end Table

end StackMachine
