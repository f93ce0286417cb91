import Mathlib.Data.Nat.Digits.Defs
import StackMachine.Proofs.Arguments

namespace StackMachine

open Number (readDigits?)

/-!
# Spellings of values

Which texts spell which values is told here without the reader: an integer is spelled by decimal
digits behind at most one sign, a truth value by its word.

* `IsDigits`, `placeValue` — digits, and the number that they stand for.
* `IsDecimal cs z` — the characters `cs` spell the integer `z`.
* `Spells k t v` — the text `t` spells the value `v` of kind `k`.
* `Value.read?_eq_some_iff` — the reader answers with the value that a text spells.
* `Value.read?_exactly` — what is read and what is not, and that values read back.
-/

/-! ### Digits

`placeValue` is defined from the right, as digits are valued; the reader counts from the left.
-/

/-- One or more of the ten digits. -/
def IsDigits (ds : List Char) : Prop := ds ≠ [] ∧ ∀ d ∈ ds, '0' ≤ d ∧ d ≤ '9'

/-- The number that digits stand for: the last counts ones, the one before it tens, and so on. -/
def placeValue (ds : List Char) : Nat :=
  Nat.ofDigits 10 (ds.reverse.map fun d => d.toNat - '0'.toNat)

/-- The ten digits stand in a row. -/
theorem isDigit_iff {c : Char} : c.isDigit ↔ '0' ≤ c ∧ c ≤ '9' := by
  rw [Char.isDigit, Bool.and_eq_true, decide_eq_true_iff, decide_eq_true_iff]
  exact Iff.rfl

/-- A digit in front counts for a place more than there are behind it. -/
theorem placeValue_cons (d : Char) (ds : List Char) :
    placeValue (d :: ds) = (d.toNat - '0'.toNat) * 10 ^ ds.length + placeValue ds := by
  rw [placeValue, List.reverse_cons, List.map_append, Nat.ofDigits_append, List.length_map,
    List.length_reverse, List.map_singleton, Nat.ofDigits_singleton, placeValue]
  ring

/-- Taking in one digit after another comes to the number that all of them stand for. -/
theorem ofDigitChars_eq (ds : List Char) (n : Nat) :
    Nat.ofDigitChars 10 ds n = n * 10 ^ ds.length + placeValue ds := by
  -- what was taken in before is generalised: each digit moves it on by one place
  induction ds generalizing n with
  | nil => simp [placeValue]
  | cons d ds ih =>
    rw [Nat.ofDigitChars_cons, ih, placeValue_cons, List.length_cons]
    ring

/-- Digits are read as the number that they stand for, and nothing else is read. -/
theorem readDigits?_eq_some_iff {ds : List Char} {n : Nat} :
    readDigits? ds = some n ↔ IsDigits ds ∧ n = placeValue ds := by
  have hvalue : Nat.ofDigitChars 10 ds 0 = placeValue ds := by
    rw [ofDigitChars_eq, Nat.zero_mul, Nat.zero_add]
  have hdigits : (ds.isEmpty || !ds.all Char.isDigit) = true ↔ ¬ IsDigits ds := by
    simp only [IsDigits, Bool.or_eq_true, Bool.not_eq_true', List.isEmpty_iff, List.all_eq_false,
      isDigit_iff, not_and_or, ne_eq, not_not, not_forall, exists_prop]
  rw [readDigits?]
  by_cases h : IsDigits ds
  · rw [if_neg (fun hne => hdigits.1 hne h), hvalue, Option.some.injEq, eq_comm]
    exact (and_iff_right h).symm
  · rw [if_pos (hdigits.2 h)]
    simp [h]

/-! ### Integers

A sign is no digit, so the three ways to spell an integer exclude one another.
-/

/-- A spelling of an integer: at most one sign, and then digits. -/
inductive IsDecimal : List Char → Int → Prop where
  | unsigned {ds : List Char} (h : IsDigits ds) : IsDecimal ds (placeValue ds)
  | plus {ds : List Char} (h : IsDigits ds) : IsDecimal ('+' :: ds) (placeValue ds)
  | minus {ds : List Char} (h : IsDigits ds) : IsDecimal ('-' :: ds) (-placeValue ds)

/-- No other character is in a spelling. -/
theorem IsDecimal.mem {cs : List Char} {z : Int} (h : IsDecimal cs z) {c : Char} (hc : c ∈ cs) :
    c = '+' ∨ c = '-' ∨ '0' ≤ c ∧ c ≤ '9' := by
  cases h with
  | unsigned h => exact .inr (.inr (h.2 c hc))
  | plus h =>
    rcases List.mem_cons.1 hc with rfl | hc
    · exact .inl rfl
    · exact .inr (.inr (h.2 c hc))
  | minus h =>
    rcases List.mem_cons.1 hc with rfl | hc
    · exact .inr (.inl rfl)
    · exact .inr (.inr (h.2 c hc))

/-- Digits are read and then given their sign. -/
theorem map_readDigits?_eq_some_iff {ds : List Char} {f : Nat → Int} {z : Int} :
    (readDigits? ds).map f = some z ↔ IsDigits ds ∧ z = f (placeValue ds) := by
  rw [Option.map_eq_some_iff]
  constructor
  · rintro ⟨n, hn, rfl⟩
    obtain ⟨hds, rfl⟩ := readDigits?_eq_some_iff.1 hn
    exact ⟨hds, rfl⟩
  · rintro ⟨hds, rfl⟩
    exact ⟨placeValue ds, readDigits?_eq_some_iff.2 ⟨hds, rfl⟩, rfl⟩

/-- An integer is read from its spellings (`IsDecimal`) and from nothing else. -/
theorem readInt?_eq_some_iff {cs : List Char} {z : Int} :
    readInt? cs = some z ↔ IsDecimal cs z := by
  constructor
  · intro h
    unfold readInt? at h
    split at h
    · obtain ⟨hds, rfl⟩ := map_readDigits?_eq_some_iff.1 h
      exact .plus hds
    · obtain ⟨hds, rfl⟩ := map_readDigits?_eq_some_iff.1 h
      exact .minus hds
    · obtain ⟨hds, rfl⟩ := map_readDigits?_eq_some_iff.1 h
      exact .unsigned hds
  · intro h
    cases h with
    | unsigned hds =>
      obtain ⟨c, cs, rfl⟩ := List.exists_cons_of_ne_nil hds.1
      have hc : c.isDigit := isDigit_iff.2 (hds.2 c List.mem_cons_self)
      -- a digit in front keeps the text out of the branches for signs
      rw [readInt?_of_isDigit hc]
      exact map_readDigits?_eq_some_iff.2 ⟨hds, rfl⟩
    | plus hds => exact map_readDigits?_eq_some_iff.2 ⟨hds, rfl⟩
    | minus hds => exact map_readDigits?_eq_some_iff.2 ⟨hds, rfl⟩

/-- The bounds of 64 bits, as numbers. -/
theorem fitsInt64_iff {z : Int} : fitsInt64 z ↔ -2 ^ 63 ≤ z ∧ z ≤ 2 ^ 63 - 1 := by
  rw [fitsInt64, Bool.and_eq_true, decide_eq_true_iff, decide_eq_true_iff]
  exact Iff.rfl

/-- An `Int64` is read from the spellings of its integer. -/
theorem readInt64?_eq_some_iff {t : String} {n : Int64} :
    readInt64? t = some n ↔ IsDecimal t.toList n.toInt := by
  rw [readInt64?, ← readInt?_eq_some_iff]
  constructor
  · intro h
    split at h
    · next z hz =>
      split at h
      · next hfit =>
        obtain ⟨hlow, hhigh⟩ := fitsInt64_iff.1 hfit
        -- the number is in range, so making it an `Int64` does not wrap around
        have hz' : (Int64.ofInt z).toInt = z := Int64.toInt_ofInt_of_le hlow (by omega)
        obtain rfl : Int64.ofInt z = n := Option.some.inj h
        rw [hz, hz']
      · cases h
    · cases h
  · intro h
    simp only [h, fitsInt64_toInt, if_true, Int64.ofInt_toInt]

/-! ### Values -/

/-- A text spells a value of a kind. -/
inductive Spells : Kind → String → Value → Prop where
  | i64 {t : String} {n : Int64} (h : IsDecimal t.toList n.toInt) : Spells .i64 t (.i64 n)
  | true : Spells .bool "true" (.bool true)
  | false : Spells .bool "false" (.bool false)

namespace Value

/-- A truth value is read from its word. -/
theorem read?_bool_eq_some_iff {t : String} {v : Value} : read? .bool t = some v ↔
    t = "true" ∧ v = .bool true ∨ t = "false" ∧ v = .bool false := by
  rw [read?]
  by_cases ht : t = "true"
  · simp [ht, eq_comm]
  · by_cases hf : t = "false" <;> simp [ht, hf, eq_comm]

/-- The reader answers with the value that a text spells. -/
theorem read?_eq_some_iff {k : Kind} {t : String} {v : Value} :
    read? k t = some v ↔ Spells k t v := by
  cases k with
  | i64 =>
    rw [read?, Option.map_eq_some_iff]
    constructor
    · rintro ⟨n, hn, rfl⟩
      exact .i64 (readInt64?_eq_some_iff.1 hn)
    · intro h
      cases h with
      | i64 h => exact ⟨_, readInt64?_eq_some_iff.2 h, rfl⟩
  | bool =>
    rw [read?_bool_eq_some_iff]
    constructor
    · rintro (⟨rfl, rfl⟩ | ⟨rfl, rfl⟩)
      · exact .true
      · exact .false
    · intro h
      cases h with
      | true => exact .inl ⟨rfl, rfl⟩
      | false => exact .inr ⟨rfl, rfl⟩

end Value

/-- Both words have a letter, and no integer is spelled with one. -/
theorem Spells.not_bool {t : String} {v w : Value} (h : Spells .i64 t v) : ¬ Spells .bool t w := by
  intro h'
  have he : 'e' ∈ t.toList := by cases h' <;> decide
  cases h with
  | i64 h =>
    have hc := h.mem he
    revert hc
    decide

/-- No text is a spelling under both kinds. -/
theorem Spells.kind_unique {k k' : Kind} {t : String} {v w : Value} (h : Spells k t v)
    (h' : Spells k' t w) : k = k' := by
  cases k with
  | i64 =>
    cases k' with
    | i64 => rfl
    | bool => exact absurd h' h.not_bool
  | bool =>
    cases k' with
    | i64 => exact absurd h h'.not_bool
    | bool => rfl

namespace Value

/-- The canonical text of a value reads back. -/
theorem read?_payloadText_self (v : Value) : read? v.kind v.payloadText = some v := by
  cases v with
  | i64 n => rw [kind, payloadText, read?, readInt64?_toString, Option.map_some]
  | bool b => cases b <;> rfl

/-- As the other kind, it is not read. -/
theorem read?_payloadText (v : Value) (k : Kind) :
    read? k v.payloadText = if k = v.kind then some v else none := by
  have hself : Spells v.kind v.payloadText v := read?_eq_some_iff.1 v.read?_payloadText_self
  by_cases hk : k = v.kind
  · rw [if_pos hk, hk, read?_payloadText_self]
  · rw [if_neg hk, Option.eq_none_iff_forall_ne_some]
    intro w hw
    exact hk ((read?_eq_some_iff.1 hw).kind_unique hself)

/-- **The language of argument texts.** An integer is read from at most one sign and then digits
    (`IsDecimal`), any number of them, if it fits in 64 bits; from every other text none is read. A
    truth value is read from its word only. The canonical text of a value is read as that value
    under its own kind and not at all under the other one, and no text is read under both. -/
theorem read?_exactly :
    (∀ (t : String) (z : Int),
      (∃ n : Int64, n.toInt = z ∧ read? .i64 t = some (.i64 n)) ↔
        IsDecimal t.toList z ∧ -2 ^ 63 ≤ z ∧ z ≤ 2 ^ 63 - 1) ∧
    (∀ t, read? .i64 t = none ↔
      ¬ ∃ z, IsDecimal t.toList z ∧ -2 ^ 63 ≤ z ∧ z ≤ 2 ^ 63 - 1) ∧
    (∀ t v, read? .bool t = some v ↔
      t = "true" ∧ v = .bool true ∨ t = "false" ∧ v = .bool false) ∧
    (∀ v k, read? k v.payloadText = if k = v.kind then some v else none) ∧
    ∀ t, read? .i64 t = none ∨ read? .bool t = none := by
  -- The two statements about integers are one: which integer is read, and that none is.
  have hread (t : String) (z : Int) :
      (∃ n : Int64, n.toInt = z ∧ read? .i64 t = some (.i64 n)) ↔
        IsDecimal t.toList z ∧ -2 ^ 63 ≤ z ∧ z ≤ 2 ^ 63 - 1 := by
    constructor
    · rintro ⟨n, rfl, hn⟩
      cases read?_eq_some_iff.1 hn with
      | i64 h => exact ⟨h, fitsInt64_iff.1 (fitsInt64_toInt n)⟩
    · rintro ⟨h, hlow, hhigh⟩
      have hz : (Int64.ofInt z).toInt = z := Int64.toInt_ofInt_of_le hlow (by omega)
      have hspells : Spells .i64 t (.i64 (.ofInt z)) := .i64 (by rwa [hz])
      exact ⟨.ofInt z, hz, read?_eq_some_iff.2 hspells⟩
  refine ⟨hread, fun t => ?_, fun t v => read?_bool_eq_some_iff, read?_payloadText, fun t => ?_⟩
  · simp only [← hread]
    cases hv : read? .i64 t with
    | none => simp
    | some v =>
      obtain ⟨n, rfl⟩ : ∃ n : Int64, v = .i64 n := exists_of_kind (kind_of_read? hv)
      simp
  · cases hv : read? .i64 t with
    | none => exact .inl rfl
    | some v =>
      right
      rw [Option.eq_none_iff_forall_ne_some]
      -- A text that spells an integer is neither of the two words.
      intro w hw
      exact (read?_eq_some_iff.1 hv).not_bool (read?_eq_some_iff.1 hw)

example : read? .i64 "-00009223372036854775808" = some (.i64 Int64.minValue) ∧
    read? .i64 "9223372036854775808" = none ∧ read? .i64 "+-1" = none := by
  decide

end Value

end StackMachine
