import StackMachine.Launch.Basic

namespace StackMachine

open Number (readDigits?)

/-!
# Arguments

* `readInt64?_toString` — the decimal text of an integer reads back.
* `Program.map_kind_of_readArguments` — arguments that were read from texts have the kinds of the
  parameters.
-/

/-! ### Decimal texts

The text of an integer begins with a minus sign or with a digit, and the reader branches on just
that character.
-/

/-- The decimal digits of a number read back. -/
theorem Number.readDigits?_toDigits (n : Nat) : readDigits? (Nat.toDigits 10 n) = some n := by
  have hne : Nat.toDigits 10 n ≠ [] := Nat.toDigits_ne_nil
  have hall : (Nat.toDigits 10 n).all Char.isDigit :=
    List.all_eq_true.2 fun _ => Nat.isDigit_of_mem_toDigits (by decide) (by decide)
  simp [readDigits?, hne, hall, Nat.ofDigitChars_ten_toDigits]

/-- A digit is no sign. -/
theorem readInt?_of_isDigit {c : Char} {cs : List Char} (h : c.isDigit) :
    readInt? (c :: cs) = (readDigits? (c :: cs)).map Int.ofNat := by
  unfold readInt?
  split
  · next e => cases e; simp at h
  · next e => cases e; simp at h
  · rfl

/-- The decimal text of an integer: its digits, after a minus sign if it is below zero. -/
theorem toList_toString (n : Int) : (toString n).toList =
    if 0 ≤ n then Nat.toDigits 10 n.natAbs else '-' :: Nat.toDigits 10 n.natAbs := by
  rw [Int.toString_eq_repr, Int.repr_eq_if]
  split
  · next h => rw [Nat.toList_repr, show n.toNat = n.natAbs by omega]
  · next h =>
    rw [String.toList_append, Nat.toList_repr, show (-n).toNat = n.natAbs by omega]
    rfl

/-- The decimal text of an integer reads back, by the sign in front of it or its absence. -/
theorem readInt?_toString (n : Int) : readInt? (toString n).toList = some n := by
  rw [toList_toString]
  split
  · next h =>
    -- Without a sign, the first digit keeps the text out of the branches for signs.
    cases hd : Nat.toDigits 10 n.natAbs with
    | nil => exact absurd hd Nat.toDigits_ne_nil
    | cons c cs =>
      have hc : c.isDigit :=
        Nat.isDigit_of_mem_toDigits (b := 10) (n := n.natAbs) (by decide) (by decide) (by simp [hd])
      rw [readInt?_of_isDigit hc, ← hd, Number.readDigits?_toDigits]
      simp [Int.natAbs_of_nonneg h]
  · next h =>
    simp only [readInt?, Number.readDigits?_toDigits, Option.map_some, Option.some.injEq]
    show -(n.natAbs : Int) = n
    omega

/-- An `Int64` is in range. -/
theorem fitsInt64_toInt (n : Int64) : fitsInt64 n.toInt := by
  have hl : Int64.minValue.toInt ≤ n.toInt := n.le_toInt
  have hu : n.toInt ≤ Int64.maxValue.toInt := Int.le_of_lt_add_one n.toInt_lt
  rw [fitsInt64, Bool.and_eq_true, decide_eq_true_iff, decide_eq_true_iff]
  exact ⟨hl, hu⟩

/-- The decimal text of an `Int64` reads back as it, since its integer is in range. -/
theorem readInt64?_toString (n : Int64) : readInt64? (toString n.toInt) = some n := by
  rw [readInt64?, readInt?_toString]
  simp [fitsInt64_toInt]

/-! ### Kinds -/

/-- A value that is read as a kind is of that kind. -/
theorem Value.kind_of_read? {k : Kind} {t : String} {v : Value} (h : Value.read? k t = some v) :
    v.kind = k := by
  cases k with
  | i64 =>
    obtain ⟨n, -, rfl⟩ := Option.map_eq_some_iff.1 h
    rfl
  | bool =>
    simp only [read?] at h
    split at h
    · cases h; rfl
    · split at h
      · cases h; rfl
      · cases h

/-- Values are read of texts if one is read of the first text and the others of those behind it. -/
theorem readValues_cons_eq_ok_iff {n : Nat} {k : Kind} {ks : List Kind} {t : String}
    {ts : List String} {vs : List Value} : readValues n (k :: ks) (t :: ts) = .ok vs ↔
      ∃ v ws, Value.read? k t = some v ∧ readValues (n + 1) ks ts = .ok ws ∧ vs = v :: ws := by
  rw [readValues]
  cases Value.read? k t with
  | none => simp
  | some v =>
    cases readValues (n + 1) ks ts with
    | error r => simp [Except.map]
    | ok ws => simp [Except.map, eq_comm]

/-- A text is reported if it is the first one and none is read of it, or if it is reported of those
    behind the first. -/
theorem readValues_cons_eq_error_iff {n : Nat} {k : Kind} {ks : List Kind} {t : String}
    {ts : List String} {r : Refusal} : readValues n (k :: ks) (t :: ts) = .error r ↔
      Value.read? k t = none ∧ r = .invalidArgument n t k ∨
        Value.read? k t ≠ none ∧ readValues (n + 1) ks ts = .error r := by
  rw [readValues]
  cases Value.read? k t with
  | none => simp [eq_comm]
  | some v =>
    cases readValues (n + 1) ks ts with
    | error r => simp [Except.map]
    | ok ws => simp [Except.map]

/-- Values that were read of as many texts as kinds have the kinds. -/
theorem map_kind_of_readValues {i : Nat} {ks : List Kind} {ts : List String} {vs : List Value}
    (h : readValues i ks ts = .ok vs) (hl : ks.length = ts.length) : vs.map Value.kind = ks := by
  induction ks generalizing i ts vs with
  | nil =>
    cases h
    rfl
  | cons k ks ih =>
    obtain ⟨t, ts, rfl⟩ := List.exists_cons_of_length_eq_add_one hl.symm
    obtain ⟨v, ws, hv, hws, rfl⟩ := readValues_cons_eq_ok_iff.1 h
    rw [List.map_cons, Value.kind_of_read? hv, ih hws (Nat.succ.inj hl)]

/-- Arguments that were read for a program have the kinds of its parameters. -/
theorem Program.map_kind_of_readArguments {p : Program} {texts : List String} {args : List Value}
    (h : p.readArguments texts = .ok args) : args.map Value.kind = p.params := by
  rw [readArguments] at h
  split at h
  · next hl => exact map_kind_of_readValues h hl
  · cases h

end StackMachine
