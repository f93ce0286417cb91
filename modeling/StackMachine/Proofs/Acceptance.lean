import StackMachine.Proofs.Execution
import StackMachine.Proofs.Spelling

namespace StackMachine

/-!
# Acceptance of arguments

Texts are read as the arguments of a program, and the values that come of it are checked once more
when the program is executed. The two never disagree: what was read passes the check, and a wrong
number is reported in the same words by both.

Both readers go through two lists at once, so all statements are about lists of the same length and
are proved by induction on the kinds. The least place of `misspelled` moves by one when a text is
put in front (`isLeast_succ_iff`).

* `SpelledAt ks ts i v` — the text at place `i` spells `v` as the kind there.
* `misspelled ks ts` — the places whose text spells nothing.
* `readValues_eq_ok_iff`, `readValues_eq_error_iff` — what is read of texts, and which is reported.
* `Program.readArguments_exactly` — the reader of a program's arguments, beside the check.
-/

/-! ### Places

`misspelled` is a set of places and not a list, so that the first of them is its least member and
nothing has to be said about the others.
-/

/-- The text at a place spells a value, as the kind there. -/
def SpelledAt (ks : List Kind) (ts : List String) (i : Nat) (v : Value) : Prop :=
  ∃ k t, ks[i]? = some k ∧ ts[i]? = some t ∧ Spells k t v

/-- The places whose text spells no value of the kind there. -/
def misspelled (ks : List Kind) (ts : List String) : Set Nat :=
  {i | i < ts.length ∧ ∀ v, ¬ SpelledAt ks ts i v}

section

variable {k : Kind} {ks : List Kind} {t : String} {ts : List String} {v : Value}

/-- Unfolding lemma: at the first place are the first kind and the first text. -/
theorem spelledAt_zero : SpelledAt (k :: ks) (t :: ts) 0 v ↔ Spells k t v := by
  simp [SpelledAt]

/-- Unfolding lemma: the other places are those of the rest. -/
theorem spelledAt_succ {i : Nat} :
    SpelledAt (k :: ks) (t :: ts) (i + 1) v ↔ SpelledAt ks ts i v := Iff.rfl

/-- The first place is misspelled if nothing is read there. -/
theorem zero_mem_misspelled : 0 ∈ misspelled (k :: ks) (t :: ts) ↔ Value.read? k t = none := by
  rw [Option.eq_none_iff_forall_ne_some]
  simp [misspelled, spelledAt_zero, Value.read?_eq_some_iff]

/-- Moved down by one, the misspelled places are those of the rest, as `isLeast_succ_iff` needs
    them. -/
theorem misspelled_succ :
    {i | i + 1 ∈ misspelled (k :: ks) (t :: ts)} = misspelled ks ts := by
  ext i
  show i + 1 < (t :: ts).length ∧ _ ↔ i < ts.length ∧ _
  rw [List.length_cons, Nat.add_lt_add_iff_right]
  simp only [spelledAt_succ]

/-! ### Values

The index that `readValues` counts is the one that it reports, so it is generalised in both
inductions.
-/

variable {vs : List Value} {n : Nat}

/-- As many values are read as there are texts, if each text spells the value at its place. -/
theorem readValues_eq_ok_iff (hl : ks.length = ts.length) : readValues n ks ts = .ok vs ↔
    vs.length = ts.length ∧ ∀ i v, vs[i]? = some v → SpelledAt ks ts i v := by
  -- induction over the kinds and the texts, which are of one number
  induction ks generalizing ts vs n with
  | nil =>
    obtain rfl := List.length_eq_zero_iff.1 hl.symm
    show Except.ok [] = Except.ok vs ↔ _
    rw [Except.ok.injEq]
    constructor
    · rintro rfl
      simp
    · rintro ⟨hlength, -⟩
      exact (List.length_eq_zero_iff.1 hlength).symm
  | cons k ks ih =>
    obtain ⟨t, ts, rfl⟩ := List.exists_cons_of_length_eq_add_one hl.symm
    rw [readValues_cons_eq_ok_iff]
    constructor
    · rintro ⟨v, ws, hv, hws, rfl⟩
      obtain ⟨hlength, hspelled⟩ := (ih (Nat.succ.inj hl)).1 hws
      refine ⟨congrArg Nat.succ hlength, fun i w hw => ?_⟩
      cases i with
      | zero =>
        obtain rfl : v = w := Option.some.inj hw
        exact spelledAt_zero.2 (Value.read?_eq_some_iff.1 hv)
      | succ i => exact spelledAt_succ.2 (hspelled i w hw)
    · rintro ⟨hlength, hspelled⟩
      obtain ⟨v, ws, rfl⟩ := List.exists_cons_of_length_eq_add_one hlength
      have hv : Spells k t v := spelledAt_zero.1 (hspelled 0 v rfl)
      have hws : readValues (n + 1) ks ts = .ok ws := by
        rw [ih (Nat.succ.inj hl)]
        exact ⟨Nat.succ.inj hlength, fun i w hw => spelledAt_succ.1 (hspelled (i + 1) w hw)⟩
      exact ⟨v, ws, Value.read?_eq_some_iff.2 hv, hws, rfl⟩

/-- The first text that spells nothing is reported, whatever stands behind it. -/
theorem readValues_eq_error_iff (hl : ks.length = ts.length) {r : Refusal} :
    readValues n ks ts = .error r ↔ ∃ (i : Nat) (k : Kind) (t : String),
      IsLeast (misspelled ks ts) i ∧ ks[i]? = some k ∧ ts[i]? = some t ∧
        r = .invalidArgument (n + i) t k := by
  induction ks generalizing ts n with
  | nil => simp [readValues]
  | cons k ks ih =>
    obtain ⟨t, ts, rfl⟩ := List.exists_cons_of_length_eq_add_one hl.symm
    rw [readValues_cons_eq_error_iff, ih (Nat.succ.inj hl)]
    -- The first text decides: either it is the least misspelled one, or every index moves up by
    -- one.
    by_cases hv : Value.read? k t = none
    · have hzero : 0 ∈ misspelled (k :: ks) (t :: ts) := zero_mem_misspelled.2 hv
      constructor
      · rintro (⟨-, rfl⟩ | ⟨hread, -⟩)
        · exact ⟨0, k, t, (isLeast_zero_iff hzero).2 rfl, rfl, rfl, rfl⟩
        · exact absurd hv hread
      · rintro ⟨i, k', t', hi, hk, ht, rfl⟩
        obtain rfl := (isLeast_zero_iff hzero).1 hi
        cases hk
        cases ht
        exact .inl ⟨hv, rfl⟩
    · have hzero : 0 ∉ misspelled (k :: ks) (t :: ts) := fun h => hv (zero_mem_misspelled.1 h)
      have hleast (i : Nat) : IsLeast (misspelled (k :: ks) (t :: ts)) (i + 1) ↔
          IsLeast (misspelled ks ts) i := by
        rw [isLeast_succ_iff hzero, misspelled_succ]
      constructor
      · rintro (⟨hread, -⟩ | ⟨-, i, k', t', hi, hk, ht, rfl⟩)
        · exact absurd hread hv
        · exact ⟨i + 1, k', t', (hleast i).2 hi, hk, ht, by rw [Nat.add_assoc, Nat.add_comm 1 i]⟩
      · rintro ⟨i, k', t', hi, hk, ht, rfl⟩
        cases i with
        | zero => exact absurd hi.1 hzero
        | succ i =>
          refine .inr ⟨hv, i, k', t', (hleast i).1 hi, hk, ht, ?_⟩
          rw [Nat.add_assoc, Nat.add_comm 1 i]

end

/-- Where there are as many arguments as parameters, no other number is reported. -/
theorem checkArguments_ne_arityMismatch {params : List Kind} {args : List Value}
    (hl : params.length = args.length) (program other : String) (expected actual : Nat) :
    checkArguments program params args ≠ .error (.arityMismatch other expected actual) := by
  intro h
  obtain ⟨i, k, v, -, -, -, hf⟩ := (checkArguments_eq_error_iff hl).1 h
  cases hf

namespace Program

variable {p : Program} {texts : List String}

/-- Unfolding lemma: a wrong number of texts is reported before any of them is read. -/
theorem readArguments_of_length_ne (hl : p.params.length ≠ texts.length) :
    p.readArguments texts =
      .error (.failed (.arityMismatch p.name p.params.length texts.length)) := by
  rw [readArguments, if_neg hl]

/-- Unfolding lemma: the right number of them is read one by one. -/
theorem readArguments_of_length_eq (hl : p.params.length = texts.length) :
    p.readArguments texts = readValues 0 p.params texts := by
  rw [readArguments, if_pos hl]

/-- A number is reported if the check reports it of every list of that many arguments. -/
theorem readArguments_eq_arityMismatch_iff {program : String} {expected actual : Nat} :
    p.readArguments texts = .error (.failed (.arityMismatch program expected actual)) ↔
      ∀ args, args.length = texts.length →
        checkArguments p.name p.params args = .error (.arityMismatch program expected actual) := by
  by_cases hl : p.params.length = texts.length
  · rw [readArguments_of_length_eq hl]
    constructor
    · intro h
      obtain ⟨i, k, t, -, -, -, hr⟩ := (readValues_eq_error_iff hl).1 h
      cases hr
    · intro h
      -- some list of arguments has this length, so the check would report its number
      have hsome := h (.replicate texts.length (.bool true)) List.length_replicate
      exact absurd hsome (checkArguments_ne_arityMismatch (by simpa using hl) _ _ _ _)
  · rw [readArguments_of_length_ne hl]
    constructor
    · intro h args hargs
      rw [checkArguments_of_length_ne (by rwa [hargs]), hargs]
      simpa using h
    · intro h
      have hsome := h (.replicate texts.length (.bool true)) List.length_replicate
      rw [checkArguments_of_length_ne (by simpa using hl), List.length_replicate] at hsome
      simpa using hsome

/-- **Reading the arguments of a program.** A wrong number of texts is reported whatever the texts
    are. Of the right number, values are read if every text spells one of its parameter's kind
    (`SpelledAt`), and they are those values, one for each text. Otherwise the first text that
    spells none is reported, the least of `misspelled`, with its place, its characters and the kind
    expected there, whatever the texts behind it are. Values that were read pass the check of the
    program's arguments, and the same wrong number is reported of texts and of every list of as many
    values. -/
theorem readArguments_exactly (p : Program) (texts : List String) :
    (p.params.length ≠ texts.length → p.readArguments texts =
      .error (.failed (.arityMismatch p.name p.params.length texts.length))) ∧
    (p.params.length = texts.length →
      (∀ args, p.readArguments texts = .ok args ↔
        args.length = texts.length ∧ ∀ i v, args[i]? = some v → SpelledAt p.params texts i v) ∧
      ((∃ args, p.readArguments texts = .ok args) ↔
        ∀ i < texts.length, ∃ v, SpelledAt p.params texts i v) ∧
      ∀ r, p.readArguments texts = .error r ↔ ∃ (i : Nat) (k : Kind) (t : String),
        IsLeast (misspelled p.params texts) i ∧ p.params[i]? = some k ∧ texts[i]? = some t ∧
          r = .invalidArgument i t k) ∧
    (∀ args, p.readArguments texts = .ok args →
      checkArguments p.name p.params args = .ok ()) ∧
    ∀ program expected actual,
      p.readArguments texts = .error (.failed (.arityMismatch program expected actual)) ↔
        ∀ args, args.length = texts.length →
          checkArguments p.name p.params args =
            .error (.arityMismatch program expected actual) := by
  refine ⟨readArguments_of_length_ne, fun hl => ?_, fun args h => ?_,
    fun program expected actual => readArguments_eq_arityMismatch_iff⟩
  · have hread := readArguments_of_length_eq hl
    have hok (args : List Value) : p.readArguments texts = .ok args ↔
        args.length = texts.length ∧ ∀ i v, args[i]? = some v → SpelledAt p.params texts i v := by
      rw [hread, readValues_eq_ok_iff hl]
    have herror (r : Refusal) : p.readArguments texts = .error r ↔
        ∃ (i : Nat) (k : Kind) (t : String), IsLeast (misspelled p.params texts) i ∧
          p.params[i]? = some k ∧ texts[i]? = some t ∧ r = .invalidArgument i t k := by
      simpa only [hread, Nat.zero_add] using readValues_eq_error_iff (n := 0) hl
    refine ⟨hok, ?_, herror⟩
    constructor
    · rintro ⟨args, hargs⟩ i hi
      obtain ⟨hlength, hspelled⟩ := (hok args).1 hargs
      have hi' : i < args.length := by omega
      exact ⟨args[i], hspelled i args[i] (List.getElem?_eq_getElem hi')⟩
    · intro hall
      cases hr : p.readArguments texts with
      | ok args => exact ⟨args, rfl⟩
      | error r =>
        -- a text that spells nothing would have been reported
        obtain ⟨i, k, t, hi, -, -, -⟩ := (herror r).1 hr
        obtain ⟨v, hv⟩ := hall i hi.1.1
        exact absurd hv (hi.1.2 v)
  · rw [checkArguments_eq_ok_iff]
    exact map_kind_of_readArguments h

/-- Two texts spell nothing, and the first of them is reported. With both mended, values are read
    that pass the check. With one text more, only the number counts. -/
theorem readArguments_exactly_misspelled :
    let p : Program := ⟨"p", [.i64, .bool, .i64], .skip⟩
    IsLeast (misspelled p.params ["+007", "yes", "x"]) 1 ∧
      SpelledAt p.params ["+007", "true", "-0"] 2 (.i64 0) ∧
      checkArguments p.name p.params [.i64 7, .bool true, .i64 0] = .ok () ∧
      p.readArguments ["+007", "yes", "x", ""] = .error (.failed (.arityMismatch "p" 3 4)) := by
  intro p
  have hexactly := readArguments_exactly p
  -- All four facts come from the one theorem, at three lists of texts.
  have hmended : p.readArguments ["+007", "true", "-0"] = .ok [.i64 7, .bool true, .i64 0] := by
    decide
  refine ⟨?_, ?_, ?_, ?_⟩
  · obtain ⟨-, hsame, -⟩ := hexactly ["+007", "yes", "x"]
    have hread : p.readArguments ["+007", "yes", "x"] =
        .error (.invalidArgument 1 "yes" .bool) := by
      decide
    obtain ⟨i, k, t, hi, -, -, hr⟩ := ((hsame rfl).2.2 _).1 hread
    cases hr
    exact hi
  · obtain ⟨-, hsame, -⟩ := hexactly ["+007", "true", "-0"]
    exact (((hsame rfl).1 _).1 hmended).2 2 (.i64 0) rfl
  · obtain ⟨-, -, hcheck, -⟩ := hexactly ["+007", "true", "-0"]
    exact hcheck _ hmended
  · exact (hexactly ["+007", "yes", "x", ""]).1 (by decide)

end Program

end StackMachine
