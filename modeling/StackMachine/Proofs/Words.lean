import Mathlib.Data.List.TakeWhile
import StackMachine.CommandLine.Reader

namespace StackMachine.CommandLine

open Text (Glyph Raw)

/-!
# Words of a command line

* `IsPlain`, `IsArgument` — words that are no options, wherever they stand or behind a program.
* `Reading.finish_arguments` — such words behind a program are its arguments.
* `read_words` — a command line of a program with arguments.
-/

/-- The word does not begin with a dash. -/
def IsPlain (w : Raw) : Prop := w.head? ≠ some (.char '-')

instance : DecidablePred IsPlain := fun w => inferInstanceAs (Decidable (w.head? ≠ _))

/-- A word that is no option behind a program: it does not begin with a dash, or there are digits
    behind the dash. -/
inductive IsArgument : Raw → Prop where
  | plain {w : Raw} (h : IsPlain w) : IsArgument w
  | negative {ds : List Char} (hne : ds ≠ []) (h : ∀ d ∈ ds, d.isDigit) :
    IsArgument (.char '-' :: ds.map .char)

/-- Digits are a number. -/
theorem isNegativeNumber_digits {ds : List Char} (h : ∀ d ∈ ds, d.isDigit) :
    isNegativeNumber (ds.map .char) := by
  have hs : Raw.string? (ds.map Glyph.char) = some (String.ofList ds) := by
    have ho := Raw.string?_ofString (String.ofList ds)
    rwa [Raw.ofString, String.toList_ofList] at ho
  have hd : ds.dropWhile Char.isDigit = [] := List.dropWhile_eq_nil_iff.2 h
  simp [isNegativeNumber, hs, isNumber, hd]

/-- The separator begins with a dash. -/
theorem IsPlain.ne_separator {w : Raw} (h : IsPlain w) : w ≠ separator := by
  rintro rfl
  exact h rfl

/-- The separator is no argument: it is neither plain nor a number. -/
theorem IsArgument.ne_separator {w : Raw} (h : IsArgument w) : w ≠ separator := by
  cases h with
  | plain h => exact h.ne_separator
  | negative hne h =>
    -- the second dash would be a digit
    rename_i ds
    intro he
    have hds : ds.map Glyph.char = [.char '-'] := (List.cons.inj he).2
    obtain ⟨d, rfl, hd⟩ := List.map_eq_singleton_iff.1 hds
    cases hd
    exact absurd (h '-' (by simp)) (by decide)

namespace Reading

/-- A word without a dash is read as it is, whatever was read before. -/
theorem take_plain (r : Reading) {w : Raw} (h : IsPlain w) : r.take w = r.word w := by
  unfold take
  split
  · exact absurd rfl h
  · exact absurd rfl h
  · rfl

/-- Behind a program so is a negative number. -/
theorem take_argument {r : Reading} (hr : r.hasProgram) {w : Raw} (h : IsArgument w) :
    r.take w = r.word w := by
  cases h with
  | plain h => exact r.take_plain h
  | @negative ds hne h =>
    obtain ⟨d, ds, rfl⟩ := List.exists_cons_of_ne_nil hne
    -- A digit is no dash, so the word does not begin like a long option.
    have hd : d ≠ '-' := by
      rintro rfl
      exact absurd (h '-' (by simp)) (by decide)
    have hn : isNegativeNumber (.char d :: ds.map .char) := isNegativeNumber_digits h
    show take r (.char '-' :: .char d :: ds.map .char) = _
    unfold take
    split
    · next e => cases e; exact absurd rfl hd
    · next e => cases e; simp [hr, hn]
    · next e => exact absurd rfl (e _ _)

/-! ### Behind a program

A program is named, so a word with a dash in front may be a negative number.
-/

/-- Behind a program such words are all kept back as its arguments. -/
theorem finish_arguments {line : CommandLine} (hp : line.program.isSome) {words : List Raw}
    (h : ∀ w ∈ words, IsArgument w) (ws : List Raw) :
    ({ line, pending := .args ws } : Reading).finish words =
      ({ line, pending := .args (ws ++ words) } : Reading).settle := by
  induction words generalizing ws with
  | nil => simp [finish]
  | cons w words ih =>
    have hw : IsArgument w := h w (by simp)
    have hr : ({ line, pending := .args ws } : Reading).hasProgram := hp
    rw [finish, if_neg hw.ne_separator, take_argument hr hw]
    show ({ line, pending := .args (ws ++ [w]) } : Reading).finish words = _
    rw [ih fun w hw => h w (by simp [hw])]
    simp

/-- The first plain word is the program, and is kept back. -/
theorem word_first {line : CommandLine} (hl : line.program = none) (w : Raw) :
    ({ line } : Reading).word w = .ok { line, pending := .program w } := by
  show Except.ok (Reading.mk line (if line.program.isNone then .program w else .args [w])) = _
  rw [hl]
  rfl

/-- The word of a text is decoded as the text. -/
theorem decode_ofString (s : String) : decode (Raw.ofString s) = .ok s := by
  rw [decode, Raw.string?_ofString]

/-- The words of texts are decoded as these texts. -/
theorem mapM_decode_ofString (ss : List String) : (ss.map Raw.ofString).mapM decode = .ok ss := by
  induction ss with
  | nil => rfl
  | cons s ss ih =>
    rw [List.map_cons, List.mapM_cons, decode_ofString, ih]
    rfl

/-- A program that is kept back, with the words that come next as its arguments. -/
theorem finish_program {line : CommandLine} (hl : line.args = []) (program : String)
    {args : List String} (h : ∀ a ∈ args, IsArgument (Raw.ofString a)) :
    ({ line, pending := .program (Raw.ofString program) } : Reading).finish
      (args.map Raw.ofString) = .ok { line with program := some program, args } := by
  have hs : ({ line, pending := .program (Raw.ofString program) } : Reading).settle =
      .ok { line with program := some program } := by
    simp only [settle, decode_ofString]
    rfl
  cases args with
  | nil =>
    rw [List.map_nil, finish, hs]
    obtain ⟨_, args, _, _, _⟩ := line
    cases hl
    rfl
  | cons a as =>
    have ha : IsArgument (Raw.ofString a) := h a (by simp)
    -- the first argument settles the program, so from here on the arguments are kept back
    rw [List.map_cons, finish, if_neg ha.ne_separator, take_argument rfl ha]
    simp only [word, hs]
    show ({ line := { line with program := some program }, pending := .args [Raw.ofString a] } :
      Reading).finish (as.map Raw.ofString) = _
    rw [finish_arguments rfl (by simpa using fun b hb => h b (by simp [hb]))]
    show settle ⟨_, .args ((a :: as).map Raw.ofString)⟩ = _
    simp only [settle, mapM_decode_ofString, hl]
    rfl

end Reading

/-- The words in front of a program that ask for unknown syscalls to be passed over, or do not. -/
def legacyWords : (legacy : Bool) → List String
  | true => ["--" ++ Switch.long .legacy]
  | false => []

/-- A program with arguments, none of which is an option there, is read as such. -/
theorem read_words (legacy : Bool) {program : String} (hp : IsPlain (Raw.ofString program))
    {args : List String} (h : ∀ a ∈ args, IsArgument (Raw.ofString a)) :
    read ((legacyWords legacy ++ program :: args).map Raw.ofString) =
      .ok { program := some program, args, legacy } := by
  have hw (line : CommandLine) (hl : line.program = none) (ha : line.args = []) :
      ({ line } : Reading).finish ((program :: args).map Raw.ofString) =
        .ok { line with program := some program, args } := by
    rw [List.map_cons, Reading.finish, if_neg hp.ne_separator, Reading.take_plain _ hp,
      Reading.word_first hl]
    exact Reading.finish_program ha program h
  cases legacy with
  | false => exact hw {} rfl rfl
  | true => exact hw { legacy := true } rfl rfl

end StackMachine.CommandLine
