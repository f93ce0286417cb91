import Mathlib
import StackMachine.Json.Scan

namespace StackMachine.Json

open Number (hexDigit?)
open Text (byteCount)

/-!
# Spellings of JSON tokens

What a token may look like is said here by itself, and then each scanner is shown to take off a text
exactly the tokens that begin it.

* `Blank`, `skipSpace_eq_cons` — white space.
* `Escape`, `StringBody`, `StringToken`, `scanString_eq_ok` — strings with the escapes in them.
* `Whole`, `NumberEnds`, `scanNumber_eq_natural` — numbers without sign, fraction and exponent.
-/

/-- Two steps succeed together if the first one does and the second one from there. The scanners
    below are opened with it, and with `map_eq_ok`. -/
theorem bind_eq_ok {ε α β : Type} {x : Except ε α} {f : α → Except ε β} {b : β} :
    (x >>= f) = .ok b ↔ ∃ a, x = .ok a ∧ f a = .ok b := by
  cases x with
  | ok a => exact ⟨fun h => ⟨a, rfl, h⟩, fun ⟨_, ha, h⟩ => by cases ha; exact h⟩
  | error e => exact ⟨nofun, nofun⟩

/-- To change a result does not change whether there is one. -/
theorem map_eq_ok {ε α β : Type} {x : Except ε α} {f : α → β} {b : β} :
    x.map f = .ok b ↔ ∃ a, x = .ok a ∧ f a = b := by
  cases x with
  | ok a => simp [Except.map]
  | error e => simp [Except.map]

/-! ### White space -/

/-- Nothing but white space. -/
def Blank (w : List Char) : Prop := ∀ c ∈ w, c = ' ' ∨ c = '\n' ∨ c = '\t' ∨ c = '\r'

/-- The characters that `isSpace` accepts are those of `Blank`. -/
theorem isSpace_iff {c : Char} : isSpace c ↔ c = ' ' ∨ c = '\n' ∨ c = '\t' ∨ c = '\r' := by
  simp [isSpace, or_assoc]

/-- White space in front is skipped. -/
theorem skipSpace_append {w : List Char} (hw : Blank w) (cs : List Char) :
    skipSpace (w ++ cs) = skipSpace cs :=
  List.dropWhile_append_of_pos fun c hc => isSpace_iff.2 (hw c hc)

/-- Another character is not. -/
theorem skipSpace_cons {c : Char} (hc : ¬ isSpace c) (cs : List Char) :
    skipSpace (c :: cs) = c :: cs := List.dropWhile_cons_of_neg hc

/-- A text is white space and then what `skipSpace` leaves. -/
theorem exists_blank_append (cs : List Char) : ∃ w, Blank w ∧ cs = w ++ skipSpace cs :=
  ⟨cs.takeWhile isSpace, fun _ hc => isSpace_iff.1 (List.mem_takeWhile_imp hc),
    List.takeWhile_append_dropWhile.symm⟩

/-- White space is skipped up to a character that is none. -/
theorem skipSpace_eq_cons {c : Char} {cs rest : List Char} :
    skipSpace cs = c :: rest ↔ ¬ isSpace c ∧ ∃ w, Blank w ∧ cs = w ++ c :: rest := by
  constructor
  · intro h
    have hhead := List.head?_dropWhile_not isSpace cs
    rw [show cs.dropWhile isSpace = c :: rest from h] at hhead
    exact ⟨by simpa using hhead, h ▸ exists_blank_append cs⟩
  · rintro ⟨hc, w, hw, rfl⟩
    rw [skipSpace_append hw, skipSpace_cons hc]

/-- Nothing is left where there is nothing but white space. -/
theorem skipSpace_eq_nil {cs : List Char} : skipSpace cs = [] ↔ Blank cs := by
  rw [skipSpace, List.dropWhile_eq_nil_iff]
  exact forall₂_congr fun _ _ => isSpace_iff

/-! ### Escapes

The scanner of escapes reads four digits by their bytes, and the specification by characters. Where
all four are digits, each is one byte.
-/

/-- A hexadecimal digit with its value, in either case. -/
def HexDigit (c : Char) (v : Nat) : Prop :=
  v < 16 ∧ (c = v.digitChar ∨ c = v.digitChar.toUpper)

instance (c : Char) (v : Nat) : Decidable (HexDigit c v) := inferInstanceAs (Decidable (_ ∧ _))

/-- Four hexadecimal digits with the number that they make. -/
inductive Hex4 : List Char → Nat → Prop where
  | intro {a b c d : Char} {va vb vc vd : Nat} (ha : HexDigit a va) (hb : HexDigit b vb)
    (hc : HexDigit c vc) (hd : HexDigit d vd) :
    Hex4 [a, b, c, d] (0x1000 * va + 0x100 * vb + 0x10 * vc + vd)

/-- The letters that may stand behind a backslash, with the characters that they mean there. -/
def letterEscapes : List (Char × Char) :=
  [('"', '"'), ('\\', '\\'), ('/', '/'), ('b', '\x08'), ('t', '\t'), ('n', '\n'), ('f', '\x0c'),
    ('r', '\r')]

/-- What may stand behind a backslash, with the character that it means: a letter, the code point of
    the character, or that code point as a surrogate pair. -/
inductive Escape : List Char → Char → Prop where
  | letter {e c : Char} (h : (e, c) ∈ letterEscapes) : Escape [e] c
  | unit {ds : List Char} {c : Char} (h : Hex4 ds c.toNat) : Escape ('u' :: ds) c
  | pair {ds es : List Char} {high low : Nat} {c : Char} (hh : Hex4 ds high) (hl : Hex4 es low)
    (hhigh : 0xd800 ≤ high ∧ high < 0xdc00) (hlow : 0xdc00 ≤ low ∧ low < 0xe000)
    (hc : c.toNat = 0x10000 + 0x400 * (high - 0xd800) + (low - 0xdc00)) :
    Escape ('u' :: (ds ++ '\\' :: 'u' :: es)) c

/-- Digits that stand in a row have their values in a row. -/
theorem HexDigit.of_run {c first : Char} {value n : Nat}
    (hrun : ∀ k < n, HexDigit (Char.ofNat (first.toNat + k)) (k + value)) (hc : first ≤ c)
    (hn : c.toNat < first.toNat + n) : HexDigit c (c.toNat - first.toNat + value) := by
  have hle : first.toNat ≤ c.toNat := hc
  have hd := hrun (c.toNat - first.toNat) (by omega)
  rwa [Nat.add_sub_cancel' hle, Char.ofNat_toNat] at hd

/-- The digits that `hexDigit?` reads are those of `HexDigit`, in three rows. -/
theorem hexDigit?_eq_some {c : Char} {v : Nat} : hexDigit? c = some v ↔ HexDigit c v := by
  constructor
  · have hdecimal : ∀ k < 10, HexDigit (Char.ofNat ('0'.toNat + k)) (k + 0) := by decide
    have hlower : ∀ k < 6, HexDigit (Char.ofNat ('a'.toNat + k)) (k + 10) := by decide
    have hupper : ∀ k < 6, HexDigit (Char.ofNat ('A'.toNat + k)) (k + 10) := by decide
    intro h
    rw [hexDigit?] at h
    split at h
    · next hc =>
      obtain rfl := Option.some.inj h
      exact .of_run hdecimal hc.1 (Nat.lt_succ_of_le hc.2)
    split at h
    · next hc =>
      obtain rfl := Option.some.inj h
      exact .of_run hlower hc.1 (Nat.lt_succ_of_le hc.2)
    split at h
    · next hc =>
      obtain rfl := Option.some.inj h
      exact .of_run hupper hc.1 (Nat.lt_succ_of_le hc.2)
    · cases h
  · -- Backwards there are sixteen values, each with its digit in both cases.
    have hall : ∀ v < 16, hexDigit? v.digitChar = some v ∧
        hexDigit? v.digitChar.toUpper = some v := by decide
    rintro ⟨hv, rfl | rfl⟩
    · exact (hall v hv).1
    · exact (hall v hv).2

/-- Four digits are scanned where they stand in front of the rest. -/
theorem scanHex_eq_ok {cs : List Char} {n : Nat} :
    scanHex cs = .ok n ↔ ∃ ds rest, Hex4 ds n ∧ cs = ds ++ rest := by
  constructor
  · intro h
    rw [scanHex] at h
    split at h
    · cases h
    split at h
    · next a b c d rest _ =>
      split at h
      · next m hm =>
        obtain rfl := Except.ok.inj h
        simp only [hexNumber?, Option.bind_eq_bind, Option.bind_eq_some_iff, Option.pure_def,
          Option.some.injEq, hexDigit?_eq_some] at hm
        obtain ⟨va, ha, vb, hb, vc, hc, vd, hd, rfl⟩ := hm
        refine ⟨[a, b, c, d], rest, ?_, rfl⟩
        rw [show ((va * 16 + vb) * 16 + vc) * 16 + vd =
          0x1000 * va + 0x100 * vb + 0x10 * vc + vd by omega]
        exact .intro ha hb hc hd
      · cases h
    · cases h
  · rintro ⟨ds, rest, hds, rfl⟩
    cases hds with
    | @intro a b c d va vb vc vd ha hb hc hd =>
      -- four characters have four bytes at least, so the text is not found too short
      have hlen : ¬ byteCount (a :: b :: c :: d :: rest) < 4 := by
        have := a.utf8Size_pos
        have := b.utf8Size_pos
        have := c.utf8Size_pos
        have := d.utf8Size_pos
        simp only [byteCount]
        omega
      show scanHex (a :: b :: c :: d :: rest) = _
      rw [scanHex, if_neg hlen]
      simp only [hexNumber?, hexDigit?_eq_some.2 ha, hexDigit?_eq_some.2 hb,
        hexDigit?_eq_some.2 hc, hexDigit?_eq_some.2 hd]
      show Except.ok (((va * 16 + vb) * 16 + vc) * 16 + vd) = _
      congr 1
      omega

/-- They are four characters. -/
theorem Hex4.length {ds : List Char} {n : Nat} (h : Hex4 ds n) : ds.length = 4 := by
  cases h
  rfl

/-- Four hexadecimal digits make a number of 16 bits. -/
theorem Hex4.lt {ds : List Char} {n : Nat} (h : Hex4 ds n) : n < 0x10000 := by
  cases h with
  | intro ha hb hc hd =>
    have := ha.1
    have := hb.1
    have := hc.1
    have := hd.1
    omega

/-- The letters that `simpleEscape?` knows are those in `letterEscapes`. -/
theorem simpleEscape?_eq_some {e c : Char} :
    simpleEscape? e = some c ↔ (e, c) ∈ letterEscapes := by
  constructor
  · intro h
    unfold simpleEscape? at h
    split at h <;> cases h <;> decide
  · intro h
    simp only [letterEscapes, List.mem_cons, List.not_mem_nil, or_false, Prod.mk.injEq] at h
    rcases h with ⟨rfl, rfl⟩ | ⟨rfl, rfl⟩ | ⟨rfl, rfl⟩ | ⟨rfl, rfl⟩ | ⟨rfl, rfl⟩ | ⟨rfl, rfl⟩ |
      ⟨rfl, rfl⟩ | ⟨rfl, rfl⟩ <;> rfl

/-- A code unit that is no half of a pair is a code point. -/
theorem toNat_ofNat_unit {n : Nat} (hn : n < 0x10000) (hlow : ¬ isLowSurrogate n)
    (hhigh : ¬ isHighSurrogate n) : (Char.ofNat n).toNat = n := by
  simp only [isLowSurrogate, isHighSurrogate, Bool.and_eq_true, decide_eq_true_eq] at hlow hhigh
  have hvalid : n.isValidChar := by
    unfold Nat.isValidChar
    omega
  rw [Char.toNat_ofNat, if_pos hvalid]

/-- The code point of a surrogate pair, 10 bits of it from each half, counted from 0x10000. -/
theorem toNat_pairChar {high low : Nat} (hhigh : isHighSurrogate high)
    (hlow : isLowSurrogate low) :
    (pairChar high low).toNat = 0x10000 + 0x400 * (high - 0xd800) + (low - 0xdc00) := by
  simp only [isLowSurrogate, isHighSurrogate, Bool.and_eq_true, decide_eq_true_eq] at hlow hhigh
  have hvalid : ((high - 0xd800) * 0x400 + (low - 0xdc00) + 0x10000).isValidChar := by
    unfold Nat.isValidChar
    omega
  rw [pairChar, Char.toNat_ofNat, if_pos hvalid]
  omega

/-- The two halves of a pair come from two ranges next to each other. -/
theorem surrogates_iff {high low : Nat} :
    isHighSurrogate high ∧ isLowSurrogate low ↔
      (0xd800 ≤ high ∧ high < 0xdc00) ∧ 0xdc00 ≤ low ∧ low < 0xe000 := by
  simp [isHighSurrogate, isLowSurrogate]

/-- What is scanned behind the `u` is an escape. A half of a surrogate pair is no character by
    itself. -/
theorem Escape.of_scanUnicode {cs : List Char} {c : Char} {n : Nat}
    (h : scanUnicode cs = .ok (c, n)) :
    ∃ raw rest, Escape ('u' :: raw) c ∧ n = raw.length ∧ cs = raw ++ rest := by
  rw [scanUnicode, bind_eq_ok] at h
  obtain ⟨m, hm, h⟩ := h
  obtain ⟨ds, rest, hds, rfl⟩ := scanHex_eq_ok.1 hm
  split at h
  · cases h
  -- not the second half, so it is a character by itself or the first half of one
  next hlow =>
  split at h
  · next hhigh =>
    rw [← hds.length, List.drop_left] at h
    split at h
    · cases h
    · split at h
      · cases h
      · next rest =>
        rw [bind_eq_ok] at h
        obtain ⟨low, hl, h⟩ := h
        obtain ⟨es, rest, hes, rfl⟩ := scanHex_eq_ok.1 hl
        split at h
        · next hlow' =>
          obtain ⟨rfl, rfl⟩ := Prod.mk.inj (Except.ok.inj h)
          obtain ⟨hh, hl⟩ := surrogates_iff.1 ⟨hhigh, hlow'⟩
          -- both halves are there, as escapes of their own
          refine ⟨ds ++ '\\' :: 'u' :: es, rest,
            .pair hds hes hh hl (toNat_pairChar hhigh hlow'), ?_, ?_⟩
          · simp [hds.length, hes.length]
          · simp
        · cases h
      · cases h
    · cases h
  · next hhigh =>
    obtain ⟨rfl, rfl⟩ := Prod.mk.inj (Except.ok.inj h)
    refine ⟨ds, rest, .unit ?_, hds.length.symm, rfl⟩
    rwa [toNat_ofNat_unit hds.lt hlow hhigh]

/-- No character is a half of a pair. -/
theorem not_surrogate (c : Char) : ¬ isLowSurrogate c.toNat ∧ ¬ isHighSurrogate c.toNat := by
  simp only [isLowSurrogate, isHighSurrogate, Bool.and_eq_true, decide_eq_true_eq]
  rcases c.valid with h | ⟨h, -⟩
  · have : c.toNat < 0xd800 := h
    omega
  · have : 0xdfff < c.toNat := h
    omega

/-- Every escape with a `u` is scanned, as the character that it means. -/
theorem Escape.scanUnicode {raw : List Char} {c : Char} (h : Escape ('u' :: raw) c)
    (rest : List Char) : scanUnicode (raw ++ rest) = .ok (c, raw.length) := by
  -- no letter that stands for itself is a `u`, so only the last two constructors are left
  generalize hu : 'u' :: raw = text at h
  cases h with
  | letter h =>
    obtain ⟨rfl, rfl⟩ := List.cons.inj hu
    simp [letterEscapes] at h
  | unit h =>
    obtain rfl := (List.cons.inj hu).2
    obtain ⟨hlow, hhigh⟩ := not_surrogate c
    have hs : scanHex (raw ++ rest) = .ok c.toNat := scanHex_eq_ok.2 ⟨raw, rest, h, rfl⟩
    simp only [Json.scanUnicode, hs, h.length]
    show (if isLowSurrogate c.toNat then _ else if isHighSurrogate c.toNat then _ else _) = _
    rw [if_neg hlow, if_neg hhigh, Char.ofNat_toNat]
  | @pair ds es high low _ hh hl hhigh hlow hc =>
    obtain rfl := (List.cons.inj hu).2
    obtain ⟨hhigh, hlow⟩ := surrogates_iff.2 ⟨hhigh, hlow⟩
    have hnot : ¬ isLowSurrogate high := by
      simp only [isLowSurrogate, isHighSurrogate, Bool.and_eq_true, decide_eq_true_eq] at hhigh ⊢
      omega
    have hs : scanHex (ds ++ '\\' :: 'u' :: (es ++ rest)) = .ok high :=
      scanHex_eq_ok.2 ⟨ds, _, hh, rfl⟩
    have hs' : scanHex (es ++ rest) = .ok low := scanHex_eq_ok.2 ⟨es, rest, hl, rfl⟩
    have hpair : pairChar high low = c := by
      rw [← Char.toNat_inj, toNat_pairChar hhigh hlow, hc]
    have hdrop (t : List Char) : (ds ++ t).drop 4 = t := by
      rw [← hh.length, List.drop_left]
    rw [List.append_assoc, List.cons_append, List.cons_append]
    simp only [Json.scanUnicode, hs, hdrop]
    show (if isLowSurrogate high then _ else if isHighSurrogate high then _ else _) = _
    rw [if_neg hnot, if_pos hhigh, hs']
    show (if isLowSurrogate low then _ else _) = _
    rw [if_pos hlow, hpair]
    simp [hh.length, hl.length]

/-- An escape is scanned where one stands in front of the rest, with its length. -/
theorem scanEscape_eq_ok {cs : List Char} {c : Char} {n : Nat} :
    scanEscape cs = .ok (c, n) ↔
      ∃ raw rest, Escape raw c ∧ n = raw.length ∧ cs = raw ++ rest := by
  constructor
  · intro h
    unfold scanEscape at h
    split at h
    · cases h
    · rw [bind_eq_ok] at h
      obtain ⟨⟨d, k⟩, hd, h⟩ := h
      cases h
      obtain ⟨raw, rest, hraw, rfl, rfl⟩ := Escape.of_scanUnicode hd
      exact ⟨_, rest, hraw, rfl, rfl⟩
    · split at h
      · next hd =>
        cases h
        exact ⟨[_], _, .letter (simpleEscape?_eq_some.1 hd), rfl, rfl⟩
      · cases h
  · rintro ⟨raw, rest, hraw, rfl, rfl⟩
    cases hraw with
    | @letter e _ h =>
      -- The letter of a simple escape does not announce digits, so the last branch is taken.
      have he : e ≠ 'u' := by
        rintro rfl
        simp [letterEscapes] at h
      show scanEscape (e :: rest) = _
      unfold scanEscape
      split
      · next h => cases h
      · next h => cases h; exact absurd rfl he
      · next h' => cases h'; rw [simpleEscape?_eq_some.2 h]; rfl
    | unit h =>
      have hs := (Escape.unit h).scanUnicode rest
      simp only [scanEscape, List.cons_append, hs]
      rfl
    | pair hh hl hhigh hlow hc =>
      have hs := (Escape.pair hh hl hhigh hlow hc).scanUnicode rest
      simp only [scanEscape, List.cons_append, hs]
      rfl

/-! ### Strings

The scanner skips the characters of an escape that it has decoded, so the induction is over the text
with that number generalised.
-/

/-- The text between the quotes of a string, with the characters that it means. -/
inductive StringBody : List Char → List Char → Prop where
  | nil : StringBody [] []
  | plain {c : Char} {text cs : List Char} (hquote : c ≠ '"') (hslash : c ≠ '\\')
    (hcontrol : 0x20 ≤ c.toNat) (h : StringBody text cs) : StringBody (c :: text) (c :: cs)
  | escape {raw text cs : List Char} {c : Char} (hraw : Escape raw c) (h : StringBody text cs) :
    StringBody ('\\' :: (raw ++ text)) (c :: cs)

/-- A string in quotes. -/
inductive StringToken : List Char → String → Prop where
  | intro {text : List Char} {s : String} (h : StringBody text s.toList) :
    StringToken ('"' :: (text ++ ['"'])) s

/-- Characters that are to be passed over are as good as gone. -/
theorem scanChars_drop (n : Nat) (cs : List Char) : scanChars n cs = scanChars 0 (cs.drop n) := by
  induction n generalizing cs with
  | zero => rfl
  | succ n ih =>
    cases cs with
    | nil => rfl
    | cons c cs => exact ih cs

/-- What is scanned up to the closing quote is the text of a string. -/
theorem StringBody.of_scanChars {cs s rest : List Char} (h : scanChars 0 cs = .ok (s, rest)) :
    ∃ text, StringBody text s ∧ cs = text ++ '"' :: rest := by
  -- an escape takes several characters at once, so the induction is on the length
  induction hn : cs.length using Nat.strong_induction_on generalizing cs s with
  | _ n ih =>
    cases cs with
    | nil => cases h
    | cons c cs =>
      rw [scanChars] at h
      split at h
      · next hc =>
        cases h
        exact ⟨[], .nil, by rw [hc]; rfl⟩
      next hquote =>
      split at h
      · next hc =>
        rw [bind_eq_ok] at h
        obtain ⟨⟨d, k⟩, hd, h⟩ := h
        rw [bind_eq_ok] at h
        obtain ⟨⟨ds, rest'⟩, hds, h⟩ := h
        cases h
        obtain ⟨raw, after, hraw, rfl, rfl⟩ := scanEscape_eq_ok.1 hd
        rw [scanChars_drop, List.drop_left] at hds
        obtain ⟨text, htext, rfl⟩ := ih after.length (by simp at hn; omega) hds rfl
        exact ⟨'\\' :: (raw ++ text), .escape hraw htext, by simp [hc]⟩
      next hslash =>
      split at h
      · cases h
      next hcontrol =>
      rw [bind_eq_ok] at h
      obtain ⟨⟨ds, rest'⟩, hds, h⟩ := h
      cases h
      obtain ⟨text, htext, rfl⟩ := ih cs.length (by simp at hn; omega) hds rfl
      exact ⟨c :: text, .plain hquote hslash (Nat.le_of_not_lt hcontrol) htext, rfl⟩

/-- Every `StringBody` is scanned up to its closing quote, as the characters that it means. -/
theorem StringBody.scanChars {text s : List Char} (h : StringBody text s) (rest : List Char) :
    scanChars 0 (text ++ '"' :: rest) = .ok (s, rest) := by
  induction h with
  | nil => rfl
  | plain hquote hslash hcontrol h ih =>
    rw [List.cons_append, Json.scanChars, if_neg hquote, if_neg hslash,
      if_neg (Nat.not_lt_of_le hcontrol), ih]
    rfl
  | @escape raw text cs c hraw h ih =>
    have hs : scanEscape (raw ++ (text ++ '"' :: rest)) = .ok (c, raw.length) :=
      scanEscape_eq_ok.2 ⟨raw, _, hraw, rfl, rfl⟩
    have hquote : '\\' ≠ '"' := by decide
    rw [List.cons_append, List.append_assoc, Json.scanChars, if_neg hquote, if_pos rfl, hs]
    -- What was decoded is skipped: as many characters as the escape has.
    show (Json.scanChars raw.length (raw ++ _) >>= fun r => .ok (c :: r.1, r.2)) = _
    rw [scanChars_drop, List.drop_left, ih]
    rfl

/-- **Strings.** A string is scanned, its opening quote gone, where one (`StringToken`) stands in
    front of the rest. -/
theorem scanString_eq_ok {cs rest : List Char} {s : String} :
    scanString cs = .ok (s, rest) ↔ ∃ token, StringToken token s ∧ '"' :: cs = token ++ rest := by
  constructor
  · intro h
    rw [scanString, bind_eq_ok] at h
    obtain ⟨⟨t, rest'⟩, ht, h⟩ := h
    cases h
    obtain ⟨text, htext, rfl⟩ := StringBody.of_scanChars ht
    refine ⟨'"' :: (text ++ ['"']), .intro ?_, by simp⟩
    rwa [String.toList_ofList]
  · rintro ⟨_, @⟨text, _, htext⟩, he⟩
    obtain rfl : cs = text ++ '"' :: rest := by simpa using he
    rw [scanString, htext.scanChars]
    show Except.ok (String.ofList s.toList, rest) = _
    rw [String.ofList_toList]

/-! ### Whole numbers

`Whole` leaves out signs and zeros in front. The value is that of the digits in base ten, with no
bound; the bound is the scanner's.
-/

/-- The digits of a whole number without sign, fraction and exponent. No zero stands in front of
    other digits. -/
structure Whole (digits : List Char) (n : Nat) : Prop where
  ne_nil : digits ≠ []
  all_digits : ∀ d ∈ digits, d.isDigit
  leading_zero : ∀ ds, digits = '0' :: ds → ds = []
  value : Nat.ofDigitChars 10 digits 0 = n

/-- Nothing here can go on with a number: no digit, no point and no exponent. -/
def NumberEnds : List Char → Prop
  | [] => True
  | c :: _ => ¬ c.isDigit ∧ c ≠ '.' ∧ c ≠ 'e' ∧ c ≠ 'E'

/-- Every digit makes the number at least as large. -/
theorem le_ofDigitChars (ds : List Char) (n : Nat) : n ≤ Nat.ofDigitChars 10 ds n := by
  induction ds generalizing n with
  | nil => simp
  | cons d ds ih =>
    rw [Nat.ofDigitChars_cons]
    have := ih (10 * n + (d.toNat - '0'.toNat))
    omega

/-- Only digits are taken. -/
theorem of_takeDigits {limit n k m k' : Nat} {cs rest : List Char}
    (h : takeDigits limit n k cs = (m, k', rest)) (hn : n ≤ limit) :
    m ≤ limit ∧ ∃ ds, (∀ d ∈ ds, d.isDigit) ∧ cs = ds ++ rest ∧ m = Nat.ofDigitChars 10 ds n := by
  induction cs generalizing n k with
  | nil =>
    cases h
    exact ⟨hn, [], by simp, rfl, by simp⟩
  | cons c cs ih =>
    rw [takeDigits] at h
    split at h
    · next hc =>
      rw [Bool.and_eq_true, decide_eq_true_iff] at hc
      obtain ⟨hm, ds, hds, rfl, rfl⟩ := ih h hc.2
      -- one more digit makes ten times the number and the digit
      refine ⟨hm, c :: ds, by simpa using ⟨hc.1, hds⟩, rfl, ?_⟩
      rw [Nat.ofDigitChars_cons, Nat.mul_comm, digitValue]
    · cases h
      exact ⟨hn, [], by simp, rfl, by simp⟩

/-- Digits are taken up to the first character that is none if the number stays in bounds. -/
theorem takeDigits_append {limit : Nat} {ds rest : List Char} (hds : ∀ d ∈ ds, d.isDigit)
    (hrest : beginsWithDigit rest = false) (n k : Nat) (hn : Nat.ofDigitChars 10 ds n ≤ limit) :
    takeDigits limit n k (ds ++ rest) = (Nat.ofDigitChars 10 ds n, k + ds.length, rest) := by
  induction ds generalizing n k with
  | nil =>
    cases rest with
    | nil => simp [takeDigits]
    | cons c cs =>
      have hc : c.isDigit = false := hrest
      simp [takeDigits, hc]
  | cons d ds ih =>
    have hvalue : 10 * n + (d.toNat - '0'.toNat) = n * 10 + digitValue d := by
      rw [digitValue, Nat.mul_comm]
    rw [Nat.ofDigitChars_cons, hvalue] at hn ⊢
    -- The number only grows, so that it stays in bounds at the end means that it does all along.
    have hle : n * 10 + digitValue d ≤ limit := (le_ofDigitChars ds _).trans hn
    have hd : d.isDigit := hds d (by simp)
    rw [List.cons_append, takeDigits, if_pos (by simp [hd, hle]),
      ih (fun e he => hds e (by simp [he])) _ _ hn]
    simp [Nat.add_right_comm, Nat.add_assoc]

/-! ### Doubles

A fraction or an exponent makes a double of a number, and never a whole number. -/

/-- Whether a whole number was scanned. -/
def isNatural : Scan Numeral → Bool
  | .ok (.natural _, _) => true
  | _ => false

/-- A double is no whole number. -/
theorem isNatural_finishDouble (neg : Bool) (n : Nat) (power : Int) (cs : List Char) :
    isNatural (finishDouble neg n power cs) = false := by
  unfold finishDouble
  split <;> rfl

theorem isNatural_scanExponent (neg : Bool) (n : Nat) (power : Int) (cs : List Char) :
    isNatural (scanExponent neg n power cs) = false := by
  unfold scanExponent
  dsimp only
  split
  · rfl
  split
  · split
    · split
      · split <;> rfl
      · exact isNatural_finishDouble ..
    · exact isNatural_finishDouble ..
  · rfl

theorem isNatural_scanTail (neg : Bool) (n : Nat) (power : Int) (cs : List Char) :
    isNatural (scanTail neg n power cs) = false := by
  unfold scanTail
  split
  · exact isNatural_scanExponent ..
  · exact isNatural_scanExponent ..
  · exact isNatural_finishDouble ..

theorem isNatural_scanFraction (neg : Bool) (n : Nat) (power : Int) (cs : List Char) :
    isNatural (scanFraction neg n power cs) = false := by
  unfold scanFraction
  split
  · rfl
  split
  · exact isNatural_scanTail ..
  · rfl

/-- What `isNatural` denies of a scan is that it gave a whole number. -/
theorem ne_natural {r : Scan Numeral} (h : isNatural r = false) (n : Nat) (rest : List Char) :
    r ≠ .ok (.natural n, rest) := by
  rintro rfl
  cases h

/-! ### Numbers -/

/-- Digits alone make a whole number if there is no sign. -/
theorem wholeNumeral_eq_natural {neg : Bool} {n m : Nat} {cs rest : List Char} :
    wholeNumeral neg n cs = .ok (.natural m, rest) ↔ neg = false ∧ m = n ∧ rest = cs := by
  cases neg with
  | false => simp [wholeNumeral, eq_comm]
  | true =>
    unfold wholeNumeral
    split
    · contradiction
    split
    · simp
    · simp [ne_natural (isNatural_finishDouble ..)]

/-- Behind the digits of a whole number nothing of a number may stand. -/
theorem scanAfterWhole_eq_natural {neg : Bool} {n m : Nat} {cs rest : List Char}
    (hcs : beginsWithDigit cs = false) :
    scanAfterWhole neg n cs = .ok (.natural m, rest) ↔
      neg = false ∧ m = n ∧ rest = cs ∧ NumberEnds cs := by
  unfold scanAfterWhole
  split
  · simp [ne_natural (isNatural_scanFraction ..), NumberEnds]
  · simp [ne_natural (isNatural_scanExponent ..), NumberEnds]
  · simp [ne_natural (isNatural_scanExponent ..), NumberEnds]
  · next hpoint he hE =>
    -- In the last branch the next character is none of those that the branches before it took.
    have hends : NumberEnds cs := by
      cases cs with
      | nil => trivial
      | cons c cs =>
        refine ⟨Bool.eq_false_iff.1 hcs, ?_, ?_, ?_⟩
        · rintro rfl
          exact hpoint cs rfl
        · rintro rfl
          exact he cs rfl
        · rintro rfl
          exact hE cs rfl
    rw [wholeNumeral_eq_natural]
    simp [hends]

/-- Where a number ends there is no digit. -/
theorem beginsWithDigit_of_numberEnds {cs : List Char} (h : NumberEnds cs) :
    beginsWithDigit cs = false := by
  cases cs with
  | nil => rfl
  | cons c cs => exact Bool.eq_false_iff.2 h.1

/-- A digit is no white space. -/
theorem not_isSpace_of_isDigit {c : Char} (hc : c.isDigit) : ¬ isSpace c := by
  rw [isSpace_iff]
  rintro (rfl | rfl | rfl | rfl) <;> exact absurd hc (by decide)

/-- A digit is worth nine at most. -/
theorem digitValue_le {c : Char} (hc : c.isDigit) : digitValue c ≤ 9 := by
  rw [Char.isDigit, Bool.and_eq_true, decide_eq_true_iff, decide_eq_true_iff] at hc
  have hle : c.toNat ≤ '9'.toNat := UInt32.le_iff_toNat_le.1 hc.2
  exact Nat.sub_le_sub_right hle '0'.toNat

/-- The first digit is the number that the others are taken to. -/
theorem ofDigitChars_first (c : Char) (ds : List Char) :
    Nat.ofDigitChars 10 (c :: ds) 0 = Nat.ofDigitChars 10 ds (digitValue c) := by
  rw [Nat.ofDigitChars_cons, Nat.mul_zero, Nat.zero_add, digitValue]

/-- The number zero is written with one digit. -/
theorem whole_zero : Whole ['0'] 0 where
  ne_nil := by simp
  all_digits := by simp
  leading_zero := by simp
  value := by
    rw [ofDigitChars_first]
    rfl

section digits

variable {neg : Bool} {c : Char} {cs rest : List Char} {n k : Nat}

/-- Behind a leading zero no digit is taken. -/
theorem scanNumber_zero (hrest : beginsWithDigit rest = false) :
    scanNumber neg ('0' :: rest) = scanAfterWhole neg 0 rest := by
  rw [scanNumber, if_neg (by simp [hrest])]

/-- A number whose digits could all be taken. -/
theorem scanNumber_digits (hc : c.isDigit) (hzero : c ≠ '0')
    (htake : takeDigits maxNatural (digitValue c) 1 cs = (n, k, rest))
    (hrest : beginsWithDigit rest = false) :
    scanNumber neg (c :: cs) = scanAfterWhole neg n rest := by
  unfold scanNumber
  split
  · next he => cases he
  · next he => exact absurd (List.cons.inj he).1 hzero
  · next he =>
    cases he
    rw [if_pos hc, htake]
    simp only [hrest]
    rfl

/-- A number that has more digits than could be taken is a double. -/
theorem isNatural_scanNumber (hzero : c ≠ '0')
    (htake : takeDigits maxNatural (digitValue c) 1 cs = (n, k, rest))
    (hrest : beginsWithDigit rest) : isNatural (scanNumber neg (c :: cs)) = false := by
  unfold scanNumber
  split
  · rfl
  · next he => exact absurd (List.cons.inj he).1 hzero
  · next he =>
    cases he
    split
    · -- A digit is left, so the number goes on as a double in both branches.
      rw [htake]
      dsimp only
      rw [if_pos hrest]
      split
      · exact isNatural_scanFraction ..
      · exact isNatural_scanTail ..
    · rfl

/-- A number begins with a digit, when its sign is gone. -/
theorem isDigit_of_scanNumber {r : Numeral × List Char} (h : scanNumber neg (c :: cs) = .ok r) :
    c.isDigit := by
  by_contra hc
  unfold scanNumber at h
  split at h
  · cases h
  · next he =>
    cases he
    exact absurd hc (by decide)
  · next he =>
    cases he
    rw [if_neg hc] at h
    cases h

end digits

/-- What is scanned as a whole number is one. -/
theorem Whole.of_scanNumber {neg : Bool} {n : Nat} {cs rest : List Char}
    (h : scanNumber neg cs = .ok (.natural n, rest)) :
    neg = false ∧ n ≤ maxNatural ∧ NumberEnds rest ∧
      ∃ digits, Whole digits n ∧ cs = digits ++ rest := by
  cases cs with
  | nil => cases h
  | cons c cs =>
    have hc : c.isDigit := isDigit_of_scanNumber h
    by_cases hzero : c = '0'
    · obtain rfl := hzero
      have hcs : beginsWithDigit cs = false := by
        rw [Bool.eq_false_iff]
        intro hcs
        rw [scanNumber, if_pos hcs] at h
        cases h
      rw [scanNumber_zero hcs, scanAfterWhole_eq_natural hcs] at h
      obtain ⟨hneg, rfl, rfl, hends⟩ := h
      exact ⟨hneg, Nat.zero_le _, hends, ['0'], whole_zero, rfl⟩
    · obtain ⟨⟨m, k, cs'⟩, htake⟩ : ∃ t, takeDigits maxNatural (digitValue c) 1 cs = t := ⟨_, rfl⟩
      -- digits beyond the bound would have made a double
      have hcs' : beginsWithDigit cs' = false := by
        rw [Bool.eq_false_iff]
        exact fun hcs' => ne_natural (isNatural_scanNumber hzero htake hcs') _ _ h
      rw [scanNumber_digits hc hzero htake hcs', scanAfterWhole_eq_natural hcs'] at h
      obtain ⟨hneg, rfl, rfl, hends⟩ := h
      have hfirst : digitValue c ≤ maxNatural := (digitValue_le hc).trans (by decide)
      obtain ⟨hmax, ds, hds, rfl, hvalue⟩ := of_takeDigits htake hfirst
      refine ⟨hneg, hmax, hends, c :: ds, ⟨by simp, by simpa using ⟨hc, hds⟩, ?_, ?_⟩, rfl⟩
      · exact fun es he => absurd (List.cons.inj he).1 hzero
      · rw [hvalue, ofDigitChars_first]

/-- Every whole number within the bound is scanned, if nothing of a number stands behind it. -/
theorem Whole.scanNumber {digits rest : List Char} {n : Nat} (h : Whole digits n)
    (hmax : n ≤ maxNatural) (hends : NumberEnds rest) :
    scanNumber false (digits ++ rest) = .ok (.natural n, rest) := by
  have hrest := beginsWithDigit_of_numberEnds hends
  obtain ⟨c, ds, rfl⟩ := List.exists_cons_of_ne_nil h.ne_nil
  obtain ⟨hc, hds⟩ : c.isDigit ∧ ∀ d ∈ ds, d.isDigit := by simpa using h.all_digits
  by_cases hzero : c = '0'
  · -- a zero in front is the whole number
    obtain rfl := hzero
    obtain rfl := h.leading_zero ds rfl
    obtain rfl : 0 = n := h.value
    show Json.scanNumber false ('0' :: rest) = _
    rw [scanNumber_zero hrest, scanAfterWhole_eq_natural hrest]
    exact ⟨rfl, rfl, rfl, hends⟩
  · have hvalue : Nat.ofDigitChars 10 ds (digitValue c) = n := by
      rw [← h.value, ofDigitChars_first]
    have hbound : Nat.ofDigitChars 10 ds (digitValue c) ≤ maxNatural := by rwa [hvalue]
    have htake := takeDigits_append hds hrest (digitValue c) 1 hbound
    rw [List.cons_append, scanNumber_digits hc hzero htake hrest, scanAfterWhole_eq_natural hrest]
    exact ⟨rfl, hvalue.symm, rfl, hends⟩

/-- **Whole numbers.** A whole number is scanned where its digits are (`Whole`), all of them, and it
    stays within its bound. -/
theorem scanNumber_eq_natural {neg : Bool} {n : Nat} {cs rest : List Char} :
    scanNumber neg cs = .ok (.natural n, rest) ↔
      neg = false ∧ n ≤ maxNatural ∧ NumberEnds rest ∧
        ∃ digits, Whole digits n ∧ cs = digits ++ rest := by
  constructor
  · exact Whole.of_scanNumber
  · rintro ⟨rfl, hmax, hends, digits, hdigits, rfl⟩
    exact hdigits.scanNumber hmax hends

end StackMachine.Json
