import StackMachine.Proofs.ConfigLanguage

namespace StackMachine

open Json
open Text (byteCount)

/-!
# Truncated texts

A configuration text that is cut off is no configuration text: reading stops because the text ends
too early, wherever the cut is. Each scanner is followed up to the cut.

There is one lemma `cutOff_…` for each scanner, by the parts of the text that it takes: if the cut
is in the first part its scanner stops, and otherwise that part is taken and the cut is in the rest
(`cut_append`). A number is the exception, since digits that are cut off leave a number; then there
is nothing left for the scanner behind it.

* `Json.Cut p t` — `p` is the text `t` cut off before its end.
* `Json.CutOff r` — a scan stopped because the text ended.
* `Config.read_of_cut` — reading a configuration text of which something is missing.
-/

namespace Json

/-! ### Cuts

A cut is taken off the end, so `Cut p t` leaves something out in any case.
-/

/-- The text `p` is what is left of `t` when a part at its end is missing. -/
def Cut (p t : List Char) : Prop := ∃ s, s ≠ [] ∧ p ++ s = t

/-- From the empty text nothing can be missing. -/
theorem not_cut_nil (p : List Char) : ¬ Cut p [] := by
  rintro ⟨s, hs, h⟩
  exact hs (List.append_eq_nil_iff.1 h).2

/-- A cut leaves nothing, or the first character and a cut of the others. -/
theorem cut_cons {p t : List Char} {c : Char} :
    Cut p (c :: t) ↔ p = [] ∨ ∃ q, p = c :: q ∧ Cut q t := by
  cases p with
  | nil => simp [Cut]
  | cons d p =>
    constructor
    · rintro ⟨s, hs, he⟩
      obtain ⟨rfl, hq⟩ := List.cons.inj he
      exact .inr ⟨p, rfl, s, hs, hq⟩
    · rintro (h | ⟨_, h, s, hs, rfl⟩)
      · cases h
      · cases h
        exact ⟨s, hs, rfl⟩

/-- A cut of one character leaves nothing. -/
theorem cut_singleton {p : List Char} {c : Char} : Cut p [c] ↔ p = [] := by
  simp [cut_cons, not_cut_nil]

/-- A text in two parts is cut off in the first part or in the second. All scanners are followed by
    it. -/
theorem cut_append {p u v : List Char} : Cut p (u ++ v) ↔ Cut p u ∨ ∃ q, p = u ++ q ∧ Cut q v := by
  induction u generalizing p with
  | nil => simp [not_cut_nil]
  | cons c u ih =>
    rw [List.cons_append, cut_cons, cut_cons]
    constructor
    · rintro (rfl | ⟨q, rfl, h⟩)
      · exact .inl (.inl rfl)
      · -- the first character is there, so the rest of the first part is cut, or all of it is there
        rcases ih.1 h with h' | ⟨q', rfl, h'⟩
        · exact .inl (.inr ⟨q, rfl, h'⟩)
        · exact .inr ⟨q', rfl, h'⟩
    · rintro ((rfl | ⟨q, rfl, h⟩) | ⟨q, rfl, h⟩)
      · exact .inl rfl
      · exact .inr ⟨q, rfl, ih.2 (.inl h)⟩
      · exact .inr ⟨u ++ q, rfl, ih.2 (.inr ⟨q, rfl, h⟩)⟩

/-- What is left of white space is white space. -/
theorem Blank.of_cut {p w : List Char} (hw : Blank w) (h : Cut p w) : Blank p := by
  obtain ⟨s, -, rfl⟩ := h
  exact fun c hc => hw c (List.mem_append_left s hc)

/-- A cut leaves only white space, or it is behind the first character that is none. -/
theorem cut_blank_append {p w v : List Char} {c : Char} (hw : Blank w) (h : Cut p (w ++ c :: v)) :
    Blank p ∨ ∃ q, p = w ++ c :: q ∧ Cut q v := by
  rcases cut_append.1 h with hp | ⟨q, rfl, hp⟩
  · exact .inl (hw.of_cut hp)
  · rcases cut_cons.1 hp with rfl | ⟨q, rfl, hq⟩
    · exact .inl (by simpa using hw)
    · exact .inr ⟨q, rfl, hq⟩

/-- A scanner that skips white space meets the end, or the character it would have met. -/
theorem skipSpace_of_cut {p w v : List Char} {c : Char} (hc : ¬ isSpace c) (hw : Blank w)
    (h : Cut p (w ++ c :: v)) : skipSpace p = [] ∨ ∃ q, skipSpace p = c :: q ∧ Cut q v := by
  rcases cut_blank_append hw h with hb | ⟨q, rfl, hq⟩
  · exact .inl (skipSpace_eq_nil.2 hb)
  · exact .inr ⟨q, skipSpace_eq_cons.2 ⟨hc, w, hw, rfl⟩, hq⟩

/-- White space in front of the last character is all that a cut can leave. -/
theorem blank_of_cut {p w : List Char} {c : Char} (hw : Blank w) (h : Cut p (w ++ [c])) :
    Blank p := by
  rcases cut_blank_append hw h with h | ⟨q, -, hq⟩
  · exact h
  · exact absurd hq (not_cut_nil q)

/-! ### Scans that meet the end of the text -/

/-- The scan stopped because the text ended. -/
def CutOff {α : Type} (r : Except Stop α) : Prop :=
  ∃ s : Stop, r = .error s ∧ s.cause.category = .eof

/-- A stop at the end of the text is one. -/
theorem cutOff_before {α : Type} {c : Cause} (h : c.category = .eof) (rest : List Char) :
    CutOff (.error (.before c rest) : Except Stop α) := ⟨_, rfl, h⟩

/-- Nothing is scanned behind a stop. -/
theorem CutOff.bind {α β : Type} {r : Except Stop α} (h : CutOff r) (f : α → Except Stop β) :
    CutOff (r >>= f) := by
  obtain ⟨s, rfl, hs⟩ := h
  exact ⟨s, rfl, hs⟩

/-- To change the result does not change the stop. -/
theorem CutOff.map {α β : Type} {r : Except Stop α} (h : CutOff r) (f : α → β) :
    CutOff (r.map f) := by
  obtain ⟨s, rfl, hs⟩ := h
  exact ⟨s, rfl, hs⟩

/-- The first scan comes to its end, and the second one stops. -/
theorem cutOff_bind_of_ok {α β : Type} {r : Except Stop α} {a : α} (hr : r = .ok a)
    {f : α → Except Stop β} (h : CutOff (f a)) : CutOff (r >>= f) := by
  rw [hr]
  exact h

/-! ### Strings

An escape may be cut in the middle, and each of its scanners has to notice that the bytes run out.
-/

/-- The bytes of two texts are counted one after the other. -/
theorem byteCount_append (cs ds : List Char) :
    byteCount (cs ++ ds) = byteCount cs + byteCount ds := by
  induction cs with
  | nil => simp [byteCount]
  | cons c cs ih => rw [List.cons_append, byteCount, byteCount, ih, Nat.add_assoc]

/-- A cut leaves fewer bytes. -/
theorem Cut.byteCount_lt {p t : List Char} (h : Cut p t) : byteCount p < byteCount t := by
  obtain ⟨s, hs, rfl⟩ := h
  obtain ⟨c, cs, rfl⟩ := List.exists_cons_of_ne_nil hs
  have hc := c.utf8Size_pos
  rw [byteCount_append, byteCount]
  omega

/-- Four hexadecimal digits are four bytes. -/
theorem Hex4.byteCount_eq {ds : List Char} {n : Nat} (h : Hex4 ds n) : byteCount ds = 4 := by
  have hsize : ∀ v < 16, v.digitChar.utf8Size = 1 ∧ v.digitChar.toUpper.utf8Size = 1 := by decide
  have hdigit {c : Char} {v : Nat} (hc : HexDigit c v) : c.utf8Size = 1 := by
    rcases hc with ⟨hv, rfl | rfl⟩
    · exact (hsize v hv).1
    · exact (hsize v hv).2
  cases h with
  | intro ha hb hc hd => simp [byteCount, hdigit ha, hdigit hb, hdigit hc, hdigit hd]

/-- Of four digits some are missing. The scanner looks at the number of bytes. -/
theorem cutOff_scanHex {p ds : List Char} {n : Nat} (h : Hex4 ds n) (hp : Cut p ds) :
    CutOff (scanHex p) := by
  have hlt := hp.byteCount_lt
  rw [h.byteCount_eq] at hlt
  rw [scanHex, if_pos hlt]
  exact cutOff_before rfl _

/-- Of what stands behind the `u` of an escape something is missing. -/
theorem cutOff_scanUnicode {p raw : List Char} {c : Char} (h : Escape ('u' :: raw) c)
    (hp : Cut p raw) : CutOff (scanUnicode p) := by
  generalize hu : 'u' :: raw = text at h
  cases h with
  | letter h =>
    obtain ⟨rfl, rfl⟩ := List.cons.inj hu
    exact absurd hp (not_cut_nil p)
  | unit h =>
    obtain rfl := (List.cons.inj hu).2
    exact (cutOff_scanHex h hp).bind _
  | @pair ds es high low _ hh hl hhigh hlow hc =>
    obtain rfl := (List.cons.inj hu).2
    rcases cut_append.1 hp with hp | ⟨q, rfl, hq⟩
    · exact (cutOff_scanHex hh hp).bind _
    -- the first half is there, and the second one is expected
    have hs : scanHex (ds ++ q) = .ok high := scanHex_eq_ok.2 ⟨ds, q, hh, rfl⟩
    have hnot : ¬ isLowSurrogate high := by simp [isLowSurrogate]; omega
    have hhigh : isHighSurrogate high := by simp [isHighSurrogate]; omega
    refine cutOff_bind_of_ok hs ?_
    rw [if_neg hnot, if_pos hhigh, ← hh.length, List.drop_left]
    rcases cut_cons.1 hq with rfl | ⟨q, rfl, hq'⟩
    · exact cutOff_before rfl _
    rcases cut_cons.1 hq' with rfl | ⟨q, rfl, hq''⟩
    · exact cutOff_before rfl _
    · exact (cutOff_scanHex hl hq'').bind _

/-- Of what stands behind a backslash something is missing. -/
theorem cutOff_scanEscape {p raw : List Char} {c : Char} (h : Escape raw c) (hp : Cut p raw) :
    CutOff (scanEscape p) := by
  cases h with
  | letter h =>
    obtain rfl := cut_singleton.1 hp
    exact cutOff_before rfl _
  | unit h =>
    rcases cut_cons.1 hp with rfl | ⟨q, rfl, hq⟩
    · exact cutOff_before rfl _
    · exact (cutOff_scanUnicode (.unit h) hq).bind _
  | pair hh hl hhigh hlow hc =>
    rcases cut_cons.1 hp with rfl | ⟨q, rfl, hq⟩
    · exact cutOff_before rfl _
    · exact (cutOff_scanUnicode (.pair hh hl hhigh hlow hc) hq).bind _

/-- The closing quote is missing, and maybe more. -/
theorem cutOff_scanChars {p text s : List Char} (h : StringBody text s)
    (hp : Cut p (text ++ ['"'])) : CutOff (scanChars 0 p) := by
  induction h generalizing p with
  | nil =>
    obtain rfl := cut_singleton.1 hp
    exact cutOff_before rfl _
  | plain hquote hslash hcontrol _ ih =>
    rcases cut_cons.1 hp with rfl | ⟨q, rfl, hq⟩
    · exact cutOff_before rfl _
    · rw [scanChars, if_neg hquote, if_neg hslash, if_neg (Nat.not_lt_of_le hcontrol)]
      exact (ih hq).bind _
  | @escape raw text cs c hraw _ ih =>
    rw [List.cons_append, List.append_assoc] at hp
    rcases cut_cons.1 hp with rfl | ⟨q, rfl, hq⟩
    · exact cutOff_before rfl _
    rw [scanChars, if_neg (by decide), if_pos rfl]
    -- The cut is in the escape, or behind it.
    rcases cut_append.1 hq with hq' | ⟨q, rfl, hq'⟩
    · exact (cutOff_scanEscape hraw hq').bind _
    · refine cutOff_bind_of_ok (scanEscape_eq_ok.2 ⟨raw, q, hraw, rfl, rfl⟩) ?_
      show CutOff (scanChars raw.length (raw ++ q) >>= _)
      rw [scanChars_drop, List.drop_left]
      exact (ih hq').bind _

/-- A string of which more than the opening quote is missing. -/
theorem cutOff_scanString {p v : List Char} {s : String} (h : StringToken v s)
    (hp : Cut ('"' :: p) v) : CutOff (scanString p) := by
  cases h with
  | intro h =>
    rcases cut_cons.1 hp with he | ⟨q, he, hq⟩
    · cases he
    · cases he
      exact (cutOff_scanChars h hq).bind _

/-- Of the letters of a literal some are missing. -/
theorem cutOff_scanWord {p ws : List Char} (hp : Cut p ws) : CutOff (Json.scanWord ws p) := by
  induction ws generalizing p with
  | nil => exact absurd hp (not_cut_nil p)
  | cons w ws ih =>
    rcases cut_cons.1 hp with rfl | ⟨q, rfl, hq⟩
    · exact cutOff_before rfl _
    · rw [Json.scanWord, if_pos rfl]
      exact ih hq

/-- The cut is before a colon, or it is in what comes behind the colon. -/
theorem scanColon_of_cut {p w v : List Char} (hw : Blank w) (hp : Cut p (w ++ ':' :: v)) :
    CutOff (scanColon p) ∨ ∃ q, scanColon p = .ok q ∧ Cut q v := by
  rcases skipSpace_of_cut (by decide) hw hp with hs | ⟨q, hs, hq⟩
  · rw [scanColon, hs]
    exact .inl (cutOff_before rfl _)
  · exact .inr ⟨q, by simp [scanColon, hs], hq⟩

end Json

/-! ### Policies -/

namespace Policy

variable {p : Policy} {q : List Char}

/-- A policy's word is cut off as a string is. -/
theorem cutOff_scanWord {v : List Char} (h : StringToken v p.word) (hq : Cut ('"' :: q) v) :
    CutOff (scanWord q) := (cutOff_scanString h hq).bind _

/-- The null that is the value of a policy's key is cut off in front of it or within. -/
theorem cutOff_scanUnit {w v : List Char} (hw : Blank w) (hv : IsNull v) (hq : Cut q (w ++ v)) :
    CutOff (scanUnit q) := by
  obtain rfl := hv
  rcases skipSpace_of_cut (by decide) hw hq with hs | ⟨q, hs, hq'⟩
  · rw [scanUnit, hs]
    exact cutOff_before rfl _
  · rw [scanUnit, hs]
    exact Json.cutOff_scanWord hq'

/-- The object of a policy is cut off in one of its parts, each of which has its own scanner. -/
theorem cutOff_scanObject {u : List Char} (h : Padded (Member IsNull) u p.word)
    (hq : Cut q (u ++ ['}'])) : CutOff (scanObject q) := by
  obtain ⟨hw, ⟨hk, hw₁, hw₂, hv⟩, hw₃⟩ := h
  rename_i w w₃ k w₁ w₂ v
  obtain ⟨t, rfl⟩ := hk.exists_cons
  have hcut : Cut q (w ++ '"' :: (t ++ (w₁ ++ ':' :: ((w₂ ++ v) ++ (w₃ ++ ['}']))))) := by
    simpa using hq
  clear hq
  rcases skipSpace_of_cut (by decide) hw hcut with hs | ⟨q, hs, hkey⟩
  · rw [scanObject, hs]
    exact cutOff_before rfl _
  rw [scanObject, hs]
  -- the cut is in the key, before the colon, in the value or before the brace
  rcases cut_append.1 hkey with hin | ⟨q, rfl, hcolon⟩
  · exact (cutOff_scanWord hk (cut_cons.2 (.inr ⟨q, rfl, hin⟩))).bind _
  refine cutOff_bind_of_ok (scanWord_eq_ok.2 ⟨_, hk, rfl⟩) ?_
  rcases scanColon_of_cut hw₁ hcolon with hstop | ⟨q, hq, hvalue⟩
  · exact hstop.bind _
  refine cutOff_bind_of_ok hq ?_
  rcases cut_append.1 hvalue with hin | ⟨q, rfl, hbrace⟩
  · exact (cutOff_scanUnit hw₂ hv hin).bind _
  have hunit : scanUnit (w₂ ++ v ++ q) = .ok q :=
    scanUnit_eq_ok.2 ⟨w₂, v, hw₂, hv, List.append_assoc _ _ _⟩
  refine cutOff_bind_of_ok hunit ?_
  rw [skipSpace_eq_nil.2 (blank_of_cut hw₃ hbrace)]
  exact cutOff_before rfl _

/-- A policy is cut off in the white space before it or within. -/
theorem cutOff_scan {w v : List Char} (hw : Blank w) (hv : PolicyText v p) (hq : Cut q (w ++ v)) :
    CutOff (scan q) := by
  cases hv with
  | word hv =>
    obtain ⟨t, rfl⟩ := hv.exists_cons
    -- The text ends in the white space, or the first character of the policy is there.
    rcases skipSpace_of_cut (by decide) hw hq with hs | ⟨q, hs, hq'⟩
    · rw [scan, hs]
      exact cutOff_before rfl _
    · rw [scan, hs]
      exact cutOff_scanWord hv (cut_cons.2 (.inr ⟨q, rfl, hq'⟩))
  | object hu =>
    rcases skipSpace_of_cut (by decide) hw hq with hs | ⟨q, hs, hq'⟩
    · rw [scan, hs]
      exact cutOff_before rfl _
    · rw [scan, hs]
      exact cutOff_scanObject hu hq'

end Policy

/-! ### Capacities -/

/-- Digits that are left of a number make a smaller one. -/
theorem Json.Whole.of_cut {v p : List Char} {n : Nat} (h : Whole v n) (hp : Cut p v)
    (hne : p ≠ []) : ∃ m ≤ n, Whole p m := by
  obtain ⟨s, -, rfl⟩ := hp
  refine ⟨Nat.ofDigitChars 10 p 0, ?_, hne, fun d hd => ?_, fun ds he => ?_, rfl⟩
  · rw [← h.value, Nat.ofDigitChars_append]
    exact le_ofDigitChars s _
  · exact h.all_digits d (List.mem_append_left s hd)
  · have hzero := h.leading_zero (ds ++ s) (by rw [he]; rfl)
    exact (List.append_eq_nil_iff.1 hzero).1

/-- A capacity that is cut off can be one all the same, but the text ends behind it. -/
theorem cutOff_scanCapacity {w v q : List Char} {n : UInt64} (hw : Blank w)
    (hv : Whole v n.toNat) (hq : Cut q (w ++ v)) :
    CutOff (scanCapacity q) ∨ ∃ m, scanCapacity q = .ok (m, []) := by
  obtain ⟨c, ds, rfl⟩ := List.exists_cons_of_ne_nil hv.ne_nil
  rcases cut_blank_append hw hq with hb | ⟨q, rfl, hq'⟩
  · rw [scanCapacity, skipSpace_eq_nil.2 hb]
    exact .inl (cutOff_before rfl _)
  · obtain ⟨m, hm, hwhole⟩ := hv.of_cut (cut_cons.2 (.inr ⟨q, rfl, hq'⟩)) (by simp)
    have hfits : (UInt64.ofNat m).toNat = m :=
      UInt64.toNat_ofNat_of_lt' (hm.trans_lt n.toNat_lt)
    rw [← hfits] at hwhole
    exact .inr ⟨_, scanCapacity_eq_ok.2 ⟨w, c :: q, hw, hwhole, trivial, by simp⟩⟩

/-- What is left of a text that cannot go on with a number cannot do so either. -/
theorem Json.NumberEnds.of_cut {p t : List Char} (h : NumberEnds t) (hp : Cut p t) :
    NumberEnds p := by
  obtain ⟨s, -, rfl⟩ := hp
  cases p with
  | nil => trivial
  | cons c p => exact h

namespace Config

/-! ### Objects

The members before the cut are taken as they are in the whole text. The member with the cut in it is
stopped in its key, its colon or its value.
-/

variable {isFirst : Bool} {p q : List Char} {d d' : Draft} {f : Field}

/-- A key is missing where there is nothing but white space. -/
theorem cutOff_scanKey_of_blank (hp : Blank p) : CutOff (scanKey isFirst p) := by
  rw [scanKey, skipSpace_eq_nil.2 hp]
  exact cutOff_before rfl _

/-- At the end of the text there is no key. -/
theorem cutOff_scanKey_nil : CutOff (scanKey isFirst []) := cutOff_scanKey_of_blank nofun

/-- A key is cut off before it begins, or in its string. -/
theorem cutOff_scanKey {l k : List Char} {key : String} (hl : Lead isFirst l)
    (hk : StringToken k key) (hp : Cut p (l ++ k)) : CutOff (scanKey isFirst p) := by
  obtain ⟨t, rfl⟩ := hk.exists_cons
  have hstring {q : List Char} (hq : Cut q t) : CutOff (scanQuotedKey ('"' :: q)) :=
    cutOff_scanString hk (cut_cons.2 (.inr ⟨q, rfl, hq⟩))
  cases hl with
  | first hw =>
    rcases skipSpace_of_cut (by decide) hw hp with hs | ⟨q, hs, hq⟩
    · exact cutOff_scanKey_of_blank (skipSpace_eq_nil.1 hs)
    · rw [scanKey, hs]
      exact (hstring hq).map _
  | @next w w' hw hw' =>
    rw [List.append_assoc, List.cons_append] at hp
    -- Before the comma, between it and the quote, or in the string.
    rcases skipSpace_of_cut (by decide) hw hp with hcomma | ⟨q, hcomma, hq⟩
    · exact cutOff_scanKey_of_blank (skipSpace_eq_nil.1 hcomma)
    rcases skipSpace_of_cut (by decide) hw' hq with hquote | ⟨q', hquote, hq'⟩
    · have hstop : scanKey false p = .error (.before .eofInValue []) := by
        simp [scanKey, hcomma, hquote]
      exact ⟨_, hstop, rfl⟩
    · obtain ⟨s, hs, hcause⟩ := hstring hq'
      have hstop : scanKey false p = .error s := by
        simp [scanKey, hcomma, hquote, hs, Except.map]
      exact ⟨s, hstop, hcause⟩

/-- Members are cut off where their next key is. -/
theorem cutOff_scanMembers_of_key (h : CutOff (scanKey isFirst p)) :
    CutOff (scanMembers d isFirst p) := by
  obtain ⟨s, hs, hcause⟩ := h
  rw [scanMembers, hs]
  exact ⟨s, rfl, hcause⟩

/-- A value that is cut off leaves nothing for the rest of the object. -/
theorem cutOff_scanMembers_of_value {w w' v : List Char}
    (hkey : scanKey isFirst p = .ok (some f.key, q)) (hf : d.Lacks f) (hw : Blank w)
    (hw' : Blank w') (hv : FieldText v f) (hq : Cut q (w ++ ':' :: (w' ++ v))) :
    CutOff (scanMembers d isFirst p) := by
  rw [scanMembers, hkey]
  have hcolon := scanColon_of_cut hw hq
  cases hv with
  | policy hv =>
    have hd : ¬ d.policy?.isSome := Option.not_isSome_iff_eq_none.2 hf
    have hvalue : CutOff (scanColon q >>= Policy.scan) := by
      rcases hcolon with hstop | ⟨q', hok, hq'⟩
      · exact hstop.bind _
      · exact cutOff_bind_of_ok hok (Policy.cutOff_scan hw' hv hq')
    obtain ⟨s, hs, hcause⟩ := hvalue
    simp only [Field.key, hd, hs]
    exact ⟨s, rfl, hcause⟩
  | capacity hv =>
    have hd : ¬ d.capacity?.isSome := Option.not_isSome_iff_eq_none.2 hf
    -- A capacity that loses its last digits is a smaller one, and then nothing is left of the text.
    have hvalue : CutOff (scanColon q >>= scanCapacity) ∨
        ∃ m, (scanColon q >>= scanCapacity) = .ok (m, []) := by
      rcases hcolon with hstop | ⟨q', hok, hq'⟩
      · exact .inl (hstop.bind _)
      · rw [hok]
        exact cutOff_scanCapacity hw' hv hq'
    rcases hvalue with ⟨s, hs, hcause⟩ | ⟨m, hm⟩
    · simp only [Field.key, hd, key_ne.symm, hs]
      exact ⟨s, rfl, hcause⟩
    · simp only [Field.key, hd, key_ne.symm, hm]
      exact cutOff_scanMembers_of_key cutOff_scanKey_nil

/-- An object is cut off in one of its members or in front of the closing brace. The induction goes
    along `Joined`. -/
theorem cutOff_scanMembers {u : List Char} {fs : List Field} (hu : Joined MemberText isFirst u fs)
    (hd : d.Filled fs d') (hp : Cut p (u ++ ['}'])) : CutOff (scanMembers d isFirst p) := by
  induction hu generalizing d p with
  | done hw => exact cutOff_scanMembers_of_key (cutOff_scanKey_of_blank (blank_of_cut hw hp))
  | @item isFirst l _ t f fs hl hu ht ih =>
    cases hd with | cons hf hd =>
    obtain ⟨hk, hw, hw', hv⟩ := hu
    rename_i k w w' v
    have hcut : Cut p ((l ++ k) ++ ((w ++ ':' :: (w' ++ v)) ++ (t ++ ['}']))) := by
      simpa using hp
    -- the cut is in the key, in the value or in the members behind it
    rcases cut_append.1 hcut with hin | ⟨q, rfl, hq⟩
    · exact cutOff_scanMembers_of_key (cutOff_scanKey hl hk hin)
    have hkey : scanKey isFirst (l ++ k ++ q) = .ok (some f.key, q) :=
      scanKey_eq_some.2 ⟨l, k, hl, hk, List.append_assoc _ _ _⟩
    rcases cut_append.1 hq with hin | ⟨behind, rfl, hbehind⟩
    · exact cutOff_scanMembers_of_value hkey hf hw hw' hv hin
    · have hvalue : ValueBehind f (w ++ ':' :: (w' ++ v) ++ behind) behind :=
        ⟨w, w', v, hw, hw', hv, by simp⟩
      have hends : NumberEnds (t ++ ['}']) :=
        ht.numberEnds ⟨by decide, by decide, by decide, by decide⟩
      rw [scanMembers_step hkey hf hvalue (hends.of_cut hbehind)]
      exact ih hd hbehind

/-! ### Lists -/

/-- An element is missing where there is nothing but white space. -/
theorem cutOff_scanNext_of_blank (hp : Blank p) : CutOff (scanNext isFirst p) := by
  rw [scanNext, skipSpace_eq_nil.2 hp]
  exact cutOff_before rfl _

/-- A list is cut off before its next element, or it is cut off from this element on. -/
theorem scanNext_of_cut {l v t : List Char} (hl : Lead isFirst l) (hv : FieldText v f)
    (hp : Cut p (l ++ (v ++ t))) :
    CutOff (scanNext isFirst p) ∨ ∃ q, scanNext isFirst p = .ok (true, q) ∧ Cut q (v ++ t) := by
  obtain ⟨c, v, rfl, hc, hend⟩ := hv.exists_cons
  -- If the first character of the element is there, the scanner finds one.
  have hfound {q : List Char} (hq : Cut q (v ++ t)) :
      ∃ q', scanNext isFirst (l ++ c :: q) = .ok (true, q') ∧ Cut q' (c :: v ++ t) :=
    ⟨_, scanNext_of_lead hl hc hend, cut_cons.2 (.inr ⟨q, rfl, hq⟩)⟩
  cases hl with
  | first hw =>
    rcases cut_blank_append hw hp with hb | ⟨q, rfl, hq⟩
    · exact .inl (cutOff_scanNext_of_blank hb)
    · exact .inr (hfound hq)
  | @next w w' hw hw' =>
    rw [List.append_assoc, List.cons_append] at hp
    rcases cut_blank_append hw hp with hb | ⟨q, rfl, hq⟩
    · exact .inl (cutOff_scanNext_of_blank hb)
    rcases cut_blank_append hw' hq with hb | ⟨q, rfl, hq'⟩
    · left
      have hcomma : skipSpace (w ++ ',' :: q) = ',' :: q :=
        skipSpace_eq_cons.2 ⟨by decide, w, hw, rfl⟩
      have hstop : scanNext false (w ++ ',' :: q) = .error (.before .eofInValue []) := by
        simp [scanNext, hcomma, skipSpace_eq_nil.2 hb]
      exact ⟨_, hstop, rfl⟩
    · right
      simpa using hfound hq'

/-- The closing bracket is missing where there is nothing but white space. -/
theorem cutOff_scanClose (hp : Blank p) : CutOff (scanClose p) := by
  rw [scanClose, skipSpace_eq_nil.2 hp]
  exact cutOff_before rfl _

/-- A list is cut off in one of its elements, which are two at most, or in front of the closing
    bracket. -/
theorem cutOff_scanElements {u : List Char} {fs : List Field} (hu : Joined FieldText true u fs)
    (hkeys : fs.map Field.key <+: [policyKey, capacityKey]) (hp : Cut p (u ++ [']'])) :
    CutOff (scanElements p) := by
  cases fs with
  | nil =>
    cases hu with
    | done hw => exact (cutOff_scanNext_of_blank (blank_of_cut hw hp)).bind _
  | cons f fs =>
    obtain ⟨l, v, t, hl, hv, ht, rfl⟩ := hu.exists_of_cons
    obtain ⟨x, rfl⟩ := eq_policy_of_key (List.cons_prefix_cons.1 hkeys).1
    rw [List.append_assoc, List.append_assoc] at hp
    rcases scanNext_of_cut hl hv hp with hstop | ⟨q, hnext, hq⟩
    · exact hstop.bind _
    refine cutOff_bind_of_ok hnext ?_
    cases hv with | policy hv =>
    rcases cut_append.1 hq with hin | ⟨behind, rfl, hbehind⟩
    · exact (Policy.cutOff_scan (w := []) nofun hv hin).bind _
    refine cutOff_bind_of_ok (Policy.scan_eq_ok.2 ⟨[], v, nofun, hv, rfl⟩) ?_
    -- behind the policy there is the end of the list, or the capacity and then the end
    cases fs with
    | nil =>
      cases ht with
      | done ht => exact (cutOff_scanNext_of_blank (blank_of_cut ht hbehind)).bind _
    | cons g fs =>
      obtain ⟨hg, hnil⟩ := List.cons_prefix_cons.1 (List.cons_prefix_cons.1 hkeys).2
      obtain ⟨n, rfl⟩ := eq_capacity_of_key hg
      obtain rfl := List.map_eq_nil_iff.1 (List.prefix_nil.1 hnil)
      obtain ⟨l', v', t', hl', hv', ht', rfl⟩ := ht.exists_of_cons
      have hends : NumberEnds (t' ++ [']']) :=
        ht'.numberEnds ⟨by decide, by decide, by decide, by decide⟩
      rw [List.append_assoc, List.append_assoc] at hbehind
      rcases scanNext_of_cut hl' hv' hbehind with hstop | ⟨q', hnext', hq'⟩
      · exact hstop.bind _
      refine cutOff_bind_of_ok hnext' ?_
      cases hv' with | capacity hv' =>
      cases ht' with | done ht' =>
      rcases cut_append.1 hq' with hin | ⟨tail, rfl, htail⟩
      · rcases cutOff_scanCapacity (w := []) nofun hv' hin with hstop | ⟨m, hm⟩
        · exact hstop.bind _
        · exact cutOff_bind_of_ok hm ((cutOff_scanClose (p := []) nofun).bind _)
      · have hcapacity : scanCapacity (v' ++ tail) = .ok (n, tail) :=
          scanCapacity_eq_ok.2 ⟨[], v', nofun, hv', hends.of_cut htail, rfl⟩
        exact cutOff_bind_of_ok hcapacity ((cutOff_scanClose (blank_of_cut ht' htail)).bind _)

/-! ### Whole configurations -/

/-- A configuration is cut off in the white space before it or within. -/
theorem cutOff_scan {w u : List Char} {c : Config} (hw : Blank w) (hu : BodyText u c)
    (hp : Cut p (w ++ u)) : CutOff (scan p) := by
  refine CutOff.map ?_ _
  cases hu with
  | object hu hkeys hc =>
    obtain ⟨d, hd⟩ := Draft.exists_filled_empty.2 hkeys
    rcases skipSpace_of_cut (by decide) hw hp with hs | ⟨q, hs, hq⟩
    · rw [hs]
      exact cutOff_before rfl _
    · rw [hs]
      exact cutOff_scanMembers (joined_true.2 hu) hd hq
  | list hu hkeys hc =>
    rcases skipSpace_of_cut (by decide) hw hp with hs | ⟨q, hs, hq⟩
    · rw [hs]
      exact cutOff_before rfl _
    · rw [hs]
      exact cutOff_scanElements (joined_true.2 hu) hkeys hq

/-- **Truncated configurations.** A configuration text of which more than white space is missing
    ends too early. -/
theorem read_of_cut {t missing : String} {c : Config} (h : read (t ++ missing) = .ok c)
    (hmissing : ¬ Blank missing.toList) : ∃ e, read t = .error e ∧ e.category = .eof := by
  rw [read_eq_ok, String.toList_append, ConfigText] at h
  generalize hcs : t.toList ++ missing.toList = cs at h
  obtain ⟨hw, hu, hw'⟩ := h
  rename_i w u w'
  have hcut : Cut t.toList (w ++ u) := by
    rw [← List.append_assoc, List.append_eq_append_iff] at hcs
    rcases hcs with ⟨v, hv, he⟩ | ⟨v, -, he⟩
    · refine ⟨v, ?_, hv.symm⟩
      rintro rfl
      exact hmissing (he ▸ hw')
    · exact absurd (fun c hc => hw' c (he ▸ List.mem_append_right v hc)) hmissing
  obtain ⟨s, hs, hcause⟩ := cutOff_scan hw hu hcut
  exact ⟨s.locate t.toList, by rw [read, readWhole, hs]; rfl, hcause⟩

end Config

end StackMachine
