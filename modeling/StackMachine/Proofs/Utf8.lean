import Mathlib.Data.List.Basic
import Mathlib.Data.List.TakeWhile
import StackMachine.Text.Raw

namespace StackMachine.Text

/-!
# Reading UTF-8

A string of bytes is read as a text without stray bytes exactly if it is the UTF-8 of that text.

* `Follow low high fs` — bytes that can come after the first byte of a character.
* `Takes b fs v` — the table of first bytes takes these bytes for the character of code point `v`.
* `utf8EncodeChar_of_lead`, `takes_of_utf8EncodeChar` — what it takes for a character are the bytes
  of that character, and the bytes of every character of several bytes are taken for it.
* `Raw.string?_ofBytes`, `Raw.string?_ofBytes_eq_none` — reading is the inverse of encoding, and
  finds no text in bytes that encode none.
-/

/-! ### Bytes as numbers

Bytes are made and taken apart by division; the linear bounds are then left to arithmetic.
-/

/-- A number below 256 is a byte. -/
theorem toNat_ofNat_of_lt {n : Nat} (h : n < 256) : (UInt8.ofNat n).toNat = n := by
  rw [UInt8.toNat_ofNat']
  exact Nat.mod_eq_of_lt h

/-- A byte is known by its number. -/
theorem ofNat_eq_of_toNat {n : Nat} {b : UInt8} (h : n = b.toNat) : UInt8.ofNat n = b := by
  rw [h, UInt8.ofNat_toNat]

/-- The table of first bytes, as numbers. -/
theorem lead?_eq (b : UInt8) : lead? b =
    if 0xc2 ≤ b.toNat ∧ b.toNat ≤ 0xdf then some (1, 0x80, 0xbf)
    else if b.toNat = 0xe0 then some (2, 0xa0, 0xbf)
    else if b.toNat = 0xed then some (2, 0x80, 0x9f)
    else if 0xe1 ≤ b.toNat ∧ b.toNat ≤ 0xef then some (2, 0x80, 0xbf)
    else if b.toNat = 0xf0 then some (3, 0x90, 0xbf)
    else if 0xf1 ≤ b.toNat ∧ b.toNat ≤ 0xf3 then some (3, 0x80, 0xbf)
    else if b.toNat = 0xf4 then some (3, 0x80, 0x8f)
    else none := by
  simp only [lead?, UInt8.le_iff_toNat_le, ← UInt8.toNat_inj]
  rfl

/-- What is in the table of first bytes, by the number of bytes that follow. -/
theorem lead?_eq_some {b : UInt8} {n : Nat} {low high : UInt8} (h : lead? b = some (n, low, high)) :
    (0x80 ≤ low.toNat ∧ high.toNat < 0xc0) ∧
      ((n = 1 ∧ 0xc2 ≤ b.toNat ∧ b.toNat ≤ 0xdf) ∨
        (n = 2 ∧ (0xe0 ≤ b.toNat ∧ b.toNat ≤ 0xef) ∧ (b.toNat = 0xe0 → 0xa0 ≤ low.toNat) ∧
          (b.toNat = 0xed → high.toNat ≤ 0x9f)) ∨
        (n = 3 ∧ (0xf0 ≤ b.toNat ∧ b.toNat ≤ 0xf4) ∧ (b.toNat = 0xf0 → 0x90 ≤ low.toNat) ∧
          (b.toNat = 0xf4 → high.toNat ≤ 0x8f))) := by
  rw [lead?_eq] at h
  -- one case for each line of the table
  split at h
  · next hb =>
    cases h
    exact ⟨by decide, .inl ⟨rfl, hb⟩⟩
  split at h
  · next hb =>
    cases h
    exact ⟨by decide, .inr (.inl ⟨rfl, by omega, fun _ => by decide, fun _ => by omega⟩)⟩
  split at h
  · next hb =>
    cases h
    exact ⟨by decide, .inr (.inl ⟨rfl, by omega, fun _ => by omega, fun _ => by decide⟩)⟩
  split at h
  · next hb =>
    cases h
    exact ⟨by decide, .inr (.inl ⟨rfl, by omega, fun _ => by omega, fun _ => by omega⟩)⟩
  split at h
  · next hb =>
    cases h
    exact ⟨by decide, .inr (.inr ⟨rfl, by omega, fun _ => by decide, fun _ => by omega⟩)⟩
  split at h
  · next hb =>
    cases h
    exact ⟨by decide, .inr (.inr ⟨rfl, by omega, fun _ => by omega, fun _ => by omega⟩)⟩
  split at h
  · next hb =>
    cases h
    exact ⟨by decide, .inr (.inr ⟨rfl, by omega, fun _ => by omega, fun _ => by decide⟩)⟩
  cases h

/-- The bytes that continue a character, as numbers. -/
theorem isContinuation_iff {b : UInt8} : isContinuation b ↔ 0x80 ≤ b.toNat ∧ b.toNat < 0xc0 := by
  simp only [isContinuation, Bool.and_eq_true, decide_eq_true_eq, UInt8.le_iff_toNat_le,
    UInt8.lt_iff_toNat_lt]
  rfl

/-! ### Bytes after the first -/

/-- Bytes that can come after the first byte of a character: one within bounds of its own, and after
    it bytes that continue a character. -/
def Follow (low high : UInt8) : List UInt8 → Prop
  | [] => False
  | f :: fs => (low ≤ f ∧ f ≤ high) ∧ ∀ g ∈ fs, isContinuation g

/-- Such bytes, by their numbers. -/
theorem follow_cons {low high f : UInt8} {fs : List UInt8} (hlow : low.toNat ≤ f.toNat)
    (hhigh : f.toNat ≤ high.toNat) (hfs : ∀ g ∈ fs, isContinuation g) : Follow low high (f :: fs) :=
  ⟨⟨UInt8.le_iff_toNat_le.2 hlow, UInt8.le_iff_toNat_le.2 hhigh⟩, hfs⟩

/-- Bytes that can follow are found, all of them and no others. -/
theorem followers_append {low high : UInt8} {fs : List UInt8} (h : Follow low high fs)
    (rest : List UInt8) : followers fs.length low high (fs ++ rest) = fs := by
  cases fs with
  | nil => exact h.elim
  | cons f fs =>
    obtain ⟨hf, hfs⟩ := h
    have htake : (fs ++ rest).take fs.length = fs := List.take_left
    have hwhile : fs.takeWhile isContinuation = fs := List.takeWhile_eq_self_iff.2 hfs
    simp [followers, hf, htake, hwhile]

/-- What is found in the full number can follow, and stands in front of the rest. -/
theorem follow_followers {n : Nat} {low high : UInt8} {bs : List UInt8} (hn : 0 < n)
    (h : (followers n low high bs).length = n) :
    Follow low high (followers n low high bs) ∧ followers n low high bs <+: bs := by
  cases bs with
  | nil => simp [followers] at h; omega
  | cons b bs =>
    by_cases hb : 0 < n ∧ low ≤ b ∧ b ≤ high
    · simp only [followers, if_pos hb] at h ⊢
      refine ⟨⟨hb.2, fun g hg => ?_⟩, ?_⟩
      · exact List.mem_takeWhile_imp hg
      · exact List.prefix_cons_inj _ |>.2 ((List.takeWhile_prefix _).trans (List.take_prefix _ _))
    · simp only [followers, if_neg hb, List.length_nil] at h
      omega

/-! ### Characters of several bytes

One lemma for each number of bytes, in both directions: from the bytes to the character, and from
the character to the bytes.
-/

/-- A code point is the number of its character. -/
theorem toNat_val_ofNat {n : Nat} (h : n.isValidChar) : (Char.ofNat n).val.toNat = n := by
  rw [Char.ofNat, dif_pos h]
  rfl

section

variable {b f g h : UInt8}

/-- Unfolding lemma: 5 bits of the first byte, and 6 of the other one. -/
theorem codePoint_two (b f : UInt8) : codePoint b [f] = b.toNat % 32 * 64 + f.toNat % 64 := rfl

/-- Unfolding lemma: 4 bits of the first byte, and 6 of each other one. -/
theorem codePoint_three (b f g : UInt8) :
    codePoint b [f, g] = (b.toNat % 16 * 64 + f.toNat % 64) * 64 + g.toNat % 64 := rfl

/-- Unfolding lemma: 3 bits of the first byte, and 6 of each other one. -/
theorem codePoint_four (b f g h : UInt8) : codePoint b [f, g, h] =
    ((b.toNat % 8 * 64 + f.toNat % 64) * 64 + g.toNat % 64) * 64 + h.toNat % 64 := rfl

/-- Two bytes that are taken for a character are its bytes. The first one leaves out those
    characters that need one byte only. -/
theorem utf8EncodeChar_two (hb : 0xc2 ≤ b.toNat ∧ b.toNat ≤ 0xdf)
    (hf : 0x80 ≤ f.toNat ∧ f.toNat < 0xc0) :
    String.utf8EncodeChar (Char.ofNat (codePoint b [f])) = [b, f] := by
  rw [codePoint_two]
  generalize hv : b.toNat % 32 * 64 + f.toNat % 64 = v
  have hval : (Char.ofNat v).val.toNat = v := toNat_val_ofNat (by left; omega)
  have h₁ : ¬ v ≤ 127 := by omega
  have h₂ : v ≤ 2047 := by omega
  simp only [String.utf8EncodeChar, hval, if_neg h₁, if_pos h₂]
  rw [ofNat_eq_of_toNat (b := b) (by omega), ofNat_eq_of_toNat (b := f) (by omega)]

/-- Three bytes are. The bounds of the second one leave out those characters that need two bytes
    only, and the surrogates. -/
theorem utf8EncodeChar_three (hb : 0xe0 ≤ b.toNat ∧ b.toNat ≤ 0xef)
    (hf : 0x80 ≤ f.toNat ∧ f.toNat < 0xc0) (hg : 0x80 ≤ g.toNat ∧ g.toNat < 0xc0)
    (hlow : b.toNat = 0xe0 → 0xa0 ≤ f.toNat) (hhigh : b.toNat = 0xed → f.toNat ≤ 0x9f) :
    String.utf8EncodeChar (Char.ofNat (codePoint b [f, g])) = [b, f, g] := by
  rw [codePoint_three]
  generalize hv : (b.toNat % 16 * 64 + f.toNat % 64) * 64 + g.toNat % 64 = v
  have hvalid : v.isValidChar := by
    rcases Nat.lt_or_ge v 55296 with hlt | hge
    · exact .inl hlt
    · exact .inr (by omega)
  have hval := toNat_val_ofNat hvalid
  have h₁ : ¬ v ≤ 127 := by omega
  have h₂ : ¬ v ≤ 2047 := by omega
  have h₃ : v ≤ 65535 := by omega
  simp only [String.utf8EncodeChar, hval, if_neg h₁, if_neg h₂, if_pos h₃]
  rw [ofNat_eq_of_toNat (b := b) (by omega), ofNat_eq_of_toNat (b := f) (by omega),
    ofNat_eq_of_toNat (b := g) (by omega)]

/-- Four bytes are. The bounds of the second one leave out those characters that need three bytes
    only, and what is beyond the last code point. -/
theorem utf8EncodeChar_four (hb : 0xf0 ≤ b.toNat ∧ b.toNat ≤ 0xf4)
    (hf : 0x80 ≤ f.toNat ∧ f.toNat < 0xc0) (hg : 0x80 ≤ g.toNat ∧ g.toNat < 0xc0)
    (hh : 0x80 ≤ h.toNat ∧ h.toNat < 0xc0) (hlow : b.toNat = 0xf0 → 0x90 ≤ f.toNat)
    (hhigh : b.toNat = 0xf4 → f.toNat ≤ 0x8f) :
    String.utf8EncodeChar (Char.ofNat (codePoint b [f, g, h])) = [b, f, g, h] := by
  rw [codePoint_four]
  generalize hv : ((b.toNat % 8 * 64 + f.toNat % 64) * 64 + g.toNat % 64) * 64 + h.toNat % 64 = v
  have hval : (Char.ofNat v).val.toNat = v := toNat_val_ofNat (.inr (by omega))
  have h₁ : ¬ v ≤ 127 := by omega
  have h₂ : ¬ v ≤ 2047 := by omega
  have h₃ : ¬ v ≤ 65535 := by omega
  simp only [String.utf8EncodeChar, hval, if_neg h₁, if_neg h₂, if_neg h₃]
  rw [ofNat_eq_of_toNat (b := b) (by omega), ofNat_eq_of_toNat (b := f) (by omega),
    ofNat_eq_of_toNat (b := g) (by omega), ofNat_eq_of_toNat (b := h) (by omega)]

/-- Bytes that the table of first bytes takes for a character are the bytes of that character. -/
theorem utf8EncodeChar_of_lead {n : Nat} {low high : UInt8} {fs : List UInt8}
    (hl : lead? b = some (n, low, high)) (hf : Follow low high fs) (hn : fs.length = n) :
    String.utf8EncodeChar (Char.ofNat (codePoint b fs)) = b :: fs := by
  obtain ⟨⟨hlow, hhigh⟩, hb⟩ := lead?_eq_some hl
  cases fs with
  | nil => exact hf.elim
  | cons f fs =>
    obtain ⟨⟨hf₁, hf₂⟩, hfs⟩ := hf
    rw [UInt8.le_iff_toNat_le] at hf₁ hf₂
    have hfc : 0x80 ≤ f.toNat ∧ f.toNat < 0xc0 := by omega
    -- One case for each row of the table of first bytes, by how many bytes follow.
    rcases hb with ⟨rfl, hb⟩ | ⟨rfl, hb, h₁, h₂⟩ | ⟨rfl, hb, h₁, h₂⟩
    · obtain rfl : fs = [] := List.length_eq_zero_iff.1 (Nat.succ.inj hn)
      exact utf8EncodeChar_two hb hfc
    · obtain ⟨g, rfl⟩ := List.length_eq_one_iff.1 (Nat.succ.inj hn)
      have hg := isContinuation_iff.1 (hfs g (by simp))
      exact utf8EncodeChar_three hb hfc hg (by omega) (by omega)
    · obtain ⟨g, h, rfl⟩ := List.length_eq_two.1 (Nat.succ.inj hn)
      have hg := isContinuation_iff.1 (hfs g (by simp))
      have hh := isContinuation_iff.1 (hfs h (by simp))
      exact utf8EncodeChar_four hb hfc hg hh (by omega) (by omega)

/-- The table of first bytes takes these bytes for the character of code point `v`. -/
def Takes (b : UInt8) (fs : List UInt8) (v : Nat) : Prop :=
  ∃ low high, lead? b = some (fs.length, low, high) ∧ Follow low high fs ∧ codePoint b fs = v

/-- The bytes of a character of two bytes are taken for it. -/
theorem takes_two {v : Nat} (h₁ : 127 < v) (h₂ : v ≤ 2047) (hb : b.toNat = v / 64 % 32 + 192)
    (hf : f.toNat = v % 64 + 128) : Takes b [f] v := by
  have hlead : lead? b = some (1, 0x80, 0xbf) := by
    rw [lead?_eq, if_pos (by omega)]
  have hfollow : Follow 0x80 0xbf [f] :=
    follow_cons (show 128 ≤ f.toNat by omega) (show f.toNat ≤ 191 by omega) (by simp)
  refine ⟨0x80, 0xbf, hlead, hfollow, ?_⟩
  rw [codePoint_two]
  omega

/-- The bytes of a character of three bytes are taken for it. -/
theorem takes_three {v : Nat} (h₂ : 2047 < v) (h₃ : v ≤ 65535) (hvalid : v.isValidChar)
    (hb : b.toNat = v / 4096 % 16 + 224) (hf : f.toNat = v / 64 % 64 + 128)
    (hg : g.toNat = v % 64 + 128) : Takes b [f, g] v := by
  have hcode : codePoint b [f, g] = v := by
    rw [codePoint_three]
    omega
  have hrest : ∀ k ∈ [g], isContinuation k := by
    simpa using isContinuation_iff.2 (by omega)
  -- the second byte has bounds of its own after the first byte of the line and after that of the
  -- surrogates
  by_cases he0 : b.toNat = 0xe0
  · have hlead : lead? b = some (2, 0xa0, 0xbf) := by
      rw [lead?_eq, if_neg (by omega), if_pos he0]
    exact ⟨0xa0, 0xbf, hlead, follow_cons (show 160 ≤ f.toNat by omega)
      (show f.toNat ≤ 191 by omega) hrest, hcode⟩
  by_cases hed : b.toNat = 0xed
  · have hlead : lead? b = some (2, 0x80, 0x9f) := by
      rw [lead?_eq, if_neg (by omega), if_neg he0, if_pos hed]
    have hhigh : f.toNat ≤ 159 := by
      rcases hvalid with hv | hv <;> omega
    exact ⟨0x80, 0x9f, hlead, follow_cons (show 128 ≤ f.toNat by omega) hhigh hrest, hcode⟩
  · have hlead : lead? b = some (2, 0x80, 0xbf) := by
      rw [lead?_eq, if_neg (by omega), if_neg he0, if_neg hed, if_pos (by omega)]
    exact ⟨0x80, 0xbf, hlead, follow_cons (show 128 ≤ f.toNat by omega)
      (show f.toNat ≤ 191 by omega) hrest, hcode⟩

/-- The bytes of a character of four bytes are taken for it. -/
theorem takes_four {v : Nat} (h₃ : 65535 < v) (hvalid : v.isValidChar)
    (hb : b.toNat = v / 262144 % 8 + 240) (hf : f.toNat = v / 4096 % 64 + 128)
    (hg : g.toNat = v / 64 % 64 + 128) (hh : h.toNat = v % 64 + 128) : Takes b [f, g, h] v := by
  have hv : v < 1114112 := by
    rcases hvalid with hv | hv <;> omega
  have hcode : codePoint b [f, g, h] = v := by
    rw [codePoint_four]
    omega
  have hrest : ∀ k ∈ [g, h], isContinuation k := by
    simpa using And.intro (isContinuation_iff.2 (by omega)) (isContinuation_iff.2 (by omega))
  -- the second byte has bounds of its own after the first byte of the line and after the last one
  by_cases hf0 : b.toNat = 0xf0
  · have hlead : lead? b = some (3, 0x90, 0xbf) := by
      rw [lead?_eq, if_neg (by omega), if_neg (by omega), if_neg (by omega), if_neg (by omega),
        if_pos hf0]
    exact ⟨0x90, 0xbf, hlead, follow_cons (show 144 ≤ f.toNat by omega)
      (show f.toNat ≤ 191 by omega) hrest, hcode⟩
  by_cases hf4 : b.toNat = 0xf4
  · have hlead : lead? b = some (3, 0x80, 0x8f) := by
      rw [lead?_eq, if_neg (by omega), if_neg (by omega), if_neg (by omega), if_neg (by omega),
        if_neg hf0, if_neg (by omega), if_pos hf4]
    exact ⟨0x80, 0x8f, hlead, follow_cons (show 128 ≤ f.toNat by omega)
      (show f.toNat ≤ 143 by omega) hrest, hcode⟩
  · have hlead : lead? b = some (3, 0x80, 0xbf) := by
      rw [lead?_eq, if_neg (by omega), if_neg (by omega), if_neg (by omega), if_neg (by omega),
        if_neg hf0, if_pos (by omega)]
    exact ⟨0x80, 0xbf, hlead, follow_cons (show 128 ≤ f.toNat by omega)
      (show f.toNat ≤ 191 by omega) hrest, hcode⟩

/-- The bytes of a character are one byte below 128, or what the table of first bytes takes for that
    character. -/
theorem takes_of_utf8EncodeChar {c : Char} {fs : List UInt8}
    (h : String.utf8EncodeChar c = b :: fs) :
    (b < 0x80 ∧ fs = [] ∧ b.toNat = c.toNat) ∨ Takes b fs c.toNat := by
  have hvalid : c.toNat.isValidChar := c.valid
  have hn : c.val.toNat = c.toNat := rfl
  simp only [String.utf8EncodeChar, hn] at h
  rw [UInt8.lt_iff_toNat_lt]
  -- From here on it is arithmetic about the code point `v`, at the three bounds between the rows.
  generalize c.toNat = v at hvalid h
  by_cases h₁ : v ≤ 127
  · rw [if_pos h₁] at h
    obtain ⟨rfl, rfl⟩ := List.cons.inj h
    rw [toNat_ofNat_of_lt (by omega)]
    exact .inl ⟨Nat.lt_succ_of_le h₁, rfl, rfl⟩
  · rw [if_neg h₁] at h
    right
    by_cases h₂ : v ≤ 2047
    · rw [if_pos h₂] at h
      obtain ⟨rfl, rfl⟩ := List.cons.inj h
      exact takes_two (by omega) h₂ (toNat_ofNat_of_lt (by omega)) (toNat_ofNat_of_lt (by omega))
    · rw [if_neg h₂] at h
      by_cases h₃ : v ≤ 65535
      · rw [if_pos h₃] at h
        obtain ⟨rfl, rfl⟩ := List.cons.inj h
        exact takes_three (by omega) h₃ hvalid (toNat_ofNat_of_lt (by omega))
          (toNat_ofNat_of_lt (by omega)) (toNat_ofNat_of_lt (by omega))
      · rw [if_neg h₃] at h
        obtain ⟨rfl, rfl⟩ := List.cons.inj h
        exact takes_four (by omega) hvalid (toNat_ofNat_of_lt (by omega))
          (toNat_ofNat_of_lt (by omega)) (toNat_ofNat_of_lt (by omega))
          (toNat_ofNat_of_lt (by omega))

end

/-! ### Glyphs

A glyph is a character or bytes that are part of none. Reading is by glyphs, so the inductions are
over characters, with the bytes that each takes.
-/

/-- No byte below 128 is in the table of first bytes. -/
theorem not_lt_of_lead {b : UInt8} {p : Nat × UInt8 × UInt8} (h : lead? b = some p) :
    ¬ b < 0x80 := by
  obtain ⟨-, hb⟩ := lead?_eq_some h
  rw [UInt8.lt_iff_toNat_lt]
  show ¬ _ < 128
  omega

/-- The bytes of a character make a glyph that is that character, whatever comes after them. -/
theorem glyphAt_of_utf8EncodeChar {c : Char} {b : UInt8} {fs : List UInt8}
    (h : String.utf8EncodeChar c = b :: fs) (rest : List UInt8) :
    glyphAt b (fs ++ rest) = (.char c, fs.length) := by
  rcases takes_of_utf8EncodeChar h with ⟨hb, rfl, hv⟩ | ⟨low, high, hl, hf, hv⟩
  · rw [glyphAt, if_pos hb, hv, Char.ofNat_toNat]
    rfl
  · simp only [glyphAt, if_neg (not_lt_of_lead hl), hl, followers_append hf, if_pos, hv,
      Char.ofNat_toNat]

/-- A glyph that is a character is made of the bytes of that character. -/
theorem utf8EncodeChar_of_glyphAt {c : Char} {b : UInt8} {bs : List UInt8} {n : Nat}
    (h : glyphAt b bs = (.char c, n)) :
    ∃ fs rest, bs = fs ++ rest ∧ fs.length = n ∧ String.utf8EncodeChar c = b :: fs := by
  rw [glyphAt] at h
  by_cases hb : b < 0x80
  · rw [if_pos hb] at h
    cases h
    have hlt : b.toNat < 128 := UInt8.lt_iff_toNat_lt.1 hb
    have hval := toNat_val_ofNat (n := b.toNat) (.inl (by omega))
    refine ⟨[], bs, rfl, rfl, ?_⟩
    simp only [String.utf8EncodeChar, hval, if_pos (Nat.le_of_lt_succ hlt), UInt8.ofNat_toNat]
  · rw [if_neg hb] at h
    cases hl : lead? b with
    | none => simp [hl] at h
    | some p =>
      obtain ⟨n', low, high⟩ := p
      simp only [hl] at h
      -- All bytes that the first one announces are there, or it is a stray one.
      by_cases hn : (followers n' low high bs).length = n'
      · rw [if_pos hn] at h
        cases h
        have hpos : 0 < n := by
          obtain ⟨-, hb⟩ := lead?_eq_some hl
          omega
        obtain ⟨hf, rest, hrest⟩ := follow_followers hpos hn
        exact ⟨_, rest, hrest.symm, hn, utf8EncodeChar_of_lead hl hf hn⟩
      · rw [if_neg hn] at h
        cases h

namespace Raw

/-- Bytes that were taken by a glyph are passed over. -/
theorem ofBytesFrom_append (fs rest : List UInt8) :
    ofBytesFrom fs.length (fs ++ rest) = ofBytes rest := by
  induction fs with
  | nil => rfl
  | cons f fs ih => exact ih

/-- Unfolding lemma: the first glyph, and those behind its bytes. -/
theorem ofBytes_cons (b : UInt8) (bs : List UInt8) :
    ofBytes (b :: bs) = (glyphAt b bs).1 :: ofBytesFrom (glyphAt b bs).2 bs := rfl

/-- The bytes of a text are those of its characters. -/
theorem toUTF8_eq (t : String) :
    t.toUTF8.data.toList = t.toList.flatMap String.utf8EncodeChar := by
  have ht : t.toByteArray = t.toList.utf8Encode := by
    rw [← String.toByteArray_ofList, String.ofList_toList]
  rw [String.toUTF8_eq_toByteArray, ht, List.utf8Encode, List.toList_data_toByteArray]

/-- The bytes of characters are read as these characters. -/
theorem ofBytes_flatMap (cs : List Char) :
    ofBytes (cs.flatMap String.utf8EncodeChar) = cs.map .char := by
  induction cs with
  | nil => rfl
  | cons c cs ih =>
    obtain ⟨b, fs, h⟩ := List.exists_cons_of_ne_nil (String.utf8EncodeChar_ne_nil (c := c))
    rw [List.flatMap_cons, h, List.cons_append, ofBytes_cons, glyphAt_of_utf8EncodeChar h,
      ofBytesFrom_append, ih, List.map_cons]

/-- What is read as characters are their bytes. -/
theorem flatMap_of_ofBytes {bs : List UInt8} {cs : List Char} (h : ofBytes bs = cs.map .char) :
    cs.flatMap String.utf8EncodeChar = bs := by
  induction cs generalizing bs with
  | nil =>
    cases bs with
    | nil => rfl
    | cons b bs => cases h
  | cons c cs ih =>
    cases bs with
    | nil => cases h
    | cons b bs =>
      rw [ofBytes_cons, List.map_cons] at h
      cases hg : glyphAt b bs with
      | mk g n =>
        rw [hg] at h
        obtain ⟨rfl, hcs⟩ := List.cons.inj h
        obtain ⟨fs, rest, rfl, rfl, hb⟩ := utf8EncodeChar_of_glyphAt hg
        -- the bytes of the glyph are skipped, so reading goes on right behind them
        have hrest : ofBytes rest = cs.map .char := (ofBytesFrom_append fs rest).symm.trans hcs
        rw [List.flatMap_cons, hb, ih hrest, List.cons_append]

/-- **Reading UTF-8.** Bytes are read as a text without stray bytes exactly if they are the UTF-8 of
    that text. -/
theorem string?_ofBytes {bs : List UInt8} {t : String} :
    (ofBytes bs).string? = some t ↔ t.toUTF8.data.toList = bs := by
  rw [toUTF8_eq]
  constructor
  · intro h
    exact flatMap_of_ofBytes (string?_eq_some.1 h)
  · rintro rfl
    rw [ofBytes_flatMap]
    exact string?_ofString t

/-- Bytes that are not read as a text are the UTF-8 of none. -/
theorem string?_ofBytes_eq_none {bs : List UInt8} :
    (ofBytes bs).string? = none ↔ ∀ t : String, t.toUTF8.data.toList ≠ bs := by
  simp only [Option.eq_none_iff_forall_ne_some, ne_eq, string?_ofBytes]

end Raw

end StackMachine.Text
