namespace StackMachine.Text

/-!
# Raw text

What the system hands over as text is a string of bytes that need not be UTF-8. It is kept here as
its characters, with the bytes that make no character in between.

* `Glyph`, `Raw` — a character or a group of stray bytes, and a text of them.
* `Raw.ofBytes`, `Raw.bytes` — from bytes and back.
* `Raw.string?`, `Raw.lossy` — the text if it has no stray bytes, and the text with a replacement
  character for each group of them.
-/

/-- A character, or a group of bytes that are the beginning of none. -/
inductive Glyph where
  | char (c : Char)
  | stray (bytes : List UInt8)
  deriving DecidableEq, Repr

/-- Text as the system hands it over. -/
abbrev Raw := List Glyph

/-- Whether a byte continues a character. -/
def isContinuation (b : UInt8) : Bool := 0x80 ≤ b && b < 0xc0

/-- How many bytes follow the first byte of a character, and between which bounds the second byte
    lies: with a second byte out of bounds the code point would have a shorter form, be a surrogate
    or lie past the last one. -/
def lead? (b : UInt8) : Option (Nat × UInt8 × UInt8) :=
  if 0xc2 ≤ b ∧ b ≤ 0xdf then some (1, 0x80, 0xbf)
  else if b = 0xe0 then some (2, 0xa0, 0xbf)
  else if b = 0xed then some (2, 0x80, 0x9f)
  else if 0xe1 ≤ b ∧ b ≤ 0xef then some (2, 0x80, 0xbf)
  else if b = 0xf0 then some (3, 0x90, 0xbf)
  else if 0xf1 ≤ b ∧ b ≤ 0xf3 then some (3, 0x80, 0xbf)
  else if b = 0xf4 then some (3, 0x80, 0x8f)
  else none

/-- The bytes after the first that belong to the same character: at most `n`, the first of them
    within its own bounds, the others by `isContinuation`. -/
def followers (n : Nat) (low high : UInt8) (bs : List UInt8) : List UInt8 :=
  match bs with
  | [] => []
  | b :: bs =>
    if 0 < n ∧ low ≤ b ∧ b ≤ high then b :: (bs.take (n - 1)).takeWhile isContinuation else []

/-- The code point of a character of several bytes: six bits of each byte after the first. -/
def codePoint (lead : UInt8) (following : List UInt8) : Nat :=
  let leadBits := lead.toNat % Nat.pow 2 (6 - following.length)
  following.foldl (fun n b => n * 0x40 + b.toNat % 0x40) leadBits

/-- The glyph that begins with a byte, and the number of bytes after it that belong to it. -/
def glyphAt (b : UInt8) (bs : List UInt8) : Glyph × Nat :=
  if b < 0x80 then (.char (Char.ofNat b.toNat), 0)
  else
    match lead? b with
    | none => (.stray [b], 0)
    | some (n, low, high) =>
      let following := followers n low high bs
      if following.length = n then (.char (Char.ofNat (codePoint b following)), n)
      else (.stray (b :: following), following.length)

namespace Raw

/-- The glyphs of a string of bytes. The first `skip` bytes belong to a glyph that came before. -/
def ofBytesFrom : (skip : Nat) → List UInt8 → Raw
  | _, [] => []
  | skip + 1, _ :: bs => ofBytesFrom skip bs
  | 0, b :: bs =>
    let (g, n) := glyphAt b bs
    g :: ofBytesFrom n bs

/-- The glyphs of a string of bytes, one by `glyphAt` after the other. -/
def ofBytes (bs : List UInt8) : Raw := ofBytesFrom 0 bs

def ofString (s : String) : Raw := s.toList.map .char

/-- The bytes of a glyph: the UTF-8 of a character, or the stray bytes themselves. -/
def glyphBytes : Glyph → List UInt8
  | .char c => (String.singleton c).toUTF8.data.toList
  | .stray bytes => bytes

def bytes (t : Raw) : List UInt8 := t.flatMap glyphBytes

/-- The number of bytes of a text. -/
def size (t : Raw) : Nat := t.bytes.length

/-- The character that a glyph is. -/
def char? : Glyph → Option Char
  | .char c => some c
  | .stray _ => none

/-- The text as a string, if it has no stray bytes. -/
def string? (t : Raw) : Option String := (t.mapM char?).map String.ofList

/-- The text with a replacement character for each group of stray bytes. -/
def lossy (t : Raw) : String :=
  String.ofList (t.map fun g => (char? g).getD '\ufffd')

/-- Glyphs that are characters are read as these characters. -/
private theorem mapM_char? (cs : List Char) : (cs.map Glyph.char).mapM char? = some cs := by
  induction cs with
  | nil => rfl
  | cons c cs ih => simp [List.mapM_cons, ih, char?]

/-- A string comes back from its glyphs. -/
@[simp] theorem string?_ofString (s : String) : (ofString s).string? = some s := by
  rw [string?, ofString, mapM_char?, Option.map_some, String.ofList_toList]

/-- Conversely, glyphs that can all be read as characters are characters. -/
private theorem mapM_char?_eq_some {t : Raw} {cs : List Char} (h : t.mapM char? = some cs) :
    t = cs.map .char := by
  induction t generalizing cs with
  | nil => cases h; rfl
  | cons g t ih =>
    simp only [List.mapM_cons, Option.bind_eq_bind, Option.bind_eq_some_iff, Option.pure_def,
      Option.some.injEq] at h
    obtain ⟨c, hc, ds, hds, rfl⟩ := h
    cases g with
    | stray bytes => cases hc
    | char c' => cases hc; rw [ih hds, List.map_cons]

/-- Only the glyphs of a string are read as that string, so `string?` is the inverse of
    `ofString`. -/
theorem string?_eq_some {t : Raw} {s : String} : t.string? = some s ↔ t = ofString s := by
  constructor
  · intro h
    obtain ⟨cs, hcs, rfl⟩ := Option.map_eq_some_iff.1 h
    rw [mapM_char?_eq_some hcs, ofString, String.toList_ofList]
  · rintro rfl
    exact string?_ofString s

end Raw

end StackMachine.Text
