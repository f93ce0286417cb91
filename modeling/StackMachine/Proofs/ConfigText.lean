import StackMachine.Config.Reader
import StackMachine.Proofs.Tokens

namespace StackMachine

open Json

/-!
# Configuration texts

The language of configuration texts, and the scanners of its parts, each of which takes exactly such
a part off the front of a text.

Every scanner gets one equivalence `…_eq_ok`: it succeeds just where a part of the language stands
at the front, with what this says and with the rest. The equivalences are used from here on in place
of the scanners.

* `Json.Padded`, `Json.Member`, `Json.Items` — white space, members of objects, items with commas.
* `PolicyText`, `Config.FieldText`, `ConfigText` — the values, and whole configurations.
* `Policy.scan_eq_ok`, `scanCapacity_eq_ok` — the scanners of values.
-/

namespace Json

/-- A text of `P` with white space around it. -/
inductive Padded {α : Type} (P : List Char → α → Prop) : List Char → α → Prop where
  | intro {w u w' : List Char} {a : α} (hw : Blank w) (h : P u a) (hw' : Blank w') :
    Padded P (w ++ (u ++ w')) a

/-- A member of an object: its key, a colon and a value. -/
inductive Member (Value : List Char → Prop) : List Char → String → Prop where
  | intro {k w w' v : List Char} {key : String} (hk : StringToken k key) (hw : Blank w)
    (hw' : Blank w') (hv : Value v) : Member Value (k ++ (w ++ ':' :: (w' ++ v))) key

/-- Items of `P` with commas between them, or white space if there are none. -/
inductive Items {α : Type} (P : List Char → α → Prop) : List Char → List α → Prop where
  | none {w : List Char} (hw : Blank w) : Items P w []
  | some {us : List (List Char)} {as : List α} (hne : us ≠ []) (h : List.Forall₂ (Padded P) us as) :
    Items P ([','].intercalate us) as

/-- The text `null`. -/
def IsNull (v : List Char) : Prop := v = "null".toList

end Json

/-- A policy: its word, or an object with the word as the only key and null as the value. -/
inductive PolicyText : List Char → Policy → Prop where
  | word {v : List Char} {p : Policy} (h : StringToken v p.word) : PolicyText v p
  | object {u : List Char} {p : Policy} (h : Padded (Member IsNull) u p.word) :
    PolicyText ('{' :: (u ++ ['}'])) p

namespace Config

/-- A field that is given, with its value. -/
inductive Field where
  | policy (p : Policy)
  | capacity (n : UInt64)

/-- The key of a field. -/
def Field.key : Field → String
  | .policy _ => policyKey
  | .capacity _ => capacityKey

/-- The value of a field. -/
inductive FieldText : List Char → Field → Prop where
  | policy {v : List Char} {p : Policy} (h : PolicyText v p) : FieldText v (.policy p)
  | capacity {v : List Char} {n : UInt64} (h : Whole v n.toNat) : FieldText v (.capacity n)

/-- A field with its key. -/
def MemberText (u : List Char) (f : Field) : Prop := Member (FieldText · f) u f.key

/-- The configuration has the values that are given, and its defaults for what is not given. -/
structure Holds (c : Config) (fs : List Field) : Prop where
  policy : ∀ p, .policy p ∈ fs → c.unknownSyscall = p
  no_policy : (∀ p, .policy p ∉ fs) → c.unknownSyscall = .reject
  capacity : ∀ n, .capacity n ∈ fs → c.stackCapacity = n
  no_capacity : (∀ n, .capacity n ∉ fs) → c.stackCapacity = 64

/-- A configuration without white space around it: an object, with no key twice, or a list of the
    first fields. -/
inductive BodyText : List Char → Config → Prop where
  | object {u : List Char} {fs : List Field} {c : Config} (h : Items MemberText u fs)
    (hkeys : (fs.map Field.key).Nodup) (hc : c.Holds fs) : BodyText ('{' :: (u ++ ['}'])) c
  | list {u : List Char} {fs : List Field} {c : Config} (h : Items FieldText u fs)
    (hkeys : fs.map Field.key <+: [policyKey, capacityKey]) (hc : c.Holds fs) :
    BodyText ('[' :: (u ++ [']'])) c

end Config

/-- A whole configuration text. -/
def ConfigText (t : List Char) (c : Config) : Prop := Padded Config.BodyText t c

/-! ### Words and colons -/

/-- A string begins with a quote. -/
theorem Json.StringToken.exists_cons {v : List Char} {s : String} (h : StringToken v s) :
    ∃ t, v = '"' :: t := by
  cases h
  exact ⟨_, rfl⟩

/-- The letters of a literal are scanned where they stand in front of the rest. -/
theorem Json.scanWord_eq_ok {ws cs rest : List Char} :
    Json.scanWord ws cs = .ok rest ↔ cs = ws ++ rest := by
  induction ws generalizing cs with
  | nil => simp [Json.scanWord]
  | cons w ws ih =>
    cases cs with
    | nil => simp [Json.scanWord]
    | cons c cs =>
      rw [Json.scanWord]
      split
      · next hc => simp [ih, hc]
      · next hc => simp [hc]

/-- A colon is scanned where it stands behind white space. -/
theorem Json.scanColon_eq_ok {cs rest : List Char} :
    scanColon cs = .ok rest ↔ ∃ w, Blank w ∧ cs = w ++ ':' :: rest := by
  constructor
  · intro h
    unfold scanColon at h
    split at h
    · cases h
    · next hs =>
      cases h
      exact (skipSpace_eq_cons.1 hs).2
    · cases h
  · rintro hw
    rw [scanColon, skipSpace_eq_cons.2 ⟨by decide, hw⟩]
    rfl

/-- What comes behind a colon is scanned by `scan` from there on. -/
theorem Json.scanColon_bind_eq_ok {α : Type} {scan : List Char → Except Stop α} {cs : List Char}
    {a : α} : (scanColon cs >>= scan) = .ok a ↔
      ∃ w rest, Blank w ∧ cs = w ++ ':' :: rest ∧ scan rest = .ok a := by
  simp only [bind_eq_ok, scanColon_eq_ok]
  constructor
  · rintro ⟨rest, ⟨w, hw, rfl⟩, h⟩
    exact ⟨w, rest, hw, rfl, h⟩
  · rintro ⟨w, rest, hw, rfl, h⟩
    exact ⟨rest, ⟨w, hw, rfl⟩, h⟩

/-! ### Policies

A policy is written in two ways, as its word or as an object that has the word for its key.
-/

namespace Policy

/-- A policy has one word. -/
theorem ofWord?_eq_some {s : String} {p : Policy} : ofWord? s = some p ↔ s = p.word := by
  constructor
  · intro h
    unfold ofWord? at h
    split at h
    · next hs => cases h; exact hs
    split at h
    · next hs => cases h; exact hs
    · cases h
  · rintro rfl
    exact ofWord?_word p

/-- The word of a policy is scanned, its opening quote gone, where a string of that word stands. -/
theorem scanWord_eq_ok {cs rest : List Char} {p : Policy} :
    scanWord cs = .ok (p, rest) ↔ ∃ v, StringToken v p.word ∧ '"' :: cs = v ++ rest := by
  rw [← scanString_eq_ok, scanWord, bind_eq_ok]
  constructor
  · rintro ⟨⟨s, rest'⟩, hs, h⟩
    dsimp only at h
    split at h
    · next hp =>
      cases h
      rwa [← ofWord?_eq_some.1 hp]
    · cases h
  · intro h
    exact ⟨_, h, by simp only [ofWord?_word]; rfl⟩

/-- The value of an object's only key is null. -/
theorem scanUnit_eq_ok {cs rest : List Char} :
    scanUnit cs = .ok rest ↔ ∃ w v, Blank w ∧ IsNull v ∧ cs = w ++ (v ++ rest) := by
  constructor
  · intro h
    unfold scanUnit at h
    split at h
    · next hs =>
      obtain ⟨-, w, hw, rfl⟩ := skipSpace_eq_cons.1 hs
      obtain rfl := Json.scanWord_eq_ok.1 h
      exact ⟨w, _, hw, rfl, rfl⟩
    · cases h
  · rintro ⟨w, _, hw, rfl, rfl⟩
    -- the letter that was looked at and the word behind it make one `null`
    have hs : skipSpace (w ++ ("null".toList ++ rest)) = 'n' :: ("ull".toList ++ rest) :=
      skipSpace_eq_cons.2 ⟨by decide, w, hw, rfl⟩
    rw [scanUnit, hs]
    exact Json.scanWord_eq_ok.2 rfl

/-- A policy is scanned as an object, its opening brace gone, where the one member and the closing
    brace stand. -/
theorem scanObject_eq_ok {cs rest : List Char} {p : Policy} :
    scanObject cs = .ok (p, rest) ↔
      ∃ u, Padded (Member IsNull) u p.word ∧ cs = u ++ '}' :: rest := by
  constructor
  · intro h
    unfold scanObject at h
    split at h
    · cases h
    · next hs =>
      obtain ⟨-, w, hw, rfl⟩ := skipSpace_eq_cons.1 hs
      simp only [bind_eq_ok, scanColon_eq_ok, scanUnit_eq_ok] at h
      obtain ⟨⟨q, _⟩, hq, _, ⟨w₁, hw₁, rfl⟩, _, ⟨w₂, v, hw₂, hv, rfl⟩, h⟩ := h
      obtain ⟨k, hk, he⟩ := scanWord_eq_ok.1 hq
      split at h
      · cases h
      · next hs =>
        cases h
        obtain ⟨-, w₃, hw₃, rfl⟩ := skipSpace_eq_cons.1 hs
        refine ⟨_, .intro hw (.intro hk hw₁ hw₂ hv) hw₃, ?_⟩
        rw [he]
        simp
      · cases h
    · cases h
    · cases h
  · -- each part is what the scanner of its own takes off the front of the rest
    rintro ⟨_, @⟨w, _, w₃, _, hw, @⟨k, w₁, w₂, v, _, hk, hw₁, hw₂, hv⟩, hw₃⟩, rfl⟩
    obtain ⟨k, rfl⟩ := hk.exists_cons
    have hspace : skipSpace (w ++ (('"' :: k ++ (w₁ ++ ':' :: (w₂ ++ v))) ++ w₃) ++ '}' :: rest) =
        '"' :: (k ++ (w₁ ++ ':' :: (w₂ ++ (v ++ (w₃ ++ '}' :: rest))))) :=
      skipSpace_eq_cons.2 ⟨by decide, w, hw, by simp⟩
    have hword : scanWord (k ++ (w₁ ++ ':' :: (w₂ ++ (v ++ (w₃ ++ '}' :: rest))))) =
        .ok (p, w₁ ++ ':' :: (w₂ ++ (v ++ (w₃ ++ '}' :: rest)))) :=
      scanWord_eq_ok.2 ⟨'"' :: k, hk, rfl⟩
    have hend : skipSpace (w₃ ++ '}' :: rest) = '}' :: rest :=
      skipSpace_eq_cons.2 ⟨by decide, w₃, hw₃, rfl⟩
    rw [scanObject, hspace]
    refine bind_eq_ok.2 ⟨_, hword, bind_eq_ok.2 ⟨_, scanColon_eq_ok.2 ⟨w₁, hw₁, rfl⟩, ?_⟩⟩
    refine bind_eq_ok.2 ⟨_, scanUnit_eq_ok.2 ⟨w₂, v, hw₂, hv, rfl⟩, ?_⟩
    rw [hend]
    rfl

/-- A policy is scanned where a text of it (`PolicyText`) stands behind white space. -/
theorem scan_eq_ok {cs rest : List Char} {p : Policy} :
    scan cs = .ok (p, rest) ↔ ∃ w v, Blank w ∧ PolicyText v p ∧ cs = w ++ (v ++ rest) := by
  constructor
  · intro h
    unfold scan at h
    split at h
    · cases h
    · next hs =>
      obtain ⟨-, w, hw, rfl⟩ := skipSpace_eq_cons.1 hs
      obtain ⟨v, hv, he⟩ := scanWord_eq_ok.1 h
      exact ⟨w, v, hw, .word hv, by rw [he]⟩
    · next hs =>
      obtain ⟨-, w, hw, rfl⟩ := skipSpace_eq_cons.1 hs
      obtain ⟨u, hu, rfl⟩ := scanObject_eq_ok.1 h
      exact ⟨w, _, hw, .object hu, by simp⟩
    · cases h
  · rintro ⟨w, _, hw, hv, rfl⟩
    cases hv with
    | word hv =>
      obtain ⟨v, rfl⟩ := hv.exists_cons
      rw [scan, List.cons_append, skipSpace_eq_cons.2 ⟨by decide, w, hw, rfl⟩]
      exact scanWord_eq_ok.2 ⟨_, hv, rfl⟩
    | @object u _ hu =>
      rw [scan, List.cons_append, skipSpace_eq_cons.2 ⟨by decide, w, hw, rfl⟩]
      exact scanObject_eq_ok.2 ⟨u, hu, by simp⟩

end Policy

/-! ### Capacities -/

/-- A number is a capacity if it is a whole one without a sign that fits, and nothing of a number is
    behind it. -/
theorem scanCapacityNumber_eq_ok {neg : Bool} {cs rest : List Char} {n : UInt64} :
    scanCapacityNumber neg cs = .ok (n, rest) ↔
      neg = false ∧ NumberEnds rest ∧ ∃ v, Whole v n.toNat ∧ cs = v ++ rest := by
  -- A number within the limit of the scanner is a capacity as it is, without wrapping around.
  have hfits {m : Nat} (hm : m ≤ maxNatural) : (UInt64.ofNat m).toNat = m :=
    UInt64.toNat_ofNat_of_lt' (Nat.lt_succ_of_le hm)
  constructor
  · intro h
    unfold scanCapacityNumber at h
    split at h
    · cases h
    · next hs =>
      obtain ⟨rfl, rfl⟩ := Prod.mk.inj (Except.ok.inj h)
      obtain ⟨hneg, hmax, hends, v, hv, rfl⟩ := scanNumber_eq_natural.1 hs
      exact ⟨hneg, hends, v, by rwa [hfits hmax], rfl⟩
    · cases h
    · cases h
  · rintro ⟨hneg, hends, v, hv, rfl⟩
    have hmax : n.toNat ≤ maxNatural := Nat.le_of_lt_succ n.toNat_lt
    rw [scanCapacityNumber, scanNumber_eq_natural.2 ⟨hneg, hmax, hends, v, hv, rfl⟩]
    simp

/-- A capacity is scanned where its digits stand behind white space and nothing of a number behind
    them. -/
theorem scanCapacity_eq_ok {cs rest : List Char} {n : UInt64} :
    scanCapacity cs = .ok (n, rest) ↔
      ∃ w v, Blank w ∧ Whole v n.toNat ∧ NumberEnds rest ∧ cs = w ++ (v ++ rest) := by
  constructor
  · intro h
    unfold scanCapacity at h
    split at h
    · cases h
    · -- a sign in front is taken, but no capacity comes of it
      exact absurd (scanCapacityNumber_eq_ok.1 h).1 (by simp)
    · next c cs hs =>
      split at h
      · obtain ⟨-, w, hw, rfl⟩ := skipSpace_eq_cons.1 hs
        obtain ⟨-, hends, v, hv, he⟩ := scanCapacityNumber_eq_ok.1 h
        exact ⟨w, v, hw, hv, hends, by rw [he]⟩
      · cases h
  · rintro ⟨w, v, hw, hv, hends, rfl⟩
    obtain ⟨c, ds, rfl⟩ := List.exists_cons_of_ne_nil hv.ne_nil
    -- The first digit is no white space and no sign, so the scanner takes the branch of digits.
    have hc : c.isDigit := hv.all_digits c (by simp)
    have hspace : skipSpace (w ++ (c :: ds ++ rest)) = c :: (ds ++ rest) :=
      skipSpace_eq_cons.2 ⟨not_isSpace_of_isDigit hc, w, hw, rfl⟩
    unfold scanCapacity
    split
    · next hs => rw [hspace] at hs; cases hs
    · next hs => rw [hspace] at hs; cases hs; exact absurd hc (by decide)
    · next hs =>
      rw [hspace] at hs
      cases hs
      rw [if_pos hc]
      exact scanCapacityNumber_eq_ok.2 ⟨rfl, hends, _, hv, rfl⟩

end StackMachine
