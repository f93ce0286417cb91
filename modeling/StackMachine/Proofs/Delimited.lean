import StackMachine.Text.Quoted

namespace StackMachine.Text

/-!
# Where a part of a text ends

A part of a text that is written behind another can be told from it if the text shows where the
first one ends: a number ends at the first character that is no digit, and a quoted text at the
first quote without a backslash.

* `append_inj_of_stops` — parts made of one class of characters, before something else.
* `decimal_append_inj`, `append_decimal_inj` — numbers with a text behind them, and before them.
* `escape_append_inj`, `quote_append_inj` — characters and texts in quotes.
-/

/-! ### Classes of characters

A part that is made of one class of characters ends where another character comes, whatever it is
and however long.
-/

/-- The text does not begin with a character of the class. -/
def Stops (p : Char → Prop) (r : List Char) : Prop := ∀ c ∈ r.head?, ¬ p c

instance Stops.decidable {p : Char → Prop} [DecidablePred p] :
    (r : List Char) → Decidable (Stops p r)
  | [] => isTrue (by simp [Stops])
  | c :: _ => decidable_of_iff (¬ p c) (by simp [Stops])

/-- A run of `p` stops in front of a character that is not in `p`. -/
theorem Stops.cons {p : Char → Prop} {c : Char} (hc : ¬ p c) (r : List Char) :
    Stops p (c :: r) := by
  simpa [Stops] using hc

/-- What comes behind a text that is not empty does not matter for its beginning. -/
theorem Stops.append {p : Char → Prop} {u v : List Char} (hne : u ≠ []) (h : Stops p u) :
    Stops p (u ++ v) := by
  cases u with
  | nil => exact absurd rfl hne
  | cons c u => exact h

/-- Parts made of one class of characters are told from what comes behind, if that begins with
    another character. -/
theorem append_inj_of_stops {p : Char → Prop} {u v r s : List Char} (hu : ∀ c ∈ u, p c)
    (hv : ∀ c ∈ v, p c) (hr : Stops p r) (hs : Stops p s) (h : u ++ r = v ++ s) :
    u = v ∧ r = s := by
  -- neither part can reach into what comes behind the other
  induction u generalizing v with
  | nil =>
    cases v with
    | nil => exact ⟨rfl, h⟩
    | cons c v =>
      exact absurd (hv c List.mem_cons_self) (hr c (by simp [show r = c :: v ++ s from h]))
  | cons c u ih =>
    cases v with
    | nil =>
      exact absurd (hu c List.mem_cons_self) (hs c (by simp [show s = c :: u ++ r from h.symm]))
    | cons d v =>
      obtain ⟨rfl, htail⟩ := List.cons.inj h
      obtain ⟨rfl, rfl⟩ := ih (fun c hc => hu c (List.mem_cons_of_mem _ hc))
        (fun c hc => hv c (List.mem_cons_of_mem _ hc)) htail
      exact ⟨rfl, rfl⟩

/-! ### Numbers -/

/-- The characters of a number are digits of its base. -/
theorem exists_digitChar {b n : Nat} (hb : 1 < b) {c : Char} (h : c ∈ Nat.toDigits b n) :
    ∃ d < b, c = Nat.digitChar d := by
  induction n using Nat.strongRecOn with
  | ind n ih =>
    rw [Nat.toDigits_eq_if hb] at h
    split at h
    · next hn => exact ⟨n, hn, List.mem_singleton.1 h⟩
    · next hn =>
      rcases List.mem_append.1 h with h | h
      · exact ih (n / b) (Nat.div_lt_self (by omega) hb) h
      · exact ⟨n % b, Nat.mod_lt _ (by omega), List.mem_singleton.1 h⟩

/-- A digit is known by its character. -/
theorem digitChar_inj {d e : Nat} (hd : d < 16) (he : e < 16)
    (h : Nat.digitChar d = Nat.digitChar e) : d = e := by
  have hall : ∀ d < 16, ∀ e < 16, Nat.digitChar d = Nat.digitChar e → d = e := by decide
  exact hall d hd e he h

/-- A number is known by its digits, in any base that has characters for all of them. -/
theorem toDigits_inj {b m n : Nat} (hb : 1 < b) (hb' : b ≤ 16)
    (h : Nat.toDigits b m = Nat.toDigits b n) : m = n := by
  -- the last digits are the same, and so are the others, by induction
  induction m using Nat.strongRecOn generalizing n with
  | ind m ih =>
    have hdigit {d e : Nat} (hd : d < b) (he : e < b) (h : [Nat.digitChar d] = [Nat.digitChar e]) :
        d = e :=
      digitChar_inj (by omega) (by omega) (List.singleton_inj.1 h)
    have hlonely {d e k : Nat} : [Nat.digitChar d] ≠ Nat.toDigits b k ++ [Nat.digitChar e] := by
      intro he
      have hk : [] = Nat.toDigits b k := List.append_inj_left' he rfl
      exact Nat.toDigits_ne_nil hk.symm
    have hmod (k : Nat) : k % b < b := Nat.mod_lt k (by omega)
    rw [Nat.toDigits_eq_if hb (n := m), Nat.toDigits_eq_if hb (n := n)] at h
    split at h <;> split at h
    · next hm hn => exact hdigit hm hn h
    · exact absurd h hlonely
    · exact absurd h.symm hlonely
    · next hm hn =>
      obtain ⟨hfirst, hlast⟩ := List.append_inj' h rfl
      have hdiv : m / b = n / b := ih (m / b) (Nat.div_lt_self (by omega) hb) hfirst
      have hrem : m % b = n % b := hdigit (hmod m) (hmod n) hlast
      rw [← Nat.div_add_mod m b, ← Nat.div_add_mod n b, hdiv, hrem]

/-- Unfolding lemma: a number is written in its decimal digits. -/
theorem toList_toString_nat (n : Nat) : (toString n).toList = Nat.toDigits 10 n := by
  rw [Nat.toString_eq_repr, Nat.toList_repr]

/-- Nothing but digits is in the decimal text of a number. -/
theorem isDigit_of_mem_toString {n : Nat} {c : Char} (h : c ∈ (toString n).toList) : c.isDigit := by
  rw [toList_toString_nat] at h
  exact Nat.isDigit_of_mem_toDigits (by decide) (by decide) h

/-- The decimal text tells the number, since it reads back. -/
theorem eq_of_toList_toString {m n : Nat} (h : (toString m).toList = (toString n).toList) :
    m = n := by
  rw [toList_toString_nat, toList_toString_nat] at h
  exact toDigits_inj (by decide) (by decide) h

/-- Numbers are told with something behind them that does not begin with a digit. -/
theorem decimal_append_inj {m n : Nat} {r s : List Char} (hr : Stops (·.isDigit) r)
    (hs : Stops (·.isDigit) s) (h : (toString m).toList ++ r = (toString n).toList ++ s) :
    m = n ∧ r = s := by
  obtain ⟨hdigits, hrest⟩ := append_inj_of_stops (fun _ => isDigit_of_mem_toString)
    (fun _ => isDigit_of_mem_toString) hr hs h
  exact ⟨eq_of_toList_toString hdigits, hrest⟩

/-- Numbers are told with something before them that does not end in a digit. -/
theorem append_decimal_inj {m n : Nat} {r s : List Char} (hr : Stops (·.isDigit) r.reverse)
    (hs : Stops (·.isDigit) s.reverse) (h : r ++ (toString m).toList = s ++ (toString n).toList) :
    r = s ∧ m = n := by
  have hrev := congrArg List.reverse h
  rw [List.reverse_append, List.reverse_append] at hrev
  obtain ⟨hdigits, hrest⟩ := append_inj_of_stops
    (fun _ hc => isDigit_of_mem_toString (List.mem_reverse.1 hc))
    (fun _ hc => isDigit_of_mem_toString (List.mem_reverse.1 hc)) hr hs hrev
  exact ⟨List.reverse_inj.1 hrest, eq_of_toList_toString (List.reverse_inj.1 hdigits)⟩

/-! ### Quoted texts

Escaping is a code without a word that begins another one: the first characters tell which escape it
is, and none of them is a bare quote.
-/

/-- The characters that are written with a letter, and the letters. -/
theorem escapeLetter?_eq_some_iff {c l : Char} : escapeLetter? c = some l ↔
    (c, l) ∈ [('"', '"'), ('\\', '\\'), ('\n', 'n'), ('\r', 'r'), ('\t', 't'), ('\x00', '0')] := by
  unfold escapeLetter?
  simp only [List.mem_cons, Prod.mk.injEq, List.not_mem_nil, or_false]
  grind

/-- A character stands for itself in quotes, or behind a backslash in one of two ways. -/
theorem escape_cases (c : Char) :
    (∃ l, escapeLetter? c = some l ∧ escape c = ['\\', l]) ∨
    escape c = '\\' :: 'u' :: '{' :: (Nat.toDigits 16 c.toNat ++ ['}']) ∨
    (c ≠ '"' ∧ c ≠ '\\' ∧ escape c = [c]) := by
  cases h : escapeLetter? c with
  | some l => exact .inl ⟨l, rfl, by simp only [escape, h]⟩
  | none =>
    by_cases hu : isUnprintable c
    · exact .inr (.inl (by simp [escape, h, hu]))
    · refine .inr (.inr ⟨?_, ?_, by simp [escape, h, hu]⟩)
      · rintro rfl
        cases h
      · rintro rfl
        cases h

/-- Each letter stands for one character. -/
theorem escapeLetter?_inj {c d l : Char} (hc : escapeLetter? c = some l)
    (hd : escapeLetter? d = some l) : c = d := by
  rw [escapeLetter?_eq_some_iff] at hc hd
  simp only [List.mem_cons, Prod.mk.injEq, List.not_mem_nil, or_false] at hc hd
  grind

/-- None of them is the `u` before a code point. -/
theorem escapeLetter?_ne_u (c : Char) : escapeLetter? c ≠ some 'u' := by
  rw [Ne, escapeLetter?_eq_some_iff]
  simp

/-- In quotes a character shows where it ends. -/
theorem escape_append_inj {c d : Char} {r s : List Char} (h : escape c ++ r = escape d ++ s) :
    c = d ∧ r = s := by
  -- three ways to write each of the two characters, of which only the same ones can begin alike
  rcases escape_cases c with ⟨l, hl, hc⟩ | hc | ⟨-, hb, hc⟩ <;>
    rcases escape_cases d with ⟨l', hl', hd⟩ | hd | ⟨-, hb', hd⟩ <;> rw [hc, hd] at h
  · obtain ⟨rfl, rfl⟩ : l = l' ∧ r = s := by simpa using h
    exact ⟨escapeLetter?_inj hl hl', rfl⟩
  · obtain ⟨rfl, -⟩ : l = 'u' ∧ _ := by simpa using h
    exact absurd hl (escapeLetter?_ne_u c)
  · exact absurd (List.cons.inj h).1.symm hb'
  · obtain ⟨rfl, -⟩ : 'u' = l' ∧ _ := by simpa using h
    exact absurd hl' (escapeLetter?_ne_u d)
  · -- the digits end at the brace
    have hdigits : Nat.toDigits 16 c.toNat ++ '}' :: r = Nat.toDigits 16 d.toNat ++ '}' :: s := by
      simpa using h
    have hbrace (n : Nat) : ∀ x ∈ Nat.toDigits 16 n, x ≠ '}' := by
      intro x hx
      obtain ⟨e, he, rfl⟩ := exists_digitChar (by decide) hx
      have hall : ∀ e < 16, Nat.digitChar e ≠ '}' := by decide
      exact hall e he
    obtain ⟨hnat, htail⟩ := append_inj_of_stops (hbrace _) (hbrace _) (.cons (by simp) r)
      (.cons (by simp) s) hdigits
    exact ⟨Char.toNat_inj.1 (toDigits_inj (by decide) (by decide) hnat), (List.cons.inj htail).2⟩
  · exact absurd (List.cons.inj h).1.symm hb'
  · exact absurd (List.cons.inj h).1 hb
  · exact absurd (List.cons.inj h).1 hb
  · simpa using h

/-- No character is written with a bare quote at its front. -/
theorem escape_ne_quote_append (c : Char) (r s : List Char) : escape c ++ r ≠ '"' :: s := by
  rcases escape_cases c with ⟨l, -, hc⟩ | hc | ⟨hq, -, hc⟩ <;> rw [hc]
  · simp
  · simp
  · simpa using fun h => absurd h hq

/-- Unfolding lemma: the characters of a quoted text, between two quotes. -/
theorem toList_quote (s : String) :
    (quote s).toList = '"' :: (s.toList.flatMap escape ++ ['"']) := by
  rw [quote, String.toList_ofList, List.cons_append]

/-- The text between quotes ends at the first bare quote: no escape begins with one, so one escape
    at a time can be taken off both texts. -/
theorem flatMap_escape_append_inj {cs ds r s : List Char}
    (h : cs.flatMap escape ++ '"' :: r = ds.flatMap escape ++ '"' :: s) : cs = ds ∧ r = s := by
  induction cs generalizing ds with
  | nil =>
    cases ds with
    | nil => exact ⟨rfl, (List.cons.inj h).2⟩
    | cons d ds =>
      rw [List.flatMap_cons, List.append_assoc] at h
      exact absurd h.symm (escape_ne_quote_append d _ _)
  | cons c cs ih =>
    cases ds with
    | nil =>
      rw [List.flatMap_cons, List.append_assoc] at h
      exact absurd h (escape_ne_quote_append c _ _)
    | cons d ds =>
      rw [List.flatMap_cons, List.flatMap_cons, List.append_assoc, List.append_assoc] at h
      obtain ⟨rfl, htail⟩ := escape_append_inj h
      obtain ⟨rfl, hrest⟩ := ih htail
      exact ⟨rfl, hrest⟩

/-- **Quoted texts.** A quoted text shows where it ends, whatever is in it and behind it. -/
theorem quote_append_inj {t u : String} {r s : List Char}
    (h : (quote t).toList ++ r = (quote u).toList ++ s) : t = u ∧ r = s := by
  rw [toList_quote, toList_quote] at h
  obtain ⟨hcs, hrest⟩ := flatMap_escape_append_inj (by simpa using h)
  exact ⟨String.toList_inj.1 hcs, hrest⟩

end StackMachine.Text
