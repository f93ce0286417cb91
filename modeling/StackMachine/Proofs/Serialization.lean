import StackMachine.Config.Writer
import StackMachine.Proofs.Truncation

namespace StackMachine

open Json

/-!
# Written configurations

What is written for a configuration is read back as this configuration, and no part of it that is
left when its end is missing is read as any configuration.

Both writers write the same nine tokens, and the reader does not mind what white space is between
them. So reading back is shown once, for texts with any white space, and each writer is an instance
of it.

* `Config.tokens`, `Json.Spaced` — the tokens of a written configuration, and texts made of tokens.
* `Config.read_of_spaced` — white space between the tokens changes nothing.
* `Config.written_exactly` — reading what was written, whole or cut off.
-/

namespace Json

/-- These tokens one after another, with white space before, between and after them. -/
inductive Spaced : List String → List Char → Prop where
  | nil {w : List Char} (hw : Blank w) : Spaced [] w
  | cons {token : String} {tokens : List String} {w t : List Char} (hw : Blank w)
    (ht : Spaced tokens t) : Spaced (token :: tokens) (w ++ (token.toList ++ t))

/-- The first token, and the text behind it. -/
theorem Spaced.exists_of_cons {token : String} {tokens : List String} {t : List Char}
    (h : Spaced (token :: tokens) t) :
    ∃ w t', Blank w ∧ Spaced tokens t' ∧ t = w ++ (token.toList ++ t') := by
  cases h with
  | cons hw ht => exact ⟨_, _, hw, ht, rfl⟩

/-- Behind the last token there is white space only. -/
theorem Spaced.blank {t : List Char} (h : Spaced [] t) : Blank t := by
  cases h with
  | nil hw => exact hw

/-- Tokens right behind each other are a text of them. -/
theorem spaced_join (tokens : List String) : Spaced tokens (String.join tokens).toList := by
  induction tokens with
  | nil => exact .nil nofun
  | cons token tokens ih => simpa [String.join_cons] using Spaced.cons (w := []) nofun ih

/-- A string of characters that stand for themselves, in quotes. -/
theorem StringToken.quoted {s : String}
    (h : ∀ c ∈ s.toList, c ≠ '"' ∧ c ≠ '\\' ∧ 0x20 ≤ c.toNat) :
    StringToken ("\"" ++ s ++ "\"").toList s := by
  have hbody {cs : List Char} (hcs : ∀ c ∈ cs, c ≠ '"' ∧ c ≠ '\\' ∧ 0x20 ≤ c.toNat) :
      StringBody cs cs := by
    induction cs with
    | nil => exact .nil
    | cons c cs ih =>
      obtain ⟨⟨hquote, hslash, hcontrol⟩, hcs⟩ := List.forall_mem_cons.1 hcs
      exact .plain hquote hslash hcontrol (ih hcs)
  simpa using StringToken.intro (hbody h)

/-- Only the digits of zero begin with a zero. -/
theorem eq_zero_of_toDigits {n : Nat} {ds : List Char} (h : Nat.toDigits 10 n = '0' :: ds) :
    n = 0 := by
  induction n using Nat.strong_induction_on generalizing ds with
  | _ n ih =>
    rw [Nat.toDigits_eq_if (by decide)] at h
    split at h
    · next hn =>
      have hall : ∀ n < 10, n.digitChar = '0' → n = 0 := by decide
      exact hall n hn (List.cons.inj h).1
    · next hn =>
      -- the leading digit is the one of the number without its last digit
      have hne : Nat.toDigits 10 (n / 10) ≠ [] := Nat.toDigits_ne_nil
      obtain ⟨c, cs, hcs⟩ := List.exists_cons_of_ne_nil hne
      rw [hcs] at h
      obtain rfl : c = '0' := (List.cons.inj h).1
      have hzero := ih (n / 10) (by omega) hcs
      omega

/-- The decimal text of a number is a number of the language. -/
theorem whole_toString (n : Nat) : Whole (toString n).toList n := by
  rw [Nat.toString_eq_repr, Nat.toList_repr]
  refine ⟨Nat.toDigits_ne_nil, fun d hd => ?_, fun ds h => ?_, Nat.ofDigitChars_ten_toDigits⟩
  · exact Nat.isDigit_of_mem_toDigits (by decide) (by decide) hd
  · obtain rfl := eq_zero_of_toDigits h
    exact (List.cons.inj h).2.symm

end Json

namespace Config

/-- What a configuration is written with: an object of both fields. -/
def tokens (c : Config) : List String :=
  ["\x7b", "\"" ++ policyKey ++ "\"", ":", c.unknownSyscall.json, ",",
    "\"" ++ capacityKey ++ "\"", ":", toString c.stackCapacity.toNat, "\x7d"]

/-! ### Reading back -/

/-- The field for the policy, as it is written, with white space around the colon. -/
theorem memberText_policy {w w' : List Char} (hw : Blank w) (hw' : Blank w') (p : Policy) :
    MemberText (("\"" ++ policyKey ++ "\"").toList ++ (w ++ ':' :: (w' ++ p.json.toList)))
      (.policy p) := by
  have hkey : StringToken ("\"" ++ policyKey ++ "\"").toList policyKey :=
    .quoted (by simp [policyKey])
  have hword : StringToken p.json.toList p.word := .quoted (by cases p <;> simp [Policy.word])
  exact .intro hkey hw hw' (.policy (.word hword))

/-- The field for the capacity. -/
theorem memberText_capacity {w w' : List Char} (hw : Blank w) (hw' : Blank w') (n : UInt64) :
    MemberText (("\"" ++ capacityKey ++ "\"").toList ++
      (w ++ ':' :: (w' ++ (toString n.toNat).toList))) (.capacity n) := by
  have hkey : StringToken ("\"" ++ capacityKey ++ "\"").toList capacityKey :=
    .quoted (by simp [capacityKey])
  exact .intro hkey hw hw' (.capacity (whole_toString n.toNat))

/-- A configuration holds its own fields. -/
theorem holds_fields (c : Config) :
    c.Holds [.policy c.unknownSyscall, .capacity c.stackCapacity] where
  policy p hp := by simpa [eq_comm] using hp
  no_policy hn := absurd (by simp) (hn c.unknownSyscall)
  capacity n hn := by simpa [eq_comm] using hn
  no_capacity hn := absurd (by simp) (hn c.stackCapacity)

/-- White space between the tokens of a configuration changes nothing. -/
theorem read_of_spaced {c : Config} {t : String} (h : Spaced c.tokens t.toList) :
    read t = .ok c := by
  rw [read_eq_ok]
  -- One token is taken off at a time, with the white space in front of it.
  generalize t.toList = cs at h
  obtain ⟨w₁, t₁, hw₁, h₁, rfl⟩ := h.exists_of_cons
  obtain ⟨w₂, t₂, hw₂, h₂, rfl⟩ := h₁.exists_of_cons
  obtain ⟨w₃, t₃, hw₃, h₃, rfl⟩ := h₂.exists_of_cons
  obtain ⟨w₄, t₄, hw₄, h₄, rfl⟩ := h₃.exists_of_cons
  obtain ⟨w₅, t₅, hw₅, h₅, rfl⟩ := h₄.exists_of_cons
  obtain ⟨w₆, t₆, hw₆, h₆, rfl⟩ := h₅.exists_of_cons
  obtain ⟨w₇, t₇, hw₇, h₇, rfl⟩ := h₆.exists_of_cons
  obtain ⟨w₈, t₈, hw₈, h₈, rfl⟩ := h₇.exists_of_cons
  obtain ⟨w₉, w, hw₉, h₉, rfl⟩ := h₈.exists_of_cons
  -- What is left to do is to put the nine pieces together as the grammar has them.
  let fs : List Field := [.policy c.unknownSyscall, .capacity c.stackCapacity]
  have hitems : Joined MemberText true _ fs :=
    .item (.first hw₂) (memberText_policy hw₃ hw₄ _)
      (.item (.next hw₅ hw₆) (memberText_capacity hw₇ hw₈ _) (.done hw₉))
  have hkeys : (fs.map Field.key).Nodup := by simp [fs, Field.key, key_ne]
  have hbody := BodyText.object (joined_true.1 hitems) hkeys (holds_fields c)
  have htext : ConfigText _ c := .intro hw₁ hbody h₉.blank
  simpa using htext

/-! ### Writing -/

/-- On one line the tokens stand right behind each other. -/
theorem json_eq_join (c : Config) : c.json = String.join c.tokens := by
  rw [← String.toList_inj]
  simp [json, members, tokens, String.join_cons]

/-- The text on one line is a text of the `tokens`, with no white space at all. -/
theorem spaced_json (c : Config) : Spaced c.tokens c.json.toList := by
  rw [json_eq_join]
  exact spaced_join c.tokens

/-- On several lines it is another: a field a line, two spaces in, and a space behind each colon. -/
theorem spaced_jsonPretty (c : Config) : Spaced c.tokens c.jsonPretty.toList := by
  have hblank : Blank [' '] ∧ Blank ['\n'] ∧ Blank ['\n', ' ', ' '] := by simp [Blank]
  obtain ⟨hspace, hline, hindent⟩ := hblank
  have h : Spaced c.tokens _ :=
    .cons (w := []) nofun <| .cons hindent <| .cons (w := []) nofun <| .cons hspace <|
    .cons (w := []) nofun <| .cons hindent <| .cons (w := []) nofun <| .cons hspace <|
    .cons hline <| .nil (w := []) nofun
  simpa [jsonPretty, members] using h

/-! ### Cutting off

Only white space could be cut off without harm, and what is written ends in a brace.
-/

/-- The last part of a text that ends in a brace is more than white space. -/
theorem not_blank_of_getLast {t missing : String}
    (h : (t ++ missing).toList.getLast? = some '\x7d') (hmissing : missing ≠ "") :
    ¬ Blank missing.toList := by
  have hne : missing.toList ≠ [] := by simpa using hmissing
  rw [String.toList_append, List.getLast?_append, List.getLast?_eq_some_getLast hne] at h
  have hlast : missing.toList.getLast hne = '\x7d' := Option.some.inj h
  intro hblank
  exact absurd (hblank _ (List.getLast_mem hne)) (by rw [hlast]; decide)

/-- **Written configurations.** A configuration is written as its `tokens`, without or with white
    space between them, and each text of these tokens (`Spaced`) reads as the configuration. So what
    is written tells the configuration, and what is left of it when its end is missing reads as
    none: the text ends too early. -/
theorem written_exactly (c : Config) :
    c.json = String.join c.tokens ∧
    (∀ t : String, Spaced c.tokens t.toList → read t = .ok c) ∧
    ∀ write ∈ [json, jsonPretty],
      Spaced c.tokens (write c).toList ∧ read (write c) = .ok c ∧
      (∀ c', write c' = write c → c' = c) ∧
      ∀ t missing, t ++ missing = write c → missing ≠ "" →
        ∃ e, read t = .error e ∧ e.category = .eof := by
  refine ⟨json_eq_join c, fun t => read_of_spaced, fun write hwrite => ?_⟩
  have hspaced (c : Config) : Spaced c.tokens (write c).toList := by
    rcases List.mem_pair.1 hwrite with rfl | rfl
    · exact spaced_json c
    · exact spaced_jsonPretty c
  -- Both writers end in the brace, so what is cut off is more than white space.
  have hbrace : (write c).toList.getLast? = some '\x7d' := by
    rcases List.mem_pair.1 hwrite with rfl | rfl
    · simp [json, List.getLast?_cons]
    · simp [jsonPretty, List.getLast?_cons]
  have hread (c : Config) : read (write c) = .ok c := read_of_spaced (hspaced c)
  refine ⟨hspaced c, hread c, fun c' h => ?_, fun t missing h hmissing => ?_⟩
  · -- both configurations are read from the same text
    have hsame := hread c'
    rw [h, hread c] at hsame
    exact (Except.ok.inj hsame).symm
  · rw [← h] at hbrace
    exact read_of_cut (h ▸ hread c) (not_blank_of_getLast hbrace hmissing)

/-- The largest capacity, of which the last digit is cut off, and white space in odd places. -/
theorem written_exactly_at_limit :
    let c : Config := ⟨.ignore, 18446744073709551615⟩
    let cut := "\x7b\"unknown_syscall\":\"ignore\",\"initial_stack_capacity\":1844674407370955161"
    let spaced := " \x7b\"unknown_syscall\"\t:\"ignore\",\n\n\"initial_stack_capacity\":" ++
      "\r18446744073709551615\x7d\n"
    (cut ++ "5\x7d" = c.json ∧ ∃ e, read cut = .error e ∧ e.category = .eof) ∧
      Spaced c.tokens spaced.toList ∧ read spaced = .ok c := by
  intro c cut spaced
  obtain ⟨-, hread, hwritten⟩ := written_exactly c
  have hjson : cut ++ "5\x7d" = c.json := by decide +kernel
  have hblank : Blank [' '] ∧ Blank ['\t'] ∧ Blank ['\n', '\n'] ∧ Blank ['\r'] ∧ Blank ['\n'] := by
    simp [Blank]
  obtain ⟨hspace, htab, hlines, hreturn, hline⟩ := hblank
  -- the white space in front of each token, and the one behind the last
  have h : Spaced c.tokens _ :=
    .cons hspace <| .cons (w := []) nofun <| .cons htab <| .cons (w := []) nofun <|
    .cons (w := []) nofun <| .cons hlines <| .cons (w := []) nofun <| .cons hreturn <|
    .cons (w := []) nofun <| .nil hline
  have hspaced : Spaced c.tokens spaced.toList := by
    convert h using 1
    decide +kernel
  obtain ⟨-, -, -, hcut⟩ := hwritten json (List.mem_pair.2 (.inl rfl))
  exact ⟨⟨hjson, hcut cut _ hjson (by decide)⟩, hspaced, hread _ hspaced⟩

end Config

end StackMachine
