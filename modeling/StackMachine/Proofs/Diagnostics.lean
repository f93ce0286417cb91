import StackMachine.Launch.Refusal
import StackMachine.Proofs.Delimited

namespace StackMachine

open Text (Stops append_decimal_inj decimal_append_inj)

/-!
# What a diagnostic tells

A diagnostic is one line of text with names, arguments and numbers put in as they are. It tells all
the same what failed: its first characters tell the cause, and from both ends of the text the parts
can be read that were put in, however they are spelled.

Texts that were put in may hold anything, quotes and spaces too, so a diagnostic cannot be read from
the left alone. A number is read from the end at which it stands, since digits end; of texts there
is at most one, and it is what is left.

* `KindMismatch.message_inj`, `Failure.arityMismatch_inj`, `Refusal.invalidArgument_inj` — the parts
  are read back from the diagnostics of one cause.
* `Cause`, `Refusal.cause_eq_of_message_eq` — the causes are told by the words at the beginning.
* `Refusal.message_tells` — both, and how messages about a file are told from the others.
-/

/-! ### Parts at the end of a text -/

/-- A part between two fixed texts is told by the whole. -/
theorem eq_of_quoted_eq {w s t q : String} (h : w ++ s ++ q = w ++ t ++ q) : s = t :=
  (String.append_right_inj _).1 ((String.append_left_inj _).1 h)

/-- A number at the end is told, and so is what stands in front of fixed words that do not end in a
    digit. -/
theorem append_toString_inj {s t w : String} {m n : Nat} (hw : Stops (·.isDigit) w.toList.reverse)
    (hne : w.toList ≠ []) (h : s ++ w ++ toString m = t ++ w ++ toString n) : s = t ∧ m = n := by
  have hlist := congrArg String.toList h
  simp only [String.toList_append] at hlist
  have hstop (u : List Char) : Stops (·.isDigit) (u ++ w.toList).reverse := by
    rw [List.reverse_append]
    exact hw.append (by simpa using hne)
  obtain ⟨hbefore, rfl⟩ := append_decimal_inj (hstop _) (hstop _) hlist
  exact ⟨String.toList_inj.1 (List.append_cancel_right hbefore), rfl⟩

/-- The names of the kinds end in different characters, so the last word tells the kind. -/
theorem Kind.append_name_inj {s t : String} {k l : Kind} (h : s ++ k.name = t ++ l.name) :
    s = t ∧ k = l := by
  have hlast (s : String) (k : Kind) :
      (s ++ k.name).toList.getLast? = k.name.toList.getLast? := by
    rw [String.toList_append, List.getLast?_append]
    cases k <;> rfl
  have hkind : k = l := by
    have hsame := congrArg (·.toList.getLast?) h
    simp only [hlast] at hsame
    cases k <;> cases l <;> first | rfl | exact absurd hsame (by decide)
  subst hkind
  exact ⟨(String.append_left_inj _).1 h, rfl⟩

/-- A mismatch is told by its message: both kinds can be read off. -/
theorem KindMismatch.message_inj {e e' : KindMismatch} (h : e.message = e'.message) : e = e' := by
  obtain ⟨hleft, hactual⟩ := Kind.append_name_inj ((String.append_left_inj _).1 h)
  obtain ⟨-, hexpected⟩ := Kind.append_name_inj ((String.append_left_inj _).1 hleft)
  cases e
  cases e'
  cases hactual
  cases hexpected
  rfl

namespace Failure

/-- The numbers are read from the end, and what is left is the name. -/
theorem arityMismatch_inj {p q : String} {m n m' n' : Nat}
    (h : (arityMismatch p m n).message = (arityMismatch q m' n').message) :
    p = q ∧ m = m' ∧ n = n' := by
  obtain ⟨hleft, hactual⟩ :=
    append_toString_inj (w := " argument(s), got ") (by decide) (by decide) h
  obtain ⟨hname, hexpected⟩ := append_toString_inj (w := "' expects ") (by decide) (by decide) hleft
  exact ⟨(String.append_right_inj _).1 hname, hexpected, hactual⟩

end Failure

namespace Refusal

/-- The number is read from the front, the kind from the end, and what is left is the text. -/
theorem invalidArgument_inj {i j : Nat} {v w : String} {k l : Kind}
    (h : (invalidArgument i v k).message = (invalidArgument j w l).message) :
    i = j ∧ v = w ∧ k = l := by
  obtain ⟨hleft, hkind⟩ := Kind.append_name_inj h
  have hindex := (String.append_left_inj _).1 hleft
  simp only [String.append_assoc] at hindex
  have hlist := congrArg String.toList ((String.append_right_inj _).1 hindex)
  simp only [String.toList_append] at hlist
  have hstop (u : List Char) : Stops (·.isDigit) (" ('".toList ++ u) :=
    Stops.append (by decide) (by decide)
  obtain ⟨hnumber, hvalue⟩ := decimal_append_inj (hstop _) (hstop _) hlist
  exact ⟨hnumber, String.toList_inj.1 (List.append_cancel_left hvalue), hkind⟩

end Refusal

/-! ### Causes

The first nine characters of a diagnostic are the same only if the cause is, which is a finite
check.
-/

/-- The text begins with the word. -/
def Opens (w m : String) : Prop := ∃ rest, m = w ++ rest

namespace Opens

/-- A word opens what it is put before. -/
theorem word (w t : String) : Opens w (w ++ t) := ⟨t, rfl⟩

/-- A word that opens a text opens it with more behind it. -/
theorem append {w m : String} (h : Opens w m) (t : String) : Opens w (m ++ t) := by
  obtain ⟨rest, rfl⟩ := h
  exact ⟨rest ++ t, String.append_assoc⟩

/-- The first nine characters are the word's own, if it has as many. -/
theorem take {w m : String} (h : Opens w m) (hlen : 9 ≤ w.toList.length) :
    m.toList.take 9 = w.toList.take 9 := by
  obtain ⟨rest, rfl⟩ := h
  rw [String.toList_append, List.take_append_of_le_length hlen]

end Opens

/-- What a diagnostic is about, without the parts that are put in. -/
inductive Cause where
  | kindMismatch
  | stackUnderflow
  | unknownSyscall
  | arityMismatch
  | unreadable
  | badConfig
  | unknownProgram
  | invalidArgument
  deriving DecidableEq

namespace Cause

/-- What stands before the first part that is put in. -/
def lead : Cause → String
  | kindMismatch => "Unable to dereference value to "
  | stackUnderflow => "Stack underflow: "
  | unknownSyscall => "Unknown syscall '"
  | arityMismatch => "Program '"
  | unreadable => "File error: "
  | badConfig => "Invalid configuration: "
  | unknownProgram => "Unknown program '"
  | invalidArgument => "Argument "

/-- Every cause has words of nine characters or more. -/
theorem length_lead (c : Cause) : 9 ≤ c.lead.toList.length := by cases c <;> decide

/-- Nine characters tell all of them. -/
theorem eq_of_take_lead {c d : Cause}
    (h : c.lead.toList.take 9 = d.lead.toList.take 9) : c = d := by
  cases c <;> cases d <;> first | rfl | exact absurd h (by decide)

/-- A text begins with the words of one cause only. -/
theorem eq_of_opens {c d : Cause} {m : String} (hc : Opens c.lead m) (hd : Opens d.lead m) :
    c = d := by
  apply eq_of_take_lead
  rw [← hc.take c.length_lead, ← hd.take d.length_lead]

end Cause

namespace Refusal

/-- The cause of a refusal. -/
def cause : Refusal → Cause
  | .failed (.kindMismatch _) => .kindMismatch
  | .failed .stackUnderflow => .stackUnderflow
  | .failed (.unknownSyscall _) => .unknownSyscall
  | .failed (.arityMismatch ..) => .arityMismatch
  | .unreadable _ => .unreadable
  | .badConfig _ => .badConfig
  | .unknownProgram _ => .unknownProgram
  | .invalidArgument .. => .invalidArgument

/-- A message begins with the words of its cause. -/
theorem opens_message (r : Refusal) : Opens r.cause.lead r.message := by
  cases r with
  | failed f =>
    cases f with
    | kindMismatch e => exact (((Opens.word _ _).append _).append _).append _
    | stackUnderflow => exact ⟨"pop from an empty evaluation stack", by decide⟩
    | unknownSyscall name => exact (Opens.word _ _).append _
    | arityMismatch program expected actual =>
      exact ((((Opens.word _ _).append _).append _).append _).append _
  | unreadable e => exact Opens.word _ _
  | badConfig e => exact Opens.word _ _
  | unknownProgram name => exact (Opens.word _ _).append _
  | invalidArgument index value expected =>
    exact ((((Opens.word _ _).append _).append _).append _).append _

/-- Messages that are the same have the same cause, see `Cause.eq_of_opens`. -/
theorem cause_eq_of_message_eq {r s : Refusal} (h : r.message = s.message) : r.cause = s.cause :=
  Cause.eq_of_opens r.opens_message (h ▸ s.opens_message)

end Refusal

/-! ### Diagnostics that are alike -/

/-- A failure is told by its message, by its cause and then by the parts. -/
theorem Failure.message_inj {f g : Failure} (h : f.message = g.message) : f = g := by
  have hcause : (Refusal.failed f).cause = (Refusal.failed g).cause :=
    Refusal.cause_eq_of_message_eq h
  cases f <;> cases g <;> try cases hcause
  case kindMismatch.kindMismatch => exact congrArg kindMismatch (KindMismatch.message_inj h)
  case stackUnderflow.stackUnderflow => rfl
  case unknownSyscall.unknownSyscall => exact congrArg unknownSyscall (eq_of_quoted_eq h)
  case arityMismatch.arityMismatch =>
    obtain ⟨rfl, rfl, rfl⟩ := arityMismatch_inj h
    rfl

namespace Refusal

/-- Whether what failed is the reading of a file. -/
def IsAboutFile : Refusal → Prop
  | .unreadable _ | .badConfig _ => True
  | .failed _ | .unknownProgram _ | .invalidArgument .. => False

/-- Two of the causes are about a file. -/
theorem isAboutFile_of_cause {r : Refusal} (h : r.cause = .unreadable ∨ r.cause = .badConfig) :
    r.IsAboutFile := by
  cases r with
  | failed f => cases f <;> rcases h with h | h <;> cases h
  | unreadable e => trivial
  | badConfig e => trivial
  | unknownProgram name => rcases h with h | h <;> cases h
  | invalidArgument index value expected => rcases h with h | h <;> cases h

/-- A refusal that is not about a file is told by its message, among all refusals. -/
theorem message_inj {r s : Refusal} (hr : ¬ r.IsAboutFile) (h : r.message = s.message) : r = s := by
  -- Equal messages have the same cause, which leaves the cases where the constructors agree.
  have hcause := cause_eq_of_message_eq h
  cases r with
  | unreadable e => exact absurd trivial hr
  | badConfig e => exact absurd trivial hr
  | failed f =>
    cases s with
    | failed g => exact congrArg failed (Failure.message_inj h)
    | _ => cases f <;> cases hcause
  | unknownProgram name =>
    cases s with
    | unknownProgram name' => exact congrArg unknownProgram (eq_of_quoted_eq h)
    | failed g => cases g <;> cases hcause
    | _ => cases hcause
  | invalidArgument i v k =>
    cases s with
    | invalidArgument j w l =>
      obtain ⟨rfl, rfl, rfl⟩ := invalidArgument_inj h
      rfl
    | failed g => cases g <;> cases hcause
    | _ => cases hcause

/-- **What a diagnostic tells.** The diagnostic of a failure tells the failure; that of a refusal
    tells the refusal, unless it passes on what the system says about a file
    (`Refusal.IsAboutFile`), and then it can be told from all the others. -/
theorem message_tells :
    (∀ f g : Failure, f.message = g.message ↔ f = g) ∧
    (∀ r s : Refusal, ¬ r.IsAboutFile → ¬ s.IsAboutFile → (r.message = s.message ↔ r = s)) ∧
    ∀ r : Refusal, ¬ r.IsAboutFile → ∀ rest,
      r.message ≠ "File error: " ++ rest ∧ r.message ≠ "Invalid configuration: " ++ rest := by
  refine ⟨fun f g => ⟨Failure.message_inj, congrArg _⟩,
    fun r s hr _ => ⟨message_inj hr, congrArg _⟩, fun r hr rest => ⟨fun h => hr ?_, fun h => hr ?_⟩⟩
  · have hcause := Cause.eq_of_opens (d := .unreadable) r.opens_message ⟨rest, h⟩
    exact isAboutFile_of_cause (.inl hcause)
  · have hcause := Cause.eq_of_opens (d := .badConfig) r.opens_message ⟨rest, h⟩
    exact isAboutFile_of_cause (.inr hcause)

/-- An argument that repeats the end of a diagnostic, and a name that repeats the beginning of
    one. -/
theorem message_tells_imitation :
    let r := invalidArgument 1 "2') is not a valid Bool" .i64
    let s := invalidArgument 1 "2" .bool
    let t := unknownProgram "File error: "
    (¬ r.IsAboutFile ∧ ¬ s.IsAboutFile ∧ ¬ t.IsAboutFile) ∧
    r.message = "Argument 1 ('2') is not a valid Bool') is not a valid I64" ∧
    s.message = "Argument 1 ('2') is not a valid Bool" ∧
    r.message ≠ s.message ∧ r.message ≠ t.message ∧ ∀ rest, t.message ≠ "File error: " ++ rest := by
  refine ⟨⟨id, id, id⟩, by decide, by decide, fun h => ?_, fun h => ?_, fun rest => ?_⟩
  · exact absurd ((message_tells.2.1 _ _ id id).1 h) (by decide)
  · exact absurd ((message_tells.2.1 _ _ id id).1 h) (by decide)
  · exact (message_tells.2.2 _ id rest).1

end Refusal

end StackMachine
