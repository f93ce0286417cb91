import StackMachine.Text.Alphanumeric

namespace StackMachine.Pattern

open Text (isBlank)

/-!
# Patterns

A pattern is a regular expression. Here it is only looked at whether one can be used at all; it is
never matched against anything.

* `Fault` — why a pattern cannot be used.
* `Options`, `Options.choose` — the options in force at a place, and a change of them.
* `skip`, `sight?` — white space and comments between the parts of a pattern.
* `joined` — how deep the parts of a part are nested.
-/

/-- Why a pattern cannot be used. -/
inductive Fault where
  /-- it is no regular expression, or would need a table of characters that there is none of -/
  | malformed
  /-- it asks for the boundary of a word of any script -/
  | boundary
  deriving DecidableEq, Repr

/-! ### Options -/

/-- The options in force at a place. -/
structure Options where
  /-- whether upper and lower case are alike -/
  anyCase : Bool := false
  /-- whether the pattern speaks of characters, and not of bytes -/
  unicode : Bool := true
  /-- whether white space stands for nothing and `#` begins a comment -/
  spaced : Bool := false
  deriving DecidableEq, Repr

/-- The letters of the options, and the dash before those that are taken back. -/
def optionLetters : List Char := "imsURux-".toList

/-- Whether a text changes options: nothing is in it twice, and the dash is not its end. -/
def isChoice (cs : List Char) : Bool :=
  cs.all optionLetters.contains && decide cs.Nodup && cs.getLast? ≠ some '-'

/-- What becomes of the option with this letter. -/
def chosen (cs : List Char) (letter : Char) (before : Bool) : Bool :=
  if (cs.takeWhile (· ≠ '-')).contains letter then true
  else if cs.contains letter then false
  else before

/-- The options after a change. -/
def Options.choose (o : Options) (cs : List Char) : Options :=
  ⟨chosen cs 'i' o.anyCase, chosen cs 'u' o.unicode, chosen cs 'x' o.spaced⟩

/-! ### White space and comments -/

/-- The text behind white space and comments. A comment ends with its line. -/
def skipSpaced : (comment : Bool) → List Char → List Char
  | _, [] => []
  | true, c :: cs => skipSpaced (c ≠ '\n') cs
  | false, c :: cs =>
    if isBlank c then skipSpaced false cs
    else if c = '#' then skipSpaced true cs
    else c :: cs

/-- The text behind what stands for nothing. -/
def skip (o : Options) (cs : List Char) : List Char := if o.spaced then skipSpaced false cs else cs

/-- The next character that is not white space, nor the first `#`. -/
def sightSpaced? : (comment : Bool) → List Char → Option Char
  | _, [] => none
  | comment, c :: cs =>
    if isBlank c then sightSpaced? comment cs
    else if !comment && c = '#' then sightSpaced? true cs
    else some c

/-- The next character in sight. What is in sight of spaced text may belong to a comment. -/
def sight? (o : Options) (cs : List Char) : Option Char :=
  if o.spaced then sightSpaced? false cs else cs.head?

/-! ### Nesting -/

/-- How deep a sequence is nested with parts that are nested so deep. A sequence of one part is that
    part. -/
def joined : List Nat → Nat
  | [] => 0
  | [depth] => depth
  | depths => depths.foldl max 0 + 1

/-- How deep a pattern can be nested. -/
def depthLimit : Nat := 250

end StackMachine.Pattern
