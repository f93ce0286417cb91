import StackMachine.Number.Digits
import StackMachine.Pattern.Basic

namespace StackMachine.Pattern

/-!
# Atoms of patterns

* `Atom`, `readAtom` — the smallest parts of a pattern, inside brackets and outside.
* `Options.admits`, `Options.admitsInside` — whether an atom can be used under the options in force.
* `Options.admitsNamed` — the same for a class with a name.
-/

/-- A smallest part of a pattern. -/
inductive Atom where
  /-- a character, written as the number of a byte or not -/
  | literal (c : Char) (byte : Bool)
  /-- the digits, the white space or the letters of words, or all but them -/
  | classOf (negated : Bool)
  /-- any character -/
  | any
  /-- a place, which is the boundary of a word or not -/
  | place (boundary : Bool)
  deriving DecidableEq, Repr

/-- The number written by this many hexadecimal digits. -/
def readHex (o : Options) : (digits value : Nat) → List Char → Option (Nat × List Char)
  | 0, value, cs => some (value, cs)
  | _, _, [] => none
  | digits + 1, value, c :: cs => do
    let d ← Number.hexDigit? c
    readHex o digits (16 * value + d) (skip o cs)

/-- The character whose number is written by this many hexadecimal digits. -/
def readNumbered (o : Options) (digits : Nat) (byte : Bool) (cs : List Char) :
    Option (Atom × List Char) := do
  let (n, rest) ← readHex o digits 0 (skip o cs)
  if n.isValidChar then return (.literal (.ofNat n) byte, rest) else none

/-- The character that a letter stands for behind a backslash. -/
def letterEscape? : Char → Option Char
  | 'a' => some '\x07'
  | 'f' => some '\x0c'
  | 'n' => some '\n'
  | 'r' => some '\r'
  | 't' => some '\t'
  | 'v' => some '\x0b'
  | _ => none

/-- Whether a character stands for itself behind a backslash. -/
def isSelfEscape (c : Char) : Bool := c.toNat < 0x80 && !c.isAlphanum && c ≠ '<' && c ≠ '>'

/-- What a character behind a backslash means that is no number of a character. -/
def simpleEscape? (c : Char) : Option Atom :=
  if isSelfEscape c then some (.literal c false)
  else if "dsw".toList.contains c then some (.classOf false)
  else if "DSW".toList.contains c then some (.classOf true)
  else if c = 'A' ∨ c = 'z' then some (.place false)
  else if c = 'b' ∨ c = 'B' ∨ c = '<' ∨ c = '>' then some (.place true)
  else (letterEscape? c).map (.literal · false)

/-- The atom behind a backslash. -/
def readEscape (o : Options) : List Char → Option (Atom × List Char)
  | [] => none
  | 'x' :: cs => readNumbered o 2 true cs
  | 'u' :: cs => readNumbered o 4 false cs
  | 'U' :: cs => readNumbered o 8 false cs
  | c :: cs => (simpleEscape? c).map (·, cs)

/-- The atom that begins with a character outside brackets. -/
def readAtom (o : Options) (c : Char) (rest : List Char) : Option (Atom × List Char) :=
  if c = '\\' then readEscape o rest
  else if c = '.' then some (.any, rest)
  else if c = '^' ∨ c = '$' then some (.place false, rest)
  else some (.literal c false, rest)

/-- The atom that begins with a character inside brackets. There only a backslash is special. -/
def readMember (o : Options) (c : Char) (rest : List Char) : Option (Atom × List Char) :=
  if c = '\\' then readEscape o rest else some (.literal c false, rest)

namespace Options

/-- Whether an atom can be used outside brackets. The pairs of upper and lower case and the classes
    of characters are not known beyond ASCII, and what is matched has to be UTF-8. -/
def admits (o : Options) : Atom → Bool
  | .literal c byte => if o.unicode then !o.anyCase else !(byte && '\x7f' < c)
  | .classOf negated => !o.unicode && !negated
  | .any => o.unicode
  | .place _ => true

/-- Whether a character can be used inside brackets. -/
def admitsMember (o : Options) (c : Char) : Bool :=
  if o.unicode then !o.anyCase else c ≤ '\x7f'

/-- Whether an atom can be used inside brackets, where a literal has to pass `admitsMember`. -/
def admitsInside (o : Options) : Atom → Bool
  | .literal c _ => o.admitsMember c
  | .classOf negated => !o.unicode && !negated
  | .any => false
  | .place _ => false

/-- Whether a class with a name can be used inside brackets. Its members are known; what is left of
    bytes without them is no UTF-8. -/
def admitsNamed (o : Options) (negated : Bool) : Bool :=
  if o.unicode then !o.anyCase else !negated

end Options

end StackMachine.Pattern
