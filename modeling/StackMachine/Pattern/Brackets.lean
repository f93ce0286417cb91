import StackMachine.Pattern.Atom

namespace StackMachine.Pattern

/-!
# Brackets in patterns

Brackets hold members: characters, ranges of them, classes, and other brackets. Operators between
members make one set of several.

* `Brackets` — brackets that are still open.
* `Brackets.step` — what comes of one more character.
-/

/-- How far brackets have come. -/
inductive Stage where
  /-- nothing is in them yet -/
  | fresh
  /-- nothing but dashes -/
  | dashes
  | begun
  deriving DecidableEq, Repr

/-- Brackets that are still open. -/
structure Brackets where
  stage : Stage
  negated : Bool
  /-- how deep each member behind the last operator is nested -/
  members : List Nat
  /-- how deep what stands before the last operator is nested -/
  left? : Option Nat
  deriving DecidableEq, Repr

/-- What came of a character in brackets. -/
inductive Inside where
  /-- the brackets that are open now, the innermost first -/
  | still (open_ : List Brackets)
  /-- the outermost brackets are closed, and nested this deep -/
  | closed (depth : Nat)
  deriving DecidableEq, Repr

/-- The names of the classes that can be members. -/
def classNames : List String :=
  ["alnum", "alpha", "ascii", "blank", "cntrl", "digit", "graph", "lower", "print", "punct",
    "space", "upper", "word", "xdigit"]

/-- The class behind an opening bracket, `:name:]` or `:^name:]`: whether it is negated. -/
def readClass? (cs : List Char) : Option (Bool × List Char) := do
  let (negated, cs) ← match cs with
    | ':' :: '^' :: cs => some (true, cs)
    | ':' :: cs => some (false, cs)
    | _ => none
  match cs.dropWhile (· ≠ ':') with
  | ':' :: ']' :: rest =>
    if classNames.contains (String.ofList (cs.takeWhile (· ≠ ':'))) then some (negated, rest)
    else none
  | _ => none

/-- The member that begins with a character: a range, or an atom alone. A dash before a closing
    bracket or before another dash makes no range. -/
def readRange (o : Options) (c : Char) (rest : List Char) : Option (List Char) := do
  let (low, rest) ← readMember o c rest
  if !o.admitsInside low then none
  match skip o rest with
  | '-' :: after =>
    if sight? o after = some ']' ∨ sight? o after = some '-' then return '-' :: after
    match skip o after with
    | [] => none
    | c :: after =>
      let (high, rest) ← readMember o c after
      if !o.admitsInside high then none
      match low, high with
      | .literal low _, .literal high _ => if low ≤ high then return rest else none
      | _, _ => none
  | rest => return rest

namespace Brackets

/-- Brackets that were just opened, with the text in them. -/
def opened (o : Options) (cs : List Char) : Brackets × List Char :=
  match skip o cs with
  | '^' :: rest => (⟨.fresh, true, [], none⟩, rest)
  | rest => (⟨.fresh, false, [], none⟩, rest)

/-- One more member. -/
def insert (b : Brackets) (depth : Nat) : Brackets :=
  { b with stage := .begun, members := depth :: b.members }

/-- How deep the set of the brackets is nested. -/
def setDepth (b : Brackets) : Nat :=
  match b.left? with
  | none => joined b.members
  | some left => max left (joined b.members) + 1

/-- An operator behind the members. -/
def operator (b : Brackets) : Brackets := ⟨.begun, b.negated, [], some b.setDepth⟩

/-- The end of the innermost brackets `b`. What is left of bytes by a negation is no UTF-8. -/
def close (o : Options) (b : Brackets) (outer : List Brackets) : Option Inside :=
  if b.negated && !o.unicode then none
  else
    match outer with
    | [] => some (.closed (b.setDepth + 1))
    | b' :: outer => some (.still (b'.insert (b.setDepth + 1) :: outer))

/-- Whether a character and the next one are an operator. -/
def isOperator (c : Char) (rest : List Char) : Bool :=
  (c = '&' || c = '-' || c = '~') && rest.head? = some c

/-- One more character in the innermost brackets `b`. A closing bracket stands for itself when
    nothing is in them yet, and so do dashes at the beginning. -/
def step (o : Options) (b : Brackets) (outer : List Brackets) (c : Char) (rest : List Char) :
    Option (Inside × List Char) :=
  if c = ']' ∧ b.stage = .fresh ∨ c = '-' ∧ b.stage ≠ .begun then
    let stage := if c = '-' then .dashes else .begun
    if o.admitsMember c then some (.still ({ b.insert 0 with stage } :: outer), rest) else none
  else if c = ']' then (b.close o outer).map (·, rest)
  else if c = '[' then
    match readClass? rest with
    | some (negated, rest) =>
      if o.admitsNamed negated then some (.still (b.insert 0 :: outer), rest) else none
    | none =>
      -- brackets in brackets are a member once they are closed
      let (inner, rest) := opened o rest
      some (.still (inner :: b :: outer), rest)
  else if isOperator c rest then some (.still (b.operator :: outer), rest.tail)
  else (readRange o c rest).map (.still (b.insert 0 :: outer), ·)

end Brackets

end StackMachine.Pattern
