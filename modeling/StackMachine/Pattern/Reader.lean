import StackMachine.Pattern.Brackets

namespace StackMachine.Pattern

open Text (isAlphabetic isAlphanumeric)

/-!
# Reading patterns

* `Reader` — what is known of a pattern that was read up to a place.
* `Reader.step` — what comes of one more part of it.
* `check cs` — whether the pattern `cs` can be used.
-/

/-- An item of a sequence. -/
structure Item where
  depth : Nat
  /-- whether it can be repeated; a change of options cannot -/
  repeatable : Bool
  deriving DecidableEq, Repr

/-- What a group goes on with when it is closed. -/
structure Group where
  items : List Item
  branches : List Nat
  options : Options
  deriving DecidableEq, Repr

/-- What is known of a pattern up to a place. Nothing but the nesting of what was read is kept, as
    patterns are never matched. -/
structure Reader where
  options : Options := {}
  /-- the items of the sequence that is being read, the last first -/
  items : List Item := []
  /-- how deep each of the sequences before it is nested, of which one is to be matched -/
  branches : List Nat := []
  /-- the groups that are open, the innermost first -/
  groups : List Group := []
  /-- the brackets that are open, the innermost first -/
  brackets : List Brackets := []
  /-- the names of groups -/
  names : List (List Char) := []
  /-- whether the boundary of a word of any script was asked for -/
  boundary : Bool := false
  deriving DecidableEq, Repr

namespace Reader

/-- How deep the sequence that is being read is nested. -/
def sequenceDepth (r : Reader) : Nat := joined (r.items.map Item.depth)

/-- How deep what was read of the innermost group is nested. -/
def depth (r : Reader) : Nat := joined (r.sequenceDepth :: r.branches)

/-- One more item. -/
def add (r : Reader) (item : Item) : Reader := { r with items := item :: r.items }

/-- One more atom, if it can be used. -/
def addAtom (r : Reader) (a : Atom) : Option Reader :=
  if r.options.admits a then
    some { r.add ⟨0, true⟩ with boundary := r.boundary || (a = .place true && r.options.unicode) }
  else none

/-- The last item is to be repeated. -/
def repeatLast (r : Reader) : Option Reader :=
  match r.items with
  | ⟨depth, true⟩ :: items => some { r with items := ⟨depth + 1, true⟩ :: items }
  | _ => none

/-- The end of a sequence, behind which another one begins that can be matched instead. -/
def nextBranch (r : Reader) : Reader :=
  { r with items := [], branches := r.sequenceDepth :: r.branches }

/-- What is known after a character in brackets. -/
def goOn (r : Reader) : Inside → Reader
  | .still brackets => { r with brackets }
  | .closed depth => { r.add ⟨depth, true⟩ with brackets := [] }

/-! ### Groups -/

/-- A new group, in which these options are in force. -/
def openGroup (r : Reader) (options : Options) : Reader :=
  { r with
    options, items := [], branches := [], groups := ⟨r.items, r.branches, r.options⟩ :: r.groups }

/-- The end of the innermost group. The options from before it are in force again. -/
def closeGroup (r : Reader) : Option Reader :=
  match r.groups with
  | [] => none
  | g :: groups =>
    let items := ⟨r.depth + 1, true⟩ :: g.items
    some { r with options := g.options, items, branches := g.branches, groups }

/-- Whether a text can name a group. -/
def isName (cs : List Char) : Bool :=
  match cs with
  | [] => false
  | c :: cs =>
    (c = '_' || isAlphabetic c) &&
      cs.all fun c => c = '_' || c = '.' || c = '[' || c = ']' || isAlphanumeric c

/-- A group behind the angle bracket before its name. -/
def readNamed (r : Reader) (cs : List Char) : Option (Reader × List Char) :=
  let name := cs.takeWhile (· ≠ '>')
  match cs.dropWhile (· ≠ '>') with
  | [] => none
  | _ :: rest =>
    if isName name ∧ name ∉ r.names then
      some ({ r.openGroup r.options with names := name :: r.names }, rest)
    else none

/-- Whether a character ends a change of options. -/
def endsChoice (c : Char) : Bool := c = ':' || c = ')'

/-- A change of options: of a group, or of the rest of the innermost group. -/
def readChoice (r : Reader) (cs : List Char) : Option (Reader × List Char) :=
  let choice := cs.takeWhile (!endsChoice ·)
  let options := r.options.choose choice
  match cs.dropWhile (!endsChoice ·) with
  | [] => none
  | c :: rest =>
    if !isChoice choice then none
    else if c = ':' then some (r.openGroup options, rest)
    else if choice.isEmpty then none
    -- a change for the rest of the group is an item, but none that can be repeated
    else some ({ r.add ⟨0, false⟩ with options }, rest)

/-- What is behind an opening parenthesis. -/
def readGroup (r : Reader) (cs : List Char) : Option (Reader × List Char) :=
  match skip r.options cs with
  | '?' :: 'P' :: '<' :: rest => r.readNamed rest
  | '?' :: '<' :: rest => r.readNamed rest
  | '?' :: rest => r.readChoice rest
  | rest => some (r.openGroup r.options, rest)

/-! ### Whole patterns -/

/-- The text behind a repetition, which can ask for as little as possible. -/
def behindRepetition : List Char → List Char
  | '?' :: rest => rest
  | rest => rest

/-- One more part of a pattern, which begins with this character. -/
def step (r : Reader) (c : Char) (rest : List Char) : Option (Reader × List Char) :=
  match r.brackets with
  | b :: outer => (b.step r.options outer c rest).map fun (inside, rest) => (r.goOn inside, rest)
  | [] =>
    if c = '(' then r.readGroup rest
    else if c = ')' then r.closeGroup.map (·, rest)
    else if c = '|' then some (r.nextBranch, rest)
    else if c = '[' then
      let (b, rest) := Brackets.opened r.options rest
      some ({ r with brackets := [b] }, rest)
    else if c = '?' ∨ c = '*' ∨ c = '+' then r.repeatLast.map (·, behindRepetition rest)
    -- the braces of a counted repetition end the value of a field, so they are never whole
    else if c = '{' then none
    else do
      let (a, rest) ← readAtom r.options c rest
      return (← r.addAtom a, rest)

/-- A pattern from a place on, in at most this many parts. -/
def run : (parts : Nat) → Reader → List Char → Option Reader
  | parts, r, cs =>
    match skip r.options cs, parts with
    | [], _ => some r
    | _ :: _, 0 => none
    | c :: rest, parts + 1 => do
      let (r, rest) ← r.step c rest
      run parts r rest

/-- Whether a pattern can end here: everything is closed and nothing is nested too deep. -/
def isEnd (r : Reader) : Bool :=
  r.groups.isEmpty && r.brackets.isEmpty && r.depth ≤ depthLimit

end Reader

/-- Whether a pattern can be used. Each part of it has a character at least, so there are at most as
    many parts as characters. -/
def check (cs : List Char) : Except Fault Unit :=
  match Reader.run cs.length {} cs with
  | none => .error .malformed
  | some r =>
    if !r.isEnd then .error .malformed
    else if r.boundary then .error .boundary
    else .ok ()

end StackMachine.Pattern
