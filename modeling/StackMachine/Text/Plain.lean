namespace StackMachine.Text

/-!
# Plain text

A terminal takes some characters as orders and not as text: controls, and the sequences that an
escape character opens. Plain text is what is left without them.

* `Reading` — whether text is being read, or what kind of sequence.
* `plain s` — the plain text of `s`.
* `written s` — what is written of `s` where there is no terminal.
-/

/-- What the characters of a text are taken for. -/
inductive Reading where
  | text
  /-- the beginning of a sequence, after the escape character -/
  | escape
  /-- a short sequence, after the characters that announce its end -/
  | announced
  /-- the parameters of a control sequence, which a letter ends -/
  | control
  /-- a string for the terminal itself, such as its title, which the bell ends -/
  | title
  /-- the beginning of a string for a device -/
  | device
  /-- the parameters of a string for a device -/
  | deviceParameters
  /-- the announcement of a string for a device -/
  | deviceAnnounced
  /-- a string for something else than the terminal, which its own terminator ends -/
  | string
  deriving DecidableEq, Repr

namespace Reading

/-- How a sequence goes on, by the character after the escape character. -/
def opened (c : Char) : Reading :=
  if c = '[' then .control
  else if c = ']' then .title
  else if c = 'P' then .device
  else if c = 'X' ∨ c = '^' ∨ c = '_' then .string
  else if '0' ≤ c ∧ c ≤ '~' then .text
  else if ' ' ≤ c ∧ c ≤ '/' then .announced
  else .escape

/-- What comes after one more ASCII character. -/
def next (r : Reading) (c : Char) : Reading :=
  match r with
  | .text => .text
  | .escape => opened c
  | .announced => if '0' ≤ c ∧ c ≤ '~' then .text else .announced
  | .control => if '@' ≤ c ∧ c ≤ '~' then .text else .control
  | .title => if c = '\x07' then .text else .title
  | .device =>
    if '@' ≤ c ∧ c ≤ '~' then .string
    else if '0' ≤ c ∧ c ≤ '?' then .deviceParameters
    else if ' ' ≤ c ∧ c ≤ '/' then .deviceAnnounced
    else .device
  | .deviceParameters =>
    if '<' ≤ c ∧ c ≤ '~' then .string
    else if ' ' ≤ c ∧ c ≤ '/' then .deviceAnnounced
    else .deviceParameters
  | .deviceAnnounced => if '0' ≤ c ∧ c ≤ '~' then .string else .deviceAnnounced
  | .string => .string

/-- Whether white space ends a sequence and is kept. Strings have their own white space. -/
def keepsSpace : Reading → Bool
  | .text => true
  | .escape => true
  | .announced => true
  | .control => true
  | _ => false

end Reading

/-- The byte that ends a string for something else than the terminal. -/
def terminator : UInt8 := 0x9c

/-- Whether one of the bytes of a character is that terminator. -/
def hasTerminator (c : Char) : Bool := (String.utf8EncodeChar c).contains terminator

/-- The controls that are white space. -/
def isSpacing (c : Char) : Bool := c = '\t' || c = '\n' || c = '\x0c' || c = '\r'

/-- The controls that break off any sequence. -/
def isCancelling (c : Char) : Bool := c = '\x18' || c = '\x1a'

/-- The plain text of a text, the beginning of which is taken for `r`. White space breaks into a
    sequence. If `resumes`, the next control takes the sequence up again; until then `pending` is
    that sequence, or text if there is none. Characters beyond ASCII count for nothing in a
    sequence, but may hold the terminator of a string; in text they end what is pending. -/
def plainFrom (resumes : Bool) : (r pending : Reading) → List Char → List Char
  | _, _, [] => []
  | r, pending, c :: cs =>
    if c = '\x1b' then plainFrom resumes .escape .text cs
    else if isCancelling c then plainFrom resumes .text .text cs
    else if '\x7f' < c then
      -- beyond ASCII
      if r = .text then c :: plainFrom resumes .text .text cs
      else plainFrom resumes (if r = .string ∧ hasTerminator c then .text else r) .text cs
    else if isSpacing c && r.keepsSpace then
      -- what the next control goes on with
      let broken := if r = .text then pending else if resumes then r else .text
      c :: plainFrom resumes .text broken cs
    else if r = .text then
      if ' ' ≤ c ∧ c < '\x7f' then c :: plainFrom resumes .text pending cs
      else plainFrom resumes pending .text cs
    -- a delete character is part of a sequence and does not change it
    else if c = '\x7f' then plainFrom resumes r .text cs
    else plainFrom resumes (r.next c) .text cs

/-- The plain text of a text. A sequence that white space breaks into is over. -/
def plain (s : String) : String := String.ofList (plainFrom false .text .text s.toList)

/-- What is written of a text where there is no terminal: the plain text, but a sequence that white
    space breaks into goes on behind the next control. -/
def written (s : String) : String := String.ofList (plainFrom true .text .text s.toList)

end StackMachine.Text
