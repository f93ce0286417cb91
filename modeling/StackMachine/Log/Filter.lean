import StackMachine.Log.Event
import StackMachine.Number.Numeral
import StackMachine.Pattern.Reader
import StackMachine.Text.Bytes

namespace StackMachine.Log

open Text (byteCount isAlphanumeric slice? trim)

/-!
# Log filters

A filter is a comma separated list of directives, `target[span{field=value}]=level` or a part of
that. A directive speaks of the events whose target begins with that text and which have that field;
the most special directive that speaks of an event decides about it.

* `Directive`, `Filter` — the parts and the whole, read by `Directive.read` and `Filter.read`.
* `Directive.outranks` — which of two directives is the more special one.
* `Filter.admits f e` — whether `f` lets `e` through.
-/

/-! ### Directives -/

/-- A field that is asked for. -/
structure FieldTest where
  name : List Char
  /-- whether a value is asked for, too -/
  valued : Bool
  deriving DecidableEq, Repr

/-- The least severe level let through; `none` lets nothing through. -/
abbrev Limit := Option Level

/-- What is let through of the events that a directive speaks of, see `Directive.speaksOf`. -/
structure Directive where
  target : List Char
  /-- the span that events have to lie in -/
  span? : Option (List Char)
  field? : Option FieldTest
  limit : Limit
  deriving DecidableEq, Repr

/-- The directives in force, in the order they were given. -/
abbrev Filter := List Directive

/-- Why a piece of a filter text is no directive. -/
inductive Fault where
  | directive
  | limit
  /-- the value of a field is a pattern that cannot be used -/
  | value (f : Pattern.Fault)
  deriving DecidableEq, Repr

/-- The diagnostic of a fault, as the complaint about the piece quotes it. -/
def Fault.message : Fault → String
  | .directive => "invalid filter directive"
  | .limit =>
    "error parsing level filter: expected one of \"off\", \"error\", \"warn\", \"info\", "
      ++ "\"debug\", \"trace\", or a number 0-5"
  | .value .malformed => "invalid field filter: error building NFA"
  | .value .boundary =>
    "invalid field filter: unsupported regex feature for DFAs: cannot build DFAs for regexes "
      ++ "with Unicode word boundaries; switch to ASCII word boundaries, or heuristically enable "
      ++ "Unicode word boundaries or use a different regex engine"

/-! ### Reading limits -/

/-- A text without the plus sign in front of it. -/
def withoutPlus : List Char → List Char
  | '+' :: cs => cs
  | cs => cs

/-- The limit spelled by a word: a level in any case, `off`, or a number from 0 to 5. -/
def readLimit? (word : List Char) : Option Limit :=
  match Number.readDigits? (withoutPlus word) with
  | some 0 => some none
  | some 1 => some (some .error)
  | some 2 => some (some .warn)
  | some 3 => some (some .info)
  | some 4 => some (some .debug)
  | some 5 => some (some .trace)
  | some _ => none
  | none =>
    match String.ofList (word.map Char.toLower) with
    | "off" => some none
    | "error" => some (some .error)
    | "warn" => some (some .warn)
    | "info" => some (some .info)
    | "debug" => some (some .debug)
    | "trace" => some (some .trace)
    | _ => none

/-! ### Reading directives

The white space around a piece of a filter text is passed over to find the parts of the directive.
The parts are then taken out of the whole piece, at the distances from its beginning that they
have without the white space. -/

/-- The part of a piece between two places, which are told in bytes. -/
def partOf (piece : List Char) (start stop : Nat) : Except Fault (List Char) :=
  match slice? start stop piece with
  | some part => .ok part
  | none => .error .directive

/-- Whether a target can begin with a character. -/
def beginsTarget (c : Char) : Bool := isAlphanumeric c || c = '_' || c = ':' || c = '-'

/-- The value that a text asks for is a number, which may have a sign, or a pattern. A plus sign is
    no pattern, and every other numeral is one. -/
def checkValue (text : List Char) : Except Fault Unit :=
  let pattern := (Pattern.check text).mapError .value
  match text with
  -- as a pattern this would repeat nothing
  | '+' :: rest => if Number.isNumeral rest then .ok () else pattern
  | _ => pattern

/-- The field that a text asks for. What is behind a second equals sign is not looked at. -/
def FieldTest.read (text : List Char) : Except Fault FieldTest :=
  let name := text.takeWhile (· ≠ '=')
  match text.dropWhile (· ≠ '=') with
  | [] => if name.isEmpty then .error .directive else .ok ⟨name, false⟩
  | _ :: value => do
    checkValue (value.takeWhile (· ≠ '='))
    return ⟨name, true⟩

namespace Directive

/-- The directive that lets everything through, from which reading starts. -/
def everything : Directive := ⟨[], none, none, some .trace⟩

/-- The rest of a directive after an equals sign: its limit, or nothing. -/
def readLimit (piece : List Char) (d : Directive) (start : Nat) : Except Fault Directive := do
  let word ← partOf piece start (byteCount piece)
  if word.isEmpty then return d
  match readLimit? word with
  | some limit => return { d with limit }
  | none => throw .limit

/-- The rest of a directive after its brackets. -/
def readEnd (piece : List Char) (d : Directive) (start : Nat) (cs : List Char) :
    Except Fault Directive :=
  match cs with
  | [] => .ok d
  | '=' :: _ => readLimit piece d (start + 1)
  | _ => .error .directive

/-- The rest of a directive after the brace of its field. -/
def readField (piece : List Char) (d : Directive) (start : Nat) (cs : List Char) :
    Except Fault Directive :=
  let stop := start + byteCount (cs.takeWhile (· ≠ '}'))
  match cs.dropWhile (· ≠ '}') with
  | [] => .error .directive
  | _ :: rest => do
    let field ← FieldTest.read (← partOf piece start stop)
    match rest with
    | ']' :: rest => readEnd piece { d with field? := some field } (stop + 2) rest
    | _ => throw .directive

/-- Whether a character ends the name of a span. -/
def endsSpan (c : Char) : Bool := c = ']' || c = '{'

/-- The rest of a directive after its opening bracket: the name of a span, and a field in braces. -/
def readSpan (piece : List Char) (d : Directive) (start : Nat) (cs : List Char) :
    Except Fault Directive :=
  let stop := start + byteCount (cs.takeWhile (!endsSpan ·))
  match cs.dropWhile (!endsSpan ·) with
  | [] => .error .directive
  | c :: rest => do
    let name ← partOf piece start stop
    -- a span can go without a name only before a field
    if c = ']' then readEnd piece { d with span? := some name } (stop + 1) rest
    else
      let span? := if name.isEmpty then none else some name
      readField piece { d with span? } (stop + 1) rest

/-- Whether a character ends a target. -/
def endsTarget (c : Char) : Bool := c = '=' || c = '['

/-- A directive that begins with a target, or that is a limit alone. A target alone, or followed by
    a bare equals sign, lets everything of it through. -/
def readTarget (piece : List Char) (cs : List Char) : Except Fault Directive :=
  let stop := byteCount (cs.takeWhile (!endsTarget ·))
  match cs.dropWhile (!endsTarget ·) with
  | [] =>
    -- one word: a level if it is one, and a target else
    match readLimit? piece with
    | some limit => .ok { everything with limit }
    | none => .ok { everything with target := piece }
  | c :: rest => do
    let d := { everything with target := ← partOf piece 0 stop }
    if c = '=' then readLimit piece d (stop + 1) else readSpan piece d (stop + 1) rest

/-- The directive that a piece of a filter text spells. -/
def read (piece : List Char) : Except Fault Directive :=
  match trim piece with
  | [] => .error .directive
  | '[' :: rest => readSpan piece everything 1 rest
  | c :: rest => if beginsTarget c then readTarget piece (c :: rest) else .error .directive

/-! ### What directives speak of -/

/-- Whether a directive speaks of an event. Events lie in no span and have no values to compare. -/
def speaksOf (d : Directive) (e : Event) : Bool :=
  d.span?.isNone && d.target.isPrefixOf e.target.toList &&
    match d.field? with
    | none => true
    | some f => !f.valued && e.fieldNames.contains (String.ofList f.name)

/-- Whether a directive is at least as special as another one that speaks of the same event: its
    target is longer, or it has a field and the other one none, or its field comes later in the
    order of names. -/
def outranks (d b : Directive) : Bool :=
  if d.target.length = b.target.length then
    -- both targets begin the same text, so they are the same
    match d.field?, b.field? with
    | _, none => true
    | none, some _ => false
    | some f, some g => !decide (f.name < g.name)
  else b.target.length < d.target.length

end Directive

/-! ### Filters -/

/-- The pieces of a text between commas. -/
def splitCommas : List Char → List (List Char)
  | [] => [[]]
  | ',' :: cs => [] :: splitCommas cs
  | c :: cs =>
    match splitCommas cs with
    | [] => [[c]]
    | piece :: pieces => (c :: piece) :: pieces

namespace Filter

/-- What lets only errors through. -/
def errorsOnly : Filter := [{ Directive.everything with limit := some .error }]

/-- The pieces of a filter text that are there at all. -/
def pieces (text : String) : List (List Char) := (splitCommas text.toList).filter (! ·.isEmpty)

/-- The filter of a text. Pieces that are no directive are left out, and if nothing is left there
    are `errorsOnly`. -/
def read (text : String) : Filter :=
  match (pieces text).filterMap fun p => (Directive.read p).toOption with
  | [] => errorsOnly
  | ds => ds

/-- What is to be said about a piece of a filter text that is no directive. -/
def complaint? (piece : List Char) : Option String :=
  match Directive.read piece with
  | .ok _ => none
  | .error e => some ("ignoring `" ++ String.ofList piece ++ "`: " ++ e.message)

/-- One complaint for each piece of a filter text that is no directive, in the order of the
    pieces. -/
def complaints (text : String) : List String := (pieces text).filterMap complaint?

/-- The directive that decides about an event: the most special one that speaks of it, and the last
    of several that are alike. -/
def deciding (f : Filter) (e : Event) : Option Directive :=
  (f.filter (·.speaksOf e)).foldl (fun best? d =>
    match best? with
    | none => some d
    | some best => if d.outranks best then some d else some best) none

/-- Whether an event is let through: some directive decides about it, and its level is within the
    limit. -/
def admits (f : Filter) (e : Event) : Bool :=
  match f.deciding e with
  | some d => d.limit.any (e.level.rank ≤ ·.rank)
  | none => false

end Filter

end StackMachine.Log
