import StackMachine.Config.Basic
import StackMachine.Json.Scan

namespace StackMachine

open Json

/-!
# Reading configurations

A configuration text is a JSON object with the fields `unknown_syscall` and
`initial_stack_capacity`, each at most once and both optional, or a list of the two in that order,
of which the end may be missing. A policy is its word, or an object that has the word as its only
key and null as the value.

* `Config.read`, `Policy.read` — a whole text.
* `Config.scan`, `Policy.scan`, `scanCapacity` — one value at the front of a text.
-/

namespace Json

/-- The stop after a value that was found where another kind of value belongs. If the value itself
    cannot be read, that comes first. -/
def refuseFound (expected : String) (scanned : Except Stop (Found × List Char)) : Stop :=
  match scanned with
  | .ok (found, rest) => .before (.wrongType found expected) rest
  | .error s => s

/-- A number that was found, after its sign. -/
def scanFoundNumber (neg : Bool) (cs : List Char) : Except Stop (Found × List Char) :=
  match scanNumber neg cs with
  | .ok (.natural n, rest) => .ok (.integer n, rest)
  | .ok (.negative n, rest) => .ok (.integer (-n), rest)
  | .ok (.double neg x, rest) => .ok (.double neg x, rest)
  | .error s => .error s

/-- The stop at a value of the wrong kind. A list or an object is not read to its end. -/
def refuse (expected : String) (cs : List Char) : Stop :=
  match cs with
  | [] => .before .eofInValue []
  | 'n' :: rest => refuseFound expected ((scanWord "ull".toList rest).map (.null, ·))
  | 't' :: rest => refuseFound expected ((scanWord "rue".toList rest).map (.boolean true, ·))
  | 'f' :: rest => refuseFound expected ((scanWord "alse".toList rest).map (.boolean false, ·))
  | '"' :: rest => refuseFound expected ((scanString rest).map fun (s, rest) => (.string s, rest))
  | '[' :: _ => refuseFound expected (.ok (.sequence, cs))
  | '{' :: _ => refuseFound expected (.ok (.map, cs))
  | '-' :: rest => refuseFound expected (scanFoundNumber true rest)
  | c :: _ =>
    if c.isDigit then refuseFound expected (scanFoundNumber false cs) else .upon .expectedValue cs

/-- The colon after a key. -/
def scanColon (cs : List Char) : Except Stop (List Char) :=
  match skipSpace cs with
  | [] => .error (.before .eofInObject [])
  | ':' :: rest => .ok rest
  | cs => .error (.upon .expectedColon cs)

/-- Only white space may follow the value of a text. -/
def scanEnd (cs : List Char) : Except Stop Unit :=
  match skipSpace cs with
  | [] => .ok ()
  | cs => .error (.upon .trailingCharacters cs)

/-- A whole text that holds one value, read by `scan`, with the place of what is wrong in it. -/
def readWhole {α : Type} (scan : List Char → Except Stop (α × List Char)) (text : String) :
    Except Error α :=
  let scanned : Except Stop α := do
    let (a, rest) ← scan text.toList
    scanEnd rest
    return a
  scanned.mapError (·.locate text.toList)

end Json

namespace Policy

/-- The words of the policies, as `Cause.unknownVariant` lists them. -/
def words : List String := [word .reject, word .ignore]

/-- A policy's word, with a quote opened before it. It is told by what the string means, so escapes
    do not matter. -/
def scanWord (cs : List Char) : Except Stop (Policy × List Char) := do
  let (s, rest) ← scanString cs
  match ofWord? s with
  | some p => return (p, rest)
  | none => throw (.before (.unknownVariant s words) rest)

/-- The null that a policy's word has as its value. -/
def scanUnit (cs : List Char) : Except Stop (List Char) :=
  match skipSpace cs with
  | 'n' :: rest => Json.scanWord "ull".toList rest
  | cs => .error (refuse "unit" cs)

/-- An object whose key is a policy's word, after its brace. -/
def scanObject (cs : List Char) : Except Stop (Policy × List Char) :=
  match skipSpace cs with
  | [] => .error (.before .eofInObject [])
  | '"' :: rest => do
    let (p, rest) ← scanWord rest
    let rest ← scanColon rest
    let rest ← scanUnit rest
    -- one key only
    match skipSpace rest with
    | [] => throw (.before .eofInObject [])
    | '}' :: rest => return (p, rest)
    | rest => throw (.before .expectedValue rest)
  | '}' :: rest => .error (.upon .expectedValue ('}' :: rest))
  | cs => .error (.upon .keyNotString cs)

/-- A policy at the front of a text: its word, or an object around it. -/
def scan (cs : List Char) : Except Stop (Policy × List Char) :=
  match skipSpace cs with
  | [] => .error (.before .eofInValue [])
  | '"' :: rest => scanWord rest
  | '{' :: rest => scanObject rest
  | cs => .error (.upon .expectedValue cs)

/-- The policy that a text spells. -/
def read (text : String) : Except Json.Error Policy := readWhole scan text

end Policy

/-! ### Capacities -/

/-- What a capacity is called in messages. -/
def capacityType : String := "usize"

/-- A number that has to be a capacity, after its sign `neg`. Only `Numeral.natural` numbers are
    capacities. -/
def scanCapacityNumber (neg : Bool) (cs : List Char) : Except Stop (UInt64 × List Char) :=
  match scanNumber neg cs with
  | .error s => .error s
  | .ok (.natural n, rest) => .ok (.ofNat n, rest)
  | .ok (.negative n, rest) => .error (.before (.wrongValue (.integer (-n)) capacityType) rest)
  | .ok (.double neg x, rest) => .error (.before (.wrongType (.double neg x) capacityType) rest)

/-- A stack capacity at the front of a text. -/
def scanCapacity (cs : List Char) : Except Stop (UInt64 × List Char) :=
  match skipSpace cs with
  | [] => .error (.before .eofInValue [])
  | '-' :: rest => scanCapacityNumber true rest
  | c :: rest =>
    if c.isDigit then scanCapacityNumber false (c :: rest)
    else .error (refuse capacityType (c :: rest))

namespace Config

/-! ### The fields -/

/-- The fields of a configuration that were read so far. Each can be there only once. -/
structure Draft where
  policy? : Option Policy := none
  capacity? : Option UInt64 := none
  deriving DecidableEq, Repr

/-- The configuration of a draft: fields that were not read have their defaults. -/
def ofDraft (d : Draft) : Config :=
  { unknownSyscall := d.policy?.getD ({} : Config).unknownSyscall
    stackCapacity := d.capacity?.getD ({} : Config).stackCapacity }

/-- How many fields are missing. Each member read makes it smaller, which is why `scanMembers`
    ends. -/
def Draft.missing (d : Draft) : Nat :=
  (if d.policy?.isNone then 1 else 0) + (if d.capacity?.isNone then 1 else 0)

/-- The keys of the fields. -/
def keys : List String := [policyKey, capacityKey]

/-! ### Objects -/

/-- A key, with its opening quote. -/
def scanQuotedKey (cs : List Char) : Except Stop (String × List Char) :=
  match cs with
  | '"' :: rest => scanString rest
  | cs => .error (.upon .keyNotString cs)

/-- The next key of an object, or none at its closing brace. `isFirst` tells that no comma is due
    before it. -/
def scanKey (isFirst : Bool) (cs : List Char) : Except Stop (Option String × List Char) :=
  match skipSpace cs with
  | [] => .error (.before .eofInObject [])
  | '}' :: rest => .ok (none, rest)
  | c :: rest =>
    if isFirst then (scanQuotedKey (c :: rest)).map fun (key, rest) => (some key, rest)
    else if c = ',' then
      -- behind a comma a key has to come, not the end
      match skipSpace rest with
      | [] => .error (.before .eofInValue [])
      | '}' :: rest => .error (.upon .trailingComma ('}' :: rest))
      | rest => (scanQuotedKey rest).map fun (key, rest) => (some key, rest)
    else .error (.upon .expectedCommaOrBrace (c :: rest))

/-- The text behind the members of an object: behind its closing brace, if that is what follows. -/
def afterMembers (cs : List Char) : List Char :=
  match skipSpace cs with
  | '}' :: rest => rest
  | rest => rest

/-- The members of an object. A key that cannot stand there is reported where the object might end
    behind it (`afterMembers`). Each member fills a field that was missing, so there are at most
    two. -/
def scanMembers (d : Draft) (isFirst : Bool) (cs : List Char) : Except Stop (Draft × List Char) :=
  match scanKey isFirst cs with
  | .error s => .error s
  | .ok (none, rest) => .ok (d, rest)
  | .ok (some key, rest) =>
    if key = policyKey then
      if d.policy?.isSome then .error (.before (.duplicateField key) (afterMembers rest))
      else
        match scanColon rest >>= Policy.scan with
        | .error s => .error s
        | .ok (p, rest) => scanMembers { d with policy? := some p } false rest
    else if key = capacityKey then
      if d.capacity?.isSome then .error (.before (.duplicateField key) (afterMembers rest))
      else
        match scanColon rest >>= scanCapacity with
        | .error s => .error s
        | .ok (n, rest) => scanMembers { d with capacity? := some n } false rest
    else .error (.before (.unknownField key keys) (afterMembers rest))
termination_by d.missing
decreasing_by all_goals simp_all [Draft.missing]

/-! ### Lists -/

/-- Whether another element of a list comes, after what separates it from the one before. -/
def scanNext (isFirst : Bool) (cs : List Char) : Except Stop (Bool × List Char) :=
  match skipSpace cs with
  | [] => .error (.before .eofInList [])
  | ']' :: rest => .ok (false, rest)
  | c :: rest =>
    if isFirst then .ok (true, c :: rest)
    else if c = ',' then
      match skipSpace rest with
      | [] => .error (.before .eofInValue [])
      | ']' :: rest => .error (.upon .trailingComma (']' :: rest))
      | rest => .ok (true, rest)
    else .error (.upon .expectedCommaOrBracket (c :: rest))

/-- The end of a list that has all its elements. -/
def scanClose (cs : List Char) : Except Stop (List Char) :=
  match skipSpace cs with
  | [] => .error (.before .eofInList [])
  | ']' :: rest => .ok rest
  | ',' :: rest =>
    match skipSpace rest with
    | ']' :: rest => .error (.upon .trailingComma (']' :: rest))
    | rest => .error (.upon .trailingCharacters rest)
  | cs => .error (.upon .trailingCharacters cs)

/-- The elements of a list: the policy and the capacity, in this order. -/
def scanElements (cs : List Char) : Except Stop (Draft × List Char) := do
  -- the fields come in their order, and the list may end before each
  let (more, rest) ← scanNext true cs
  if !more then return ({}, rest)
  let (p, rest) ← Policy.scan rest
  let (more, rest) ← scanNext false rest
  if !more then return ({ policy? := some p }, rest)
  let (n, rest) ← scanCapacity rest
  let rest ← scanClose rest
  return ({ policy? := some p, capacity? := some n }, rest)

/-! ### Whole configurations -/

/-- A configuration at the front of a text, as an object or as a list. -/
def scan (cs : List Char) : Except Stop (Config × List Char) :=
  let draft : Except Stop (Draft × List Char) :=
    match skipSpace cs with
    | '{' :: rest => scanMembers {} true rest
    | '[' :: rest => scanElements rest
    | cs => .error (refuse "struct RuntimeConfig" cs)
  draft.map fun (d, rest) => (ofDraft d, rest)

/-- The configuration that a text spells. -/
def read (text : String) : Except Json.Error Config := readWhole scan text

end Config

end StackMachine
