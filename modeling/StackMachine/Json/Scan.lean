import StackMachine.Json.Error
import StackMachine.Number.Digits

namespace StackMachine.Json

open Number (Binary64 hexDigit?)
open Text (byteCount)

/-!
# Tokens of JSON texts

A scanner takes a token off the front of a text and gives back what is left of it, or stops.

* `skipSpace`, `scanWord` — white space, and the letters of a literal.
* `scanString` — the rest of a string after its opening quote, escapes decoded.
* `scanNumber` — a number, as the `Numeral` that it stands for.
-/

/-- What a scanner takes off a text, with the rest of the text. -/
abbrev Scan (α : Type) := Except Stop (α × List Char)

/-- White space between tokens. -/
def isSpace (c : Char) : Bool := c = ' ' || c = '\n' || c = '\t' || c = '\r'

/-- The text without the white space at its front. -/
def skipSpace (cs : List Char) : List Char := cs.dropWhile isSpace

/-- The letters of a literal, the first of which was taken already where this is used. -/
def scanWord : List Char → List Char → Except Stop (List Char)
  | [], cs => .ok cs
  | _ :: _, [] => .error (.before .eofInValue [])
  | w :: ws, c :: cs => if c = w then scanWord ws cs else .error (.upon .expectedIdent (c :: cs))

/-! ### Strings -/

/-- What the letter after a backslash stands for, if it needs no digits. -/
def simpleEscape? : Char → Option Char
  | '"' => some '"'
  | '\\' => some '\\'
  | '/' => some '/'
  | 'b' => some '\x08'
  | 'f' => some '\x0c'
  | 'n' => some '\n'
  | 'r' => some '\r'
  | 't' => some '\t'
  | _ => none

/-- The number written by four hexadecimal digits. -/
def hexNumber? (a b c d : Char) : Option Nat := do
  let a ← hexDigit? a
  let b ← hexDigit? b
  let c ← hexDigit? c
  let d ← hexDigit? d
  return ((a * 16 + b) * 16 + c) * 16 + d

/-- The four digits at the front of a text. They are told apart by bytes, so a stop comes four bytes
    further on even if these end within a character. -/
def scanHex (cs : List Char) : Except Stop Nat :=
  if byteCount cs < 4 then .error (.before .eofInString [])
  else
    let wrong : Stop := ⟨.invalidEscape, byteCount cs - 4⟩
    match cs with
    | a :: b :: c :: d :: _ =>
      match hexNumber? a b c d with
      | some n => .ok n
      | none => .error wrong
    | _ => .error wrong

/-- Halves of surrogate pairs: the first of a pair, and the second. -/
def isHighSurrogate (n : Nat) : Bool := 0xd800 ≤ n && n < 0xdc00

@[inherit_doc isHighSurrogate]
def isLowSurrogate (n : Nat) : Bool := 0xdc00 ≤ n && n < 0xe000

/-- The character that a surrogate pair stands for. -/
def pairChar (high low : Nat) : Char :=
  Char.ofNat ((high - 0xd800) * 0x400 + (low - 0xdc00) + 0x10000)

/-- The character written after `\u`, and the number of characters that it takes. A half of a
    surrogate pair is no character, so the other half has to follow. -/
def scanUnicode (cs : List Char) : Except Stop (Char × Nat) := do
  let n ← scanHex cs
  if isLowSurrogate n then .error ⟨.loneSurrogate, byteCount cs - 4⟩
  else if isHighSurrogate n then
    -- the second half has to follow as an escape of its own
    match cs.drop 4 with
    | [] => .error (.before .eofInString [])
    | '\\' :: rest =>
      match rest with
      | [] => .error (.before .eofInString [])
      | 'u' :: rest =>
        let low ← scanHex rest
        if isLowSurrogate low then .ok (pairChar n low, 10)
        else .error ⟨.loneSurrogate, byteCount rest - 4⟩
      | rest => .error (.upon .halfPair rest)
    | rest => .error (.upon .halfPair rest)
  else .ok (Char.ofNat n, 4)

/-- The character written after a backslash, and the number of characters that it takes. -/
def scanEscape : List Char → Except Stop (Char × Nat)
  | [] => .error (.before .eofInString [])
  | 'u' :: cs => do
    let (c, n) ← scanUnicode cs
    return (c, n + 1)
  | c :: cs =>
    match simpleEscape? c with
    | some d => .ok (d, 1)
    | none => .error (.upon .invalidEscape (c :: cs))

/-- The characters of a string up to its closing quote. The first `skip` characters belong to an
    escape that was decoded already. -/
def scanChars : (skip : Nat) → List Char → Except Stop (List Char × List Char)
  | _, [] => .error (.before .eofInString [])
  | skip + 1, _ :: cs => scanChars skip cs
  | 0, c :: cs =>
    if c = '"' then .ok ([], cs)
    else if c = '\\' then do
      let (d, n) ← scanEscape cs
      let (ds, rest) ← scanChars n cs
      return (d :: ds, rest)
    else if c.toNat < 0x20 then .error (.upon .controlCharacter (c :: cs))
    else do
      let (ds, rest) ← scanChars 0 cs
      return (c :: ds, rest)

/-- A string after its opening quote. -/
def scanString (cs : List Char) : Except Stop (String × List Char) := do
  let (s, rest) ← scanChars 0 cs
  return (String.ofList s, rest)

/-! ### Numbers -/

/-- What a number stands for: a whole number if it fits in 64 bits, a double otherwise. -/
inductive Numeral where
  | natural (n : Nat)
  /-- below zero -/
  | negative (n : Nat)
  | double (isNegative : Bool) (x : Binary64)
  deriving DecidableEq, Repr

/-- The largest whole number that is kept as such. -/
def maxNatural : Nat := UInt64.size - 1

/-- The largest power of ten that the exponent of a number may spell. -/
def maxPower : Nat := Nat.pow 2 31 - 1

/-- The value of a digit. -/
def digitValue (c : Char) : Nat := c.toNat - '0'.toNat

/-- Take digits off a text as long as the number they make, counted on from `n`, stays within
    `limit`. Gives the number, how many digits it took and the rest. -/
def takeDigits (limit : Nat) : (n taken : Nat) → List Char → Nat × Nat × List Char
  | n, taken, [] => (n, taken, [])
  | n, taken, c :: cs =>
    if c.isDigit && n * 10 + digitValue c ≤ limit then
      takeDigits limit (n * 10 + digitValue c) (taken + 1) cs
    else (n, taken, c :: cs)

/-- The text behind the digits at its front. -/
def dropDigits (cs : List Char) : List Char := cs.dropWhile Char.isDigit

/-- Whether another digit follows. -/
def beginsWithDigit : List Char → Bool
  | [] => false
  | c :: _ => c.isDigit

/-- The double `x · 10 ^ power` for a power below zero. Powers past the range of doubles are divided
    off in steps. -/
def divPow10 (x : Binary64) : (steps power : Nat) → Option Binary64
  | 0, power => do x.div? (← Binary64.pow10? power)
  | steps + 1, power =>
    if power ≤ 308 then do x.div? (← Binary64.pow10? power)
    else if x.isZero then some x
    else do divPow10 (← x.div? (← Binary64.pow10? 308)) steps (power - 308)

/-- The double `significand · 10 ^ power`, rounded once for the significand and once for the
    product; nothing if it is out of range. -/
def double? (significand : Nat) (power : Int) : Option Binary64 := do
  let x ← Binary64.ofNat? significand
  if power < 0 then divPow10 x (power.natAbs / 308) power.natAbs
  else if power ≤ 308 then x.mul? (← Binary64.pow10? power.toNat)
  else if x.isZero then some x
  else none

/-- The numeral of a number that ends here. -/
def finishDouble (neg : Bool) (significand : Nat) (power : Int) (rest : List Char) : Scan Numeral :=
  match double? significand power with
  | some x => .ok (.double neg x, rest)
  | none => .error (.before .numberOutOfRange rest)

/-- The sign of an exponent, and the rest. -/
def exponentSign : List Char → Bool × List Char
  | '+' :: cs => (false, cs)
  | '-' :: cs => (true, cs)
  | cs => (false, cs)

/-- The exponent of a number after its `e`. An exponent past `maxPower` makes zero of a number that
    is zero or has a negative exponent. -/
def scanExponent (neg : Bool) (significand : Nat) (power : Int) (cs : List Char) : Scan Numeral :=
  let (down, cs) := exponentSign cs
  match cs with
  | [] => .error (.before .eofInValue [])
  | c :: rest =>
    if c.isDigit then
      let (n, _, rest) := takeDigits maxPower (digitValue c) 1 rest
      match rest with
      | d :: after =>
        if d.isDigit then
          -- the exponent is past the limit
          if significand ≠ 0 ∧ ¬ down then .error (.before .numberOutOfRange after)
          else .ok (.double neg .zero, dropDigits after)
        else finishDouble neg significand (if down then power - n else power + n) rest
      | [] => finishDouble neg significand (if down then power - n else power + n) rest
    else .error (.upon .invalidNumber (c :: rest))

/-- What may follow the digits of a number that is a double: an exponent. -/
def scanTail (neg : Bool) (significand : Nat) (power : Int) (cs : List Char) : Scan Numeral :=
  match cs with
  | 'e' :: rest => scanExponent neg significand power rest
  | 'E' :: rest => scanExponent neg significand power rest
  | rest => finishDouble neg significand power rest

/-- The decimals of a number after its point. Digits that the significand has no room for count for
    nothing. -/
def scanFraction (neg : Bool) (significand : Nat) (power : Int) (cs : List Char) : Scan Numeral :=
  match cs with
  | [] => .error (.before .eofInValue [])
  | c :: _ =>
    if c.isDigit then
      -- every digit taken is one place behind the point
      let (n, taken, rest) := takeDigits maxNatural significand 0 cs
      scanTail neg n (power - taken) (dropDigits rest)
    else .error (.upon .invalidNumber cs)

/-- A whole number that nothing follows. Zero with a sign, and what is too low for 64 bits, is a
    double. -/
def wholeNumeral (neg : Bool) (n : Nat) (rest : List Char) : Scan Numeral :=
  if ¬ neg then .ok (.natural n, rest)
  else if n ≠ 0 ∧ n ≤ Nat.pow 2 63 then .ok (.negative n, rest)
  else finishDouble neg n 0 rest

/-- What follows the leading digits of a number. -/
def scanAfterWhole (neg : Bool) (n : Nat) (cs : List Char) : Scan Numeral :=
  match cs with
  | '.' :: rest => scanFraction neg n 0 rest
  | 'e' :: rest => scanExponent neg n 0 rest
  | 'E' :: rest => scanExponent neg n 0 rest
  | rest => wholeNumeral neg n rest

/-- A number after its sign. Leading digits beyond `maxNatural` count as a power of ten. -/
def scanNumber (neg : Bool) (cs : List Char) : Scan Numeral :=
  match cs with
  | [] => .error (.before .eofInValue [])
  | '0' :: rest =>
    -- a zero in front is all there is before the point
    if beginsWithDigit rest then .error (.upon .invalidNumber rest) else scanAfterWhole neg 0 rest
  | c :: rest =>
    if c.isDigit then
      let (n, _, rest) := takeDigits maxNatural (digitValue c) 1 rest
      if beginsWithDigit rest then
        -- every digit that was not taken is one place before the point
        let tail := dropDigits rest
        let power := rest.length - tail.length
        match tail with
        | '.' :: tail => scanFraction neg n power tail
        | tail => scanTail neg n power tail
      else scanAfterWhole neg n rest
    else .error (.upon .invalidNumber (c :: rest))

end StackMachine.Json
