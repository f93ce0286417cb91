namespace StackMachine.Number

/-!
# Spans of time

Time is counted in nanoseconds and shown in seconds.

* `secondsText n` — `n` nanoseconds as a decimal number of seconds, without trailing zeros.
-/

def nanosPerSecond : Nat := 1000000000

def nanosPerMilli : Nat := 1000000

/-- The digits of `n`, with zeros in front up to the given width. -/
def paddedDigits (width n : Nat) : List Char :=
  let ds := Nat.toDigits 10 n
  List.replicate (width - ds.length) '0' ++ ds

/-- A digit string without the zeros at its end. -/
def dropTrailingZeros (ds : List Char) : List Char :=
  (ds.reverse.dropWhile (· = '0')).reverse

/-- A number of nanoseconds in seconds: the whole part, and the decimals that are needed. -/
def secondsText (nanos : Nat) : String :=
  let decimals := dropTrailingZeros (paddedDigits 9 (nanos % nanosPerSecond))
  toString (nanos / nanosPerSecond)
    ++ if decimals.isEmpty then "" else "." ++ String.ofList decimals

/-- Milliseconds in nanoseconds. -/
def nanosOfMillis (ms : Nat) : Nat := ms * nanosPerMilli

end StackMachine.Number
