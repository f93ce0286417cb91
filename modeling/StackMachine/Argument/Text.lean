import StackMachine.Number.Digits
import StackMachine.Value

namespace StackMachine

open Number (readDigits?)

/-!
# Argument texts

* `readInt64?` — an optional sign and decimal digits, in the range of 64 bits.
* `Value.read? k t` — the value of kind `k` that a text spells.
-/

/-- The integer that a text spells: at most one sign, at least one digit (`readDigits?`), nothing
    else. -/
def readInt? : List Char → Option Int
  | '+' :: ds => (readDigits? ds).map Int.ofNat
  | '-' :: ds => (readDigits? ds).map fun n => -Int.ofNat n
  | ds => (readDigits? ds).map Int.ofNat

/-- Whether an integer fits in 64 bits, so that `Int64.ofInt` keeps it. -/
def fitsInt64 (n : Int) : Bool := Int64.minValue.toInt ≤ n && n ≤ Int64.maxValue.toInt

/-- The 64-bit integer that a text spells. A number out of range is refused; it does not wrap
    around. -/
def readInt64? (t : String) : Option Int64 :=
  match readInt? t.toList with
  | some n => if fitsInt64 n then some (.ofInt n) else none
  | none => none

/-- The value of kind `k` that a text spells, and none if it spells none. The words of `Kind.bool`
    have no other spelling. -/
def Value.read? (k : Kind) (t : String) : Option Value :=
  match k with
  | .i64 => (readInt64? t).map .i64
  | .bool =>
    if t = "true" then some (.bool true)
    else if t = "false" then some (.bool false)
    else none

end StackMachine
