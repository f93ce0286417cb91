namespace StackMachine.Number

/-!
# Digits

* `readDigits?` — the whole number that a string of decimal digits spells.
* `hexDigit?` — the value of a hexadecimal digit.
-/

/-- The whole number that decimal digits spell. There must be at least one digit and nothing else;
    leading zeros count for nothing. -/
def readDigits? (ds : List Char) : Option Nat :=
  if ds.isEmpty || !ds.all Char.isDigit then none else some (Nat.ofDigitChars 10 ds 0)

/-- The value of a hexadecimal digit. -/
def hexDigit? (c : Char) : Option Nat :=
  if '0' ≤ c ∧ c ≤ '9' then some (c.toNat - '0'.toNat)
  else if 'a' ≤ c ∧ c ≤ 'f' then some (c.toNat - 'a'.toNat + 10)
  else if 'A' ≤ c ∧ c ≤ 'F' then some (c.toNat - 'A'.toNat + 10)
  else none

end StackMachine.Number
