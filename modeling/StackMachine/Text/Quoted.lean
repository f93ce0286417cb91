import StackMachine.Text.Unprintable

namespace StackMachine.Text

/-!
# Quoted text

A text in double quotes, written so that one line shows every character: the quote and the
backslash carry a backslash, the common controls have their letters, and any other character
without a mark of its own is `\u{…}` with its code point in hexadecimal.

* `escape c` — how one character is written between the quotes.
* `quote s` — the quoted form of a text.
-/

/-- The escape letter of a character that has one. -/
def escapeLetter? (c : Char) : Option Char :=
  if c = '"' then some '"'
  else if c = '\\' then some '\\'
  else if c = '\n' then some 'n'
  else if c = '\r' then some 'r'
  else if c = '\t' then some 't'
  else if c = '\x00' then some '0'
  else none

/-- One character as it stands between the quotes. Only `isUnprintable` characters without a letter
    are spelled out. -/
def escape (c : Char) : List Char :=
  match escapeLetter? c with
  | some l => ['\\', l]
  | none =>
    if isUnprintable c then
      '\\' :: 'u' :: '{' :: Nat.toDigits 16 c.toNat ++ ['}']
    else [c]

/-- The text between double quotes. -/
def quote (s : String) : String :=
  String.ofList ('"' :: s.toList.flatMap escape ++ ['"'])

end StackMachine.Text
