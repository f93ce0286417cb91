namespace StackMachine.Number

/-!
# Numerals

* `isNumeral cs` — whether `cs` is a decimal numeral, which may have places and an exponent.
-/

/-- The digits of an exponent, which may have a sign. -/
def exponentDigits : List Char → List Char
  | '+' :: ds => ds
  | '-' :: ds => ds
  | ds => ds

/-- Whether a text is an exponent or nothing. -/
def isExponent : List Char → Bool
  | [] => true
  | e :: cs =>
    let ds := exponentDigits cs
    (e = 'e' || e = 'E') && !ds.isEmpty && ds.all Char.isDigit

/-- The text behind the point of a numeral, and the text itself if there is no point. -/
def afterPoint : List Char → List Char
  | '.' :: cs => cs
  | cs => cs

/-- The places of a numeral, if this is what comes behind its whole digits. -/
def placesOf : List Char → List Char
  | '.' :: cs => cs.takeWhile Char.isDigit
  | _ => []

/-- The words for what is no finite number. -/
def endlessWords : List String := ["inf", "infinity", "nan"]

/-- Whether a text is a decimal numeral without a sign, or a word for what is no finite number. -/
def isNumeral (cs : List Char) : Bool :=
  let rest := cs.dropWhile Char.isDigit
  let digits := cs.takeWhile Char.isDigit ++ placesOf rest
  endlessWords.contains (String.ofList (cs.map Char.toLower))
    || (!digits.isEmpty && isExponent ((afterPoint rest).drop (placesOf rest).length))

end StackMachine.Number
