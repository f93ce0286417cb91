namespace StackMachine.Text

/-!
# Distances in bytes

Places in a text are told by how many bytes come before them.

* `byteCount cs` — the number of bytes of a text.
* `slice? start stop cs` — the part of a text between two places.
-/

/-- The number of bytes of a text. -/
def byteCount : List Char → Nat
  | [] => 0
  | c :: cs => c.utf8Size + byteCount cs

/-- The text cut in two after this many bytes, unless that is inside a character. A shorter text is
    not cut. -/
def splitBytes? : (bytes : Nat) → List Char → Option (List Char × List Char)
  | 0, cs => some ([], cs)
  | _, [] => some ([], [])
  | bytes, c :: cs =>
    if bytes < c.utf8Size then none
    else (splitBytes? (bytes - c.utf8Size) cs).map fun (before, after) => (c :: before, after)

/-- The part of a text between two places, unless one of them is inside a character. -/
def slice? (start stop : Nat) (cs : List Char) : Option (List Char) := do
  let (before, _) ← splitBytes? stop cs
  let (_, part) ← splitBytes? start before
  return part

end StackMachine.Text
