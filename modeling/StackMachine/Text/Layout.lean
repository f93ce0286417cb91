import StackMachine.Text.Quoted

namespace StackMachine.Text

/-!
# Layouts

The shape under which structured data is shown, apart from the line breaks: a `Layout` is printed
on one line by `Layout.line`, and with one item a line by `Layout.block`.

* `Layout` — a word, a record with named fields, a constructor with arguments, a list, a set.
* `Layout.line`, `Layout.block` — the two printers. Both drop nothing: they differ in white space
  and in the comma after the last item.
-/

/-- Structured data ready to be shown. -/
inductive Layout where
  /-- text shown as it is -/
  | word (text : String)
  /-- fields as in `name { field: value, … }`; an open record ends in `..`, for what is not shown -/
  | record (name : String) (fields : List (String × Layout)) (isOpen : Bool)
  /-- arguments as in `name(value, …)` -/
  | apply (name : String) (args : List Layout)
  /-- items as in `[item, …]` -/
  | list (items : List Layout)
  /-- items as in `{item, …}` -/
  | set (items : List Layout)

namespace Layout

/-- A text in quotes. -/
def quoted (s : String) : Layout := .word (quote s)

/-- A number in decimal digits. -/
def number (n : Nat) : Layout := .word (toString n)

/-! ### On one line -/

mutual

/-- The layout on one line. -/
def line : Layout → String
  | .word text => text
  | .record name fields isOpen =>
    name ++ " \x7b "
      ++ ", ".intercalate (lineFields fields ++ if isOpen then [".."] else []) ++ " \x7d"
  | .apply name args => name ++ "(" ++ ", ".intercalate (lines args) ++ ")"
  | .list items => "[" ++ ", ".intercalate (lines items) ++ "]"
  | .set items => "\x7b" ++ ", ".intercalate (lines items) ++ "\x7d"

def lines : List Layout → List String
  | [] => []
  | l :: ls => l.line :: lines ls

def lineFields : List (String × Layout) → List String
  | [] => []
  | (name, l) :: fs => (name ++ ": " ++ l.line) :: lineFields fs

end

/-! ### One item a line -/

/-- The white space at the start of a line of the given nesting: four spaces a level. -/
def indent (depth : Nat) : String := String.ofList (List.replicate (4 * depth) ' ')

/-- Items one a line between two brackets, or nothing between them if there are none. -/
def bracket (opening closing : String) (depth : Nat) (items : List String) : String :=
  if items.isEmpty then opening ++ closing
  else opening ++ "\n" ++ String.join (items.map fun i => indent (depth + 1) ++ i ++ "\n")
    ++ indent depth ++ closing

mutual

/-- The layout with one item a line, standing `depth` levels deep. -/
def blockAt (depth : Nat) : Layout → String
  | .word text => text
  | .record name fields isOpen =>
    name ++ " " ++ bracket "\x7b" "\x7d" depth
      (blockFields (depth + 1) fields ++ if isOpen then [".."] else [])
  | .apply name args => name ++ bracket "(" ")" depth (blocks (depth + 1) args)
  | .list items => bracket "[" "]" depth (blocks (depth + 1) items)
  | .set items => bracket "\x7b" "\x7d" depth (blocks (depth + 1) items)

def blocks (depth : Nat) : List Layout → List String
  | [] => []
  | l :: ls => (l.blockAt depth ++ ",") :: blocks depth ls

def blockFields (depth : Nat) : List (String × Layout) → List String
  | [] => []
  | (name, l) :: fs => (name ++ ": " ++ l.blockAt depth ++ ",") :: blockFields depth fs

end

/-- The layout with one item a line, from the margin. -/
def block (l : Layout) : String := l.blockAt 0

end Layout

end StackMachine.Text
