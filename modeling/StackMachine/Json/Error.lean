import StackMachine.Number.Shortest
import StackMachine.Text.Bytes
import StackMachine.Text.Layout

namespace StackMachine.Json

open Number (Binary64)
open Text (byteCount)

/-!
# Errors in JSON texts

Reading stops at the first thing that is wrong. What is wrong is a `Cause`, and where it is is told
by line and column.

* `Cause`, `Cause.category`, `Cause.message` — the causes, in three categories.
* `Stop`, `Stop.locate` — a cause with the number of bytes that were left, and its place in a text.
* `Error` — a cause with its place.
-/

/-- A value that was met where another kind of value is needed, as far as `Found.text` tells about
    it. -/
inductive Found where
  | null
  | boolean (b : Bool)
  | integer (n : Int)
  | double (negative : Bool) (x : Binary64)
  | string (s : String)
  | sequence
  | map
  deriving DecidableEq, Repr

/-- What a message calls a value that was met. -/
def Found.text : Found → String
  | .null => "null"
  | .boolean b => "boolean `" ++ toString b ++ "`"
  | .integer n => "integer `" ++ toString n ++ "`"
  | .double negative x => "floating point `" ++ x.text negative ++ "`"
  | .string s => "string " ++ Text.quote s
  | .sequence => "sequence"
  | .map => "map"

/-- The groups of causes. `Category.eof` is what a text that was cut off is refused with. -/
inductive Category where
  /-- the text ends too early -/
  | eof
  /-- the text is no JSON -/
  | grammar
  /-- the text is JSON but not what is asked for -/
  | data
  deriving DecidableEq, Repr

/-- What is wrong with a text. `Cause.message` tells it, `Cause.category` sorts it. -/
inductive Cause where
  | eofInValue
  | eofInString
  | eofInObject
  | eofInList
  | expectedValue
  | expectedIdent
  | expectedColon
  | expectedCommaOrBrace
  | expectedCommaOrBracket
  | trailingComma
  | trailingCharacters
  | keyNotString
  | invalidNumber
  | numberOutOfRange
  | invalidEscape
  /-- half of a surrogate pair stands alone -/
  | loneSurrogate
  /-- the second half of a surrogate pair is not there -/
  | halfPair
  | controlCharacter
  | wrongType (found : Found) (expected : String)
  | wrongValue (found : Found) (expected : String)
  | unknownField (key : String) (known : List String)
  | duplicateField (key : String)
  | unknownVariant (word : String) (known : List String)
  deriving DecidableEq, Repr

namespace Cause

/-- Names as alternatives, each in backquotes. -/
def alternatives (names : List String) : String :=
  " or ".intercalate (names.map fun n => "`" ++ n ++ "`")

/-- The group of a cause. -/
def category : Cause → Category
  | .eofInValue | .eofInString | .eofInObject | .eofInList => .eof
  | .wrongType .. | .wrongValue .. | .unknownField .. | .duplicateField _ | .unknownVariant .. =>
    .data
  | _ => .grammar

/-- The diagnostic of a cause, without its place. -/
def message : Cause → String
  | .eofInValue => "EOF while parsing a value"
  | .eofInString => "EOF while parsing a string"
  | .eofInObject => "EOF while parsing an object"
  | .eofInList => "EOF while parsing a list"
  | .expectedValue => "expected value"
  | .expectedIdent => "expected ident"
  | .expectedColon => "expected `:`"
  | .expectedCommaOrBrace => "expected `,` or `\x7d`"
  | .expectedCommaOrBracket => "expected `,` or `]`"
  | .trailingComma => "trailing comma"
  | .trailingCharacters => "trailing characters"
  | .keyNotString => "key must be a string"
  | .invalidNumber => "invalid number"
  | .numberOutOfRange => "number out of range"
  | .invalidEscape => "invalid escape"
  | .loneSurrogate => "lone leading surrogate in hex escape"
  | .halfPair => "unexpected end of hex escape"
  | .controlCharacter =>
    "control character (\\u0000-\\u001F) found while parsing a string"
  | .wrongType found expected => "invalid type: " ++ found.text ++ ", expected " ++ expected
  | .wrongValue found expected => "invalid value: " ++ found.text ++ ", expected " ++ expected
  | .unknownField key known => "unknown field `" ++ key ++ "`, expected " ++ alternatives known
  | .duplicateField key => "duplicate field `" ++ key ++ "`"
  | .unknownVariant word known =>
    "unknown variant `" ++ word ++ "`, expected " ++ alternatives known

end Cause

/-! ### Places -/

/-- A cause met with `left` bytes of the text left. Counted from the end, the place is known without
    the text before it; `Stop.locate` turns it around. -/
structure Stop where
  cause : Cause
  left : Nat
  deriving DecidableEq, Repr

namespace Stop

/-- The cause stands right before the rest of the text. -/
def before (cause : Cause) (rest : List Char) : Stop := ⟨cause, byteCount rest⟩

/-- The cause is the next byte, if there is one. -/
def upon (cause : Cause) (rest : List Char) : Stop := ⟨cause, byteCount rest - 1⟩

end Stop

/-- A cause and its place: the line, from 1, and how many bytes of the line come up to it. -/
structure Error where
  cause : Cause
  line : Nat
  column : Nat
  deriving DecidableEq, Repr

/-- Line and column after so many bytes of a text, counted on from a line and a column. A line feed
    begins a line, and columns count bytes. -/
def placeAfter : (bytes : Nat) → List Char → (line column : Nat) → Nat × Nat
  | _, [], line, column => (line, column)
  | bytes, c :: cs, line, column =>
    if bytes < c.utf8Size then (line, column + bytes)
    else if c = '\n' then placeAfter (bytes - c.utf8Size) cs (line + 1) 0
    else placeAfter (bytes - c.utf8Size) cs line (column + c.utf8Size)

/-- The place of a stop in the text that was read. -/
def Stop.locate (text : List Char) (s : Stop) : Error :=
  let (line, column) := placeAfter (byteCount text - s.left) text 1 0
  ⟨s.cause, line, column⟩

namespace Error

/-- The group of an error is that of its cause. -/
def category (e : Error) : Category := e.cause.category

/-- The diagnostic of an error, with its place. -/
def message (e : Error) : String :=
  e.cause.message ++ " at line " ++ toString e.line ++ " column " ++ toString e.column

/-- An error is shown on one line in every layout. -/
def layout (e : Error) : Text.Layout :=
  .word ("Error(" ++ Text.quote e.cause.message ++ ", line: " ++ toString e.line ++ ", column: "
    ++ toString e.column ++ ")")

end Error

end StackMachine.Json
