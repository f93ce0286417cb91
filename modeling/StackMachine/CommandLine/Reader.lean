import StackMachine.CommandLine.Basic

namespace StackMachine.CommandLine

open Text (Glyph Raw)

/-!
# Reading command lines

Words are read from left to right. An option is read at once, but a plain word (the value of
`--config`, the program, its arguments) is kept back until an option, a word for something else or
the end comes, and only then looked at. So a mistake in an option that comes next can be reported
before a mistake in the word.

* `Reading` — what was read so far, and the words kept back.
* `Reading.settle` — look at the words kept back.
* `Reading.take` — one word; `read` — a whole command line.
-/

/-- Words that were read but not looked at. `Reading.settle` looks at them, and until then a mistake
    in them is not known. -/
inductive Pending where
  | nothing
  /-- the option `--config` without its value, or with a word of its own as value -/
  | config (value : Option Raw)
  | program (word : Raw)
  | args (words : List Raw)
  deriving DecidableEq, Repr

/-- A command line that is being read: the `line` so far, and the words that are `pending`. -/
structure Reading where
  line : CommandLine := {}
  pending : Pending := .nothing
  deriving DecidableEq, Repr

namespace Reading

/-- A word that has to be UTF-8. -/
def decode (word : Raw) : Except Stop String :=
  match word.string? with
  | some s => .ok s
  | none => .error .notUtf8

/-- Set the path of the configuration file. That it was set before is reported before that it is
    empty. -/
def setConfig (line : CommandLine) (value : Raw) : Except Stop CommandLine :=
  if line.config.isSome then .error (.repeated .config)
  else if value = [] then .error .missingValue
  else .ok { line with config := some value }

/-- Look at the words kept back, and put them in the line. Every mistake in a plain word is found
    here. -/
def settle (r : Reading) : Except Stop CommandLine :=
  match r.pending with
  | .nothing => .ok r.line
  | .config none => .error .missingValue
  | .config (some value) => setConfig r.line value
  | .program word => do return { r.line with program := some (← decode word) }
  | .args words => do return { r.line with args := r.line.args ++ (← words.mapM decode) }

/-- An option without a value of its own. For `--config` the value is still to come. -/
def setSwitch (line : CommandLine) : Switch → Except Stop Reading
  | .config => .ok { line, pending := .config none }
  | .legacy =>
    if line.legacy then .error (.repeated .legacy)
    else .ok { line := { line with legacy := true } }
  | .list =>
    if line.list then .error (.repeated .list)
    else .ok { line := { line with list := true } }
  | .help => .error .help
  | .version => .error .version

/-- An option with a value attached. A value that is not needed is reported before anything else, so
    before `settle`. -/
def attach (r : Reading) (value : Raw) : Switch → Except Stop Reading
  | .config => do return { line := ← setConfig (← r.settle) value }
  | o => .error (.unneededValue value.lossy o)

/-- An option alone, once the words kept back are settled. -/
def switch (r : Reading) (o : Switch) : Except Stop Reading := do setSwitch (← r.settle) o

/-- The letters after a single dash, one option each. `-c` takes what is left of the word as its
    value. -/
def letters (r : Reading) : Raw → Except Stop Reading
  | [] => .ok r
  | .stray bytes :: gs => .error (.unknownArgument ("-" ++ Raw.lossy (.stray bytes :: gs)))
  | .char c :: gs =>
    match Switch.ofLetter? c with
    | none => .error (.unknownArgument ("-" ++ String.singleton c))
    | some .config =>
      -- what follows the letter is the value, with or without an equals sign
      match gs with
      | [] => r.switch .config
      | .char '=' :: value => r.attach value .config
      | value => r.attach value .config
    | some o => do (← r.switch o).letters gs

/-- A word after two dashes: a name, and a value after the first equals sign. -/
def longOption (r : Reading) (word : Raw) : Except Stop Reading :=
  let name : Raw := word.takeWhile (· ≠ .char '=')
  match name.string?.bind Switch.ofLong?, word.dropWhile (· ≠ .char '=') with
  | none, _ => .error (.unknownArgument ("--" ++ name.lossy))
  | some o, [] => r.switch o
  | some o, _ :: value => r.attach value o

/-- Whether a program was named, be it settled or still pending. -/
def hasProgram (r : Reading) : Bool :=
  match r.pending with
  | .program _ => true
  | _ => r.line.program.isSome

/-- A plain word: the value of `--config` if that waits for one, or else the program, or else an
    argument. -/
def word (r : Reading) (w : Raw) : Except Stop Reading :=
  match r.pending with
  | .config none => .ok { r with pending := .config (some w) }
  | .args ws => .ok { r with pending := .args (ws ++ [w]) }
  | _ => do
    let line ← r.settle
    return { line, pending := if line.program.isNone then .program w else .args [w] }

end Reading

/-! ### Negative numbers -/

/-- Whether characters are digits with at most one point after the first and at most one exponent
    without sign after all. -/
def isNumber (cs : List Char) : Bool :=
  match cs.dropWhile Char.isDigit with
  | [] => true
  | c :: rest =>
    let tail := if c = '.' then rest.dropWhile Char.isDigit else c :: rest
    (cs.head?.any Char.isDigit) &&
      match tail with
      | [] => true
      | e :: power => (e = 'e' || e = 'E') && !power.isEmpty && power.all Char.isDigit

/-- Whether the letters after a dash make a number, so that the word need not be an option. -/
def isNegativeNumber (letters : Raw) : Bool :=
  match letters.string? with
  | some s => isNumber s.toList
  | none => false

/-! ### Words -/

/-- One word before any `separator`. Once a program is named (`hasProgram`), a negative number is a
    plain word. -/
def Reading.take (r : Reading) (w : Raw) : Except Stop Reading :=
  match w with
  | .char '-' :: .char '-' :: name => r.longOption name
  | .char '-' :: g :: gs =>
    if r.hasProgram && isNegativeNumber (g :: gs) then r.word w else r.letters (g :: gs)
  | w => r.word w

/-- The word after which all words are plain. -/
def separator : Raw := Raw.ofString "--"

/-- The rest of a command line. Behind the `separator` every word is plain. -/
def Reading.finish (r : Reading) : List Raw → Except Stop CommandLine
  | [] => r.settle
  | w :: ws =>
    if w = separator then do
      let r ← ws.foldlM Reading.word { line := ← r.settle }
      r.settle
    else do (← r.take w).finish ws

/-- A command line, without the name of the command. -/
def read (words : List Raw) : Except Stop CommandLine := ({} : Reading).finish words

end StackMachine.CommandLine
