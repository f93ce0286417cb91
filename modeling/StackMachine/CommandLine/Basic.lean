import StackMachine.Text.Plain
import StackMachine.Text.Raw

namespace StackMachine

open Text (Raw plain written)

/-!
# Command lines

* `CommandLine` — what a command line asks for.
* `CommandLine.Switch` — the options, with their spellings.
* `CommandLine.Stop`, `Stop.lines`, `Stop.status` — why reading a command line ends with a text to
  show instead: a request for it, or a mistake.
* `Stop.writtenLines` — what a process writes of that text.
-/

/-- What a command line asks for. -/
structure CommandLine where
  program : Option String := none
  args : List String := []
  /-- the path of a configuration file -/
  config : Option Raw := none
  /-- whether unknown syscalls are to be passed over -/
  legacy : Bool := false
  /-- whether the bundled programs are to be listed -/
  list : Bool := false
  deriving DecidableEq, Repr

namespace CommandLine

/-- The options of a command line, see `Switch.long` and `Switch.letter?` for their spellings. -/
inductive Switch where
  | config
  | legacy
  | list
  | help
  | version
  deriving DecidableEq, Repr

namespace Switch

/-- The long name, without its dashes. -/
def long : Switch → String
  | .config => "config"
  | .legacy => "legacy-syscalls"
  | .list => "list"
  | .help => "help"
  | .version => "version"

/-- The letter, for the options that have one. -/
def letter? : Switch → Option Char
  | .config => some 'c'
  | .legacy => none
  | .list => some 'l'
  | .help => some 'h'
  | .version => some 'V'

/-- Every option, in the order in which `ofLong?` and `ofLetter?` look through them. -/
def all : List Switch := [.config, .legacy, .list, .help, .version]

/-- The option of a long name. Only whole names count: an option cannot be shortened. -/
def ofLong? (name : String) : Option Switch := all.find? fun o => o.long = name

/-- The option of a letter. -/
def ofLetter? (c : Char) : Option Switch := all.find? fun o => o.letter? = some c

/-- The option as it is named in messages, with the value that it takes. -/
def shown : Switch → String
  | .config => "--config <FILE>"
  | o => "--" ++ o.long

end Switch

/-- Why reading a command line ends with a text to show: a request for one (`Stop.isRequest`) or a
    mistake. -/
inductive Stop where
  | help
  | version
  /-- a word looks like an option and is none -/
  | unknownArgument (shown : String)
  /-- an option that takes no value has one -/
  | unneededValue (value : String) (option : Switch)
  /-- the path of the configuration file is missing or empty -/
  | missingValue
  | repeated (option : Switch)
  /-- the program's name or an argument is not UTF-8 -/
  | notUtf8
  deriving DecidableEq, Repr

/-- The lines that explain the command line. -/
def helpLines : List String :=
  ["Run a bundled Komodo program",
    "",
    "Usage: komodo-run [OPTIONS] [PROGRAM] [ARGS]...",
    "",
    "Arguments:",
    "  [PROGRAM]  Name of the bundled program to run",
    "  [ARGS]...  Arguments passed to the program's entry point",
    "",
    "Options:",
    "  -c, --config <FILE>    JSON runtime configuration file",
    "      --legacy-syscalls  Treat unknown syscalls as no-ops",
    "  -l, --list             List bundled programs and exit",
    "  -h, --help             Print help",
    "  -V, --version          Print version"]

def versionLines : List String := ["komodo-run 0.1.0"]

/-- Lines as a text, each with its line break. -/
def unlines (ls : List String) : String := String.join (ls.map (· ++ "\n"))

/-- Characters up to a line break: a line feed, or a carriage return and a line feed. -/
def untilBreak : List Char → List Char
  | [] => []
  | '\n' :: _ => []
  | '\r' :: '\n' :: _ => []
  | c :: cs => c :: untilBreak cs

/-- The part of a text before its first line break. -/
def firstLine (s : String) : String := String.ofList (untilBreak s.toList)

namespace Stop

/-- The lines to show. Of the explanation of a mistake it is the first one, in which `clean` makes
    words of the command line plain text. -/
def linesBy (clean : String → String) : Stop → List String
  | .help => helpLines
  | .version => versionLines
  | .unknownArgument shown =>
    [firstLine ("error: unexpected argument '" ++ clean shown ++ "' found")]
  | .unneededValue value option =>
    [firstLine ("error: unexpected value '" ++ clean value ++ "' for '" ++ option.shown
      ++ "' found; no more were expected")]
  | .missingValue =>
    ["error: a value is required for '" ++ Switch.shown .config ++ "' but none was supplied"]
  | .repeated option =>
    ["error: the argument '" ++ option.shown ++ "' cannot be used multiple times"]
  | .notUtf8 => ["error: invalid UTF-8 was detected in one or more arguments"]

/-- The lines of the text to show, with words made `plain`. -/
def lines (s : Stop) : List String := s.linesBy plain

/-- The lines that are written where there is no terminal, with words as `written`. -/
def writtenLines (s : Stop) : List String := s.linesBy written

/-- Whether the text was asked for. -/
def isRequest : Stop → Bool
  | .help => true
  | .version => true
  | _ => false

/-- The text to show. What was asked for ends in a line break. -/
def message (s : Stop) : String :=
  if s.isRequest then unlines s.lines else "\n".intercalate s.lines

/-- The status that the process ends with: 0 for a request, 2 for a mistake. -/
def status (s : Stop) : Nat := if s.isRequest then 0 else 2

end Stop

end CommandLine

end StackMachine
