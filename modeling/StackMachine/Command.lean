import StackMachine.CommandLine.Reader
import StackMachine.Launch.Basic
import StackMachine.Log.Filter

namespace StackMachine

open Text (Raw)

/-!
# The command

What the command does as a whole: from its words, environment and files to its output, its
diagnostics and its status.

* `Outcome` — the output, the diagnostics and the status.
* `Environment.filterText?` — the log filter in force: that of the first variable that holds UTF-8.
* `Command.start` — the command.
-/

/-- A line of diagnostics: an event of the log that the filter let through, or a text of the
    command's own. -/
inductive Note where
  /-- an event of the log -/
  | event (e : Log.Event)
  | text (s : String)
  deriving DecidableEq, Repr

/-- What a command came to: what it leaves for its caller to see. -/
structure Outcome where
  stdout : List Line
  stderr : List Note
  /-- between 0 and 255 -/
  status : Nat
  /-- the nanoseconds that it spends waiting -/
  elapsed : Nat
  deriving DecidableEq, Repr

/-- Environment variables with their values. -/
abbrev Environment := List (String × Raw)

namespace Environment

/-- The text of a variable, if it is set and its bytes are UTF-8 (`Raw.string?`). A variable that is
    set to other bytes counts as unset. -/
def text? (env : Environment) (name : String) : Option String :=
  match env.find? fun v => v.1 = name with
  | some v => v.2.string?
  | none => none

/-- The variables that may hold the log filter. The first one that does counts, see
    `filterText?`. -/
def filterVariables : List String := ["KOMODO_LOG", "RUST_LOG"]

/-- The text of the log filter in force: the first of the `filterVariables` that has a `text?`. -/
def filterText? (env : Environment) : Option String := filterVariables.findSome? env.text?

end Environment

namespace Command

/-- What the diagnostics show of a log under a filter: the events that `Log.Filter.admits`, and
    nothing without a filter. -/
def notes (filter? : Option Log.Filter) (es : List Log.Event) : List Note :=
  match filter? with
  | some f => (es.filter f.admits).map .event
  | none => []

/-- The diagnostic of a refusal. A failed program and an unreadable file have openings of their
    own. -/
def diagnostic : Refusal → String
  | .unreadable e => "Error: Could not read configuration: " ++ e.message
  | .failed f => "Runtime Error: " ++ f.message
  | r => "Error: " ++ r.message

/-- What is shown if there is nothing to do: no program was named, and no list was asked for. -/
def usage : List String :=
  ["Komodo Runtime v0.1.0",
    "",
    "Usage:",
    "  komodo-run <PROGRAM> [ARGS]...   Run a bundled program",
    "  komodo-run --list                List bundled programs",
    "",
    "Run 'komodo-run --help' for more options."]

/-- Lines are printed, and that is all. -/
def printing (lines : List String) : Outcome := ⟨lines.map .text, [], 0, 0⟩

/-- A refusal after a log. -/
def refusing (log : List Note) (output : List Line) (elapsed : Nat) (r : Refusal) : Outcome :=
  ⟨output, log ++ [.text (diagnostic r)], 1, elapsed⟩

/-- The status of a process that was stopped by a fault of its own. -/
def faultStatus : Nat := 101

/-- The low 8 bits of an exit code, which are all that the system keeps of it. -/
def statusOf (code : Int32) : Nat := (code.toInt % 256).toNat

/-- What a launch comes to, with the log `before` it. An exit is no refusal: its code becomes the
    status by `statusOf`. -/
def ofLaunch (filter? : Option Log.Filter) (before : List Log.Event) : Launch → Outcome
  | .refused r => refusing (notes filter? before) [] 0 r
  | .tooLarge => ⟨[], notes filter? before ++ [.text "capacity overflow"], faultStatus, 0⟩
  | .ran r =>
    let log := notes filter? (before ++ r.events)
    let elapsed := r.machine.elapsed
    match r.result with
    | .ok _ => ⟨r.output, log, 0, elapsed⟩
    | .error (.failed f) => refusing log r.output elapsed (.failed f)
    | .error (.exited code) => ⟨r.output, log, statusOf code, elapsed⟩
    | .error (.argumentMissing count index) =>
      ⟨r.output, log ++ [.text ("index out of bounds: the len is " ++ toString count
        ++ " but the index is " ++ toString index)], faultStatus, elapsed⟩
    | .error .tooDeep => ⟨r.output, log ++ [.text "stack overflow"], faultStatus, elapsed⟩

/-- What a command line comes to. Listing the programs comes before anything else; without a program
    to run, the `usage` is shown, and no configuration is read. -/
def ofCommandLine (filter? : Option Log.Filter) (fs : FileSystem) (cl : CommandLine) : Outcome :=
  if cl.list then printing (Program.bundled.map Program.signature)
  else
    match cl.program with
    | none => printing usage
    | some name =>
      match cl.configure fs with
      | .error r => refusing [] [] 0 r
      | .ok c => ofLaunch filter? (cl.configureEvents fs) (launch c name cl.args)

/-- The command, started with these words in this environment. The words are read by
    `CommandLine.read` before the filter is set up, so a mistake in them is never logged. -/
def start (words : List Raw) (env : Environment) (fs : FileSystem) : Outcome :=
  match CommandLine.read words with
  | .error s =>
    if s.isRequest then ⟨s.writtenLines.map .text, [], s.status, 0⟩
    else ⟨[], s.writtenLines.map .text, s.status, 0⟩
  | .ok cl =>
    let filterText? := env.filterText?
    let complaints := (filterText?.map Log.Filter.complaints).getD []
    let p := ofCommandLine (filterText?.map Log.Filter.read) fs cl
    { p with stderr := complaints.map .text ++ p.stderr }

end Command

end StackMachine
