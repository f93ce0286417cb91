import StackMachine.Config.Basic
import StackMachine.Number.Seconds
import StackMachine.Value

namespace StackMachine.Log

/-!
# Log events

What a run reports about itself while it goes on. An event is a typed record; its severity, the
place it speaks for, its message and its named fields are views of it.

* `Level` — the severities, from `error` to `trace`.
* `Event`, `Event.fields` — the events and their fields in order.
* `Event.line` — one line of a log.
-/

/-- How severe an event is, most severe first. -/
inductive Level where
  | error
  | warn
  | info
  | debug
  | trace
  deriving DecidableEq, Repr

namespace Level

/-- The name of a level on a log line. -/
def name : Level → String
  | .error => "ERROR"
  | .warn => "WARN"
  | .info => "INFO"
  | .debug => "DEBUG"
  | .trace => "TRACE"

/-- The place in the order of severities, from 1 for errors to 5 for traces. A filter lets through
    what is at most of the rank of its limit. -/
def rank : Level → Nat
  | .error => 1
  | .warn => 2
  | .info => 3
  | .debug => 4
  | .trace => 5

/-- The name at the right end of five columns. -/
def column (l : Level) : String := String.ofList (List.replicate (5 - l.name.length) ' ') ++ l.name

end Level

/-- Something a run reports. `Event.level`, `Event.target`, `Event.message` and `Event.fields` are
    views of it. -/
inductive Event where
  /-- the value was pushed; the stack is `depth` deep with it -/
  | pushed (value : Value) (depth : Nat)
  /-- the value was popped; the stack is `depth` deep without it -/
  | popped (value : Value) (depth : Nat)
  /-- a handler bound to `name` is about to run on a stack `depth` deep -/
  | called (name : String) (depth : Nat)
  /-- a syscall of an unbound name was passed over -/
  | ignored (name : String)
  /-- the built-in exit was reached, `elapsed` nanoseconds after the machine was built -/
  | exiting (code : Int64) (elapsed : Nat)
  /-- a program begins with this many arguments -/
  | entered (program : String) (args : Nat)
  /-- a program came back and left the stack `depth` deep -/
  | returned (program : String) (depth : Nat)
  /-- a program reports a number it worked out -/
  | computed (n : Int64)
  /-- a configuration file was read -/
  | configured (path : String) (config : Config)
  deriving DecidableEq, Repr

/-- The text of a field. On a log line a quotable one stands in quotes. -/
inductive Field where
  | plain (text : String)
  | quotable (text : String)
  deriving DecidableEq, Repr

namespace Field

def text : Field → String
  | .plain s => s
  | .quotable s => s

/-- The field as it stands on a log line. -/
def onLine : Field → String
  | .plain s => s
  | .quotable s => Text.quote s

end Field

namespace Event

/-- The severity of an event: the stack is traced, and only what is passed over is worth a
    warning. -/
def level : Event → Level
  | .pushed .. => .trace
  | .popped .. => .trace
  | .called .. => .debug
  | .ignored .. => .warn
  | .exiting .. => .info
  | .entered .. => .debug
  | .returned .. => .debug
  | .computed .. => .debug
  | .configured .. => .debug

/-- The part of the runtime an event speaks for, by which filters select events. -/
def target : Event → String
  | .exiting .. => "interpreter::syscall"
  | .computed .. => "komodo_cli::programs"
  | .configured .. => "komodo_cli::runtime"
  | _ => "interpreter::vm"

def message : Event → String
  | .pushed .. => "push"
  | .popped .. => "pop"
  | .called .. => "syscall"
  | .ignored .. => "ignoring unknown syscall"
  | .exiting .. => "program exit"
  | .entered .. => "entering program"
  | .returned .. => "program returned"
  | .computed .. => "hello computed"
  | .configured .. => "loaded configuration"

/-- The named fields in order; `seconds` shows spans of time. -/
def fields (seconds : Nat → String) : Event → List (String × Field)
  | .pushed v depth => [("value", .plain v.text), ("depth", .plain (toString depth))]
  | .popped v depth => [("value", .plain v.text), ("depth", .plain (toString depth))]
  | .called name depth => [("name", .quotable name), ("depth", .plain (toString depth))]
  | .ignored name => [("name", .quotable name)]
  | .exiting code elapsed =>
    [("code", .plain (toString code.toInt)), ("seconds", .plain (seconds elapsed))]
  | .entered program args => [("program", .quotable program), ("args", .plain (toString args))]
  | .returned program depth => [("program", .quotable program), ("depth", .plain (toString depth))]
  | .computed n => [("local2", .plain (toString n.toInt))]
  | .configured path config => [("path", .plain path), ("config", .plain config.layout.line)]

/-- The names of the fields. The message is one of them. -/
def fieldNames (e : Event) : List String := "message" :: (e.fields fun _ => "").map (·.1)

/-- One line of a log, opened by a time stamp. -/
def line (stamp : String) (seconds : Nat → String) (e : Event) : String :=
  stamp ++ " " ++ e.level.column ++ " " ++ e.target ++ ": " ++ e.message
    ++ String.join ((e.fields seconds).map fun f => " " ++ f.1 ++ "=" ++ f.2.onLine)

end Event

end StackMachine.Log
