import StackMachine.Config.Basic

namespace StackMachine

/-!
# Writing configurations

* `Policy.json`, `Config.json` — the texts on one line and without white space.
* `Config.jsonPretty` — one field a line.
-/

/-- A policy as a JSON text. -/
def Policy.json (p : Policy) : String := "\"" ++ p.word ++ "\""

namespace Config

/-- The fields in order: key, colon and value. `colon` is what the two writers differ in, apart from
    what stands between the fields. -/
def members (colon : String) (c : Config) : List String :=
  ["\"" ++ policyKey ++ "\"" ++ colon ++ c.unknownSyscall.json,
    "\"" ++ capacityKey ++ "\"" ++ colon ++ toString c.stackCapacity.toNat]

/-- A configuration as a JSON text without white space. -/
def json (c : Config) : String := "\x7b" ++ ",".intercalate (c.members ":") ++ "\x7d"

/-- A configuration as a JSON text with one field a line, two spaces in. -/
def jsonPretty (c : Config) : String :=
  "\x7b\n  " ++ ",\n  ".intercalate (c.members ": ") ++ "\n\x7d"

end Config

end StackMachine
