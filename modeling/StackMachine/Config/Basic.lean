import StackMachine.Text.Layout

namespace StackMachine

open Text (Layout)

/-!
# Configuration of a machine

* `Policy` — what becomes of a syscall whose name has no handler.
* `Config` — the policy and the number of stack slots set aside at the start.
-/

/-- What becomes of a syscall that no handler has the name of. -/
inductive Policy where
  /-- the call fails -/
  | reject
  /-- the call does nothing -/
  | ignore
  deriving DecidableEq, Repr

namespace Policy

/-- The spelling of a policy in configuration texts. -/
def word : Policy → String
  | .reject => "reject"
  | .ignore => "ignore"

def layout : Policy → Layout
  | .reject => .word "Reject"
  | .ignore => .word "Ignore"

/-- The policy of a spelling, if it is the `word` of one. -/
def ofWord? (s : String) : Option Policy :=
  if s = word .reject then some .reject
  else if s = word .ignore then some .ignore
  else none

/-- The spelling of a policy is read as that policy. -/
@[simp] theorem ofWord?_word (p : Policy) : ofWord? p.word = some p := by
  cases p <;> simp [ofWord?, word]

end Policy

/-- How a machine is set up: by default unknown names are rejected and 64 slots set aside. -/
structure Config where
  unknownSyscall : Policy := .reject
  stackCapacity : UInt64 := 64
  deriving DecidableEq, Repr, Inhabited

namespace Config

/-- The slots a stack can have at most: one slot takes 16 bytes of an address space of 2 ^ 63. -/
def slotLimit : UInt64 := (1 : UInt64) <<< 59

/-- Whether the configured slots can be set aside at all, that is, are fewer than `slotLimit`. -/
def fits (c : Config) : Bool := c.stackCapacity < slotLimit

/-- The names of the fields in configuration texts and listings. -/
def policyKey : String := "unknown_syscall"

@[inherit_doc policyKey]
def capacityKey : String := "initial_stack_capacity"

def layout (c : Config) : Layout :=
  .record "RuntimeConfig"
    [(policyKey, c.unknownSyscall.layout), (capacityKey, .number c.stackCapacity.toNat)] false

end Config

end StackMachine
