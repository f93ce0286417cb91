import StackMachine.Text.Layout

namespace StackMachine

open Text (Layout)

/-!
# Values

A value is a signed 64-bit integer or a truth value. Compiled code keeps its locals in native
carriers (`Int64`, `Bool`) and meets `Value` only where something crosses the evaluation stack
or comes in as an argument.

* `Kind`, `Kind.Carrier` — the two kinds and the native type behind each.
* `Value.get k v` — `v` read as kind `k`, which fails with a `KindMismatch` on the other kind.
* `layout` functions — the shape under which each type is shown.
-/

/-! ### Kinds -/

/-- The two kinds of value. -/
inductive Kind where
  | i64
  | bool
  deriving DecidableEq, Repr

namespace Kind

/-- Every kind, in the order of declaration. -/
def all : List Kind := [.i64, .bool]

/-- The name a kind goes by in signatures and messages. -/
def name : Kind → String
  | .i64 => "I64"
  | .bool => "Bool"

/-- The native type of the payload of a value of this kind. -/
def Carrier : Kind → Type
  | .i64 => Int64
  | .bool => Bool

def layout (k : Kind) : Layout := .word k.name

/-- No kind is missing from `Kind.all`. -/
theorem mem_all (k : Kind) : k ∈ all := by cases k <;> simp [all]

/-- Different kinds have different names. -/
theorem name_inj {k l : Kind} : k.name = l.name ↔ k = l := by
  cases k <;> cases l <;> simp [name]

end Kind

/-! ### Values -/

/-- A value on the evaluation stack or in an argument list. -/
inductive Value where
  | i64 (n : Int64)
  | bool (b : Bool)
  deriving DecidableEq, Repr

/-- The failure of reading a value of kind `actual` as one of kind `expected`. -/
structure KindMismatch where
  expected : Kind
  actual : Kind
  deriving DecidableEq, Repr

/-- The one-sentence diagnostic of a mismatch. -/
def KindMismatch.message (e : KindMismatch) : String :=
  "Unable to dereference value to " ++ e.expected.name ++ ". It is a " ++ e.actual.name ++ "."

def KindMismatch.layout (e : KindMismatch) : Layout :=
  .record "ValueDerefError" [("expected", e.expected.layout), ("actual", e.actual.layout)] false

namespace Value

def kind : Value → Kind
  | .i64 _ => .i64
  | .bool _ => .bool

/-- The value of kind `k` with the given payload, the inverse of `Value.get k`. -/
def of : (k : Kind) → k.Carrier → Value
  | .i64, n => .i64 n
  | .bool, b => .bool b

/-- The payload of `v` as kind `k`. The other kind is never reinterpreted. -/
def get : (k : Kind) → (v : Value) → Except KindMismatch k.Carrier
  | .i64, .i64 n => .ok n
  | .bool, .bool b => .ok b
  | k, v => .error ⟨k, v.kind⟩

/-- The payload in its canonical spelling: decimal digits, or `true` and `false`. -/
def payloadText : Value → String
  | .i64 n => toString n.toInt
  | .bool b => toString b

/-- A value with its kind: the kind's name and the payload in parentheses. -/
def text (v : Value) : String := v.kind.name ++ "(" ++ v.payloadText ++ ")"

def layout (v : Value) : Layout := .apply v.kind.name [.word v.payloadText]

/-- Reading `Value.of k a` as kind `k` gives back the payload. -/
@[simp] theorem get_of (k : Kind) (a : k.Carrier) : (of k a).get k = .ok a := by
  cases k <;> rfl

/-- Reading as another kind fails, and the failure tells both kinds. -/
theorem get_eq_error {k : Kind} {v : Value} (h : v.kind ≠ k) : v.get k = .error ⟨k, v.kind⟩ := by
  cases k <;> cases v <;> simp_all [get, kind]

/-- Every value of kind `k` is `Value.of k` of some payload. -/
theorem exists_of_kind {k : Kind} {v : Value} (h : v.kind = k) : ∃ a, v = of k a := by
  subst h
  cases v <;> exact ⟨_, rfl⟩

end Value

end StackMachine
