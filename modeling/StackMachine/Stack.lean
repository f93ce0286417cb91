namespace StackMachine

/-!
# Stacks

* `Stack` — a list of values, its top first, with the number of them at hand.
* `Stack.push`, `Stack.pop?` — the operations, with what they do to the values.
-/

/-- A stack: its `values`, and their number at hand as `depth`, which goes into the trace at every
    push and pop. -/
structure Stack (α : Type) where
  /-- the values, the top first -/
  values : List α
  /-- how many there are -/
  depth : Nat
  depth_eq : depth = values.length := by simp
  deriving DecidableEq

namespace Stack

variable {α : Type}

/-- A stack is known by its `values`, since `depth` counts them. -/
@[ext] theorem ext {s t : Stack α} (h : s.values = t.values) : s = t := by
  obtain ⟨vs, n, hn⟩ := s
  obtain ⟨ws, m, hm⟩ := t
  obtain rfl : vs = ws := h
  rw [← hm] at hn
  subst hn
  rfl

/-- The stack of a list of values, the first of them on top. -/
def ofList (vs : List α) : Stack α := ⟨vs, vs.length, rfl⟩

/-- The stack without values. -/
def empty : Stack α := ⟨[], 0, rfl⟩

def isEmpty (s : Stack α) : Bool := s.values.isEmpty

/-- The value on top, if there is one. -/
def top? (s : Stack α) : Option α := s.values.head?

/-- Put a value on top. -/
def push (v : α) (s : Stack α) : Stack α :=
  ⟨v :: s.values, s.depth + 1, by simp [s.depth_eq]⟩

/-- The value on top and the stack below it, or `none` if the stack is empty. -/
def pop? (s : Stack α) : Option (α × Stack α) :=
  match s with
  | ⟨[], _, _⟩ => none
  | ⟨v :: vs, depth, h⟩ => some (v, ⟨vs, depth - 1, by simp [h]⟩)

/-- Unfolding lemma: `ofList` keeps the values. -/
@[simp] theorem values_ofList (vs : List α) : (ofList vs).values = vs := rfl

/-- Unfolding lemma: `empty` has no values. -/
@[simp] theorem values_empty : (empty : Stack α).values = [] := rfl

/-- Unfolding lemma: `push` adds its value at the front. -/
@[simp] theorem values_push (v : α) (s : Stack α) : (s.push v).values = v :: s.values := rfl

/-- Unfolding lemma: there is nothing to pop from `empty`. -/
@[simp] theorem pop?_empty : (empty : Stack α).pop? = none := rfl

/-- A pop takes the first of the values of `ofList`. -/
theorem pop?_ofList_cons (v : α) (vs : List α) :
    (ofList (v :: vs)).pop? = some (v, ofList vs) := rfl

end Stack

end StackMachine
