namespace StackMachine.Number

/-!
# Double precision numbers

A finite double is `± m · 2 ^ e` with `m` below `2 ^ 53` and `e` at least `-1074`. Here it is kept
as that product, so all arithmetic is on whole numbers and exact up to the one rounding that each
operation has.

* `Binary64`, `Binary64.ofQuotient?` — doubles, and the one nearest to a quotient.
* `Binary64.mul?`, `Binary64.div?` — product and quotient, each rounded once.
* `Binary64.pow10?` — the double nearest to a power of ten.
-/

/-- The whole number nearest to `p / q`; halfway between two it is the even one. -/
def nearest (p q : Nat) : Nat :=
  let d := p / q
  let r := p % q
  if q < 2 * r then d + 1
  else if q = 2 * r then d + d % 2
  else d

/-- A finite double without its sign: `mantissa · 2 ^ exponent`. -/
structure Binary64 where
  mantissa : Nat
  exponent : Int
  deriving DecidableEq, Repr

namespace Binary64

/-- The exponent of the smallest doubles. -/
def minExponent : Int := -1074

/-- The exponent of the largest doubles. -/
def maxExponent : Int := 971

def zero : Binary64 := ⟨0, minExponent⟩

/-- Whether a double is zero. There is one zero only, as signs are kept elsewhere. -/
def isZero (x : Binary64) : Bool := x.mantissa = 0

/-- The quotient `p / q · 2 ^ (-e)` as a pair of numerator and denominator. -/
def scaled (p q : Nat) (e : Int) : Nat × Nat := (p * Nat.pow 2 (-e).toNat, q * Nat.pow 2 e.toNat)

/-- The double nearest to `p / q`, or nothing if that is past the largest one. -/
def ofQuotient? (p q : Nat) : Option Binary64 :=
  if p = 0 then some zero
  else
    let guess : Int := (p.log2 : Int) - q.log2 - 52
    -- the guess is right or one too high
    let (a, b) := scaled p q guess
    let e := max minExponent (if a / b < Nat.pow 2 52 then guess - 1 else guess)
    let (a, b) := scaled p q e
    let m := nearest a b
    -- rounding up can carry into the next power of two
    let x : Binary64 := if m = Nat.pow 2 53 then ⟨Nat.pow 2 52, e + 1⟩ else ⟨m, e⟩
    if maxExponent < x.exponent then none else some x

/-- The numerator and the denominator of the exact value. -/
def quotient (x : Binary64) : Nat × Nat :=
  (x.mantissa * Nat.pow 2 x.exponent.toNat, Nat.pow 2 (-x.exponent).toNat)

/-- The double nearest to a whole number. -/
def ofNat? (n : Nat) : Option Binary64 := ofQuotient? n 1

/-- The double nearest to `10 ^ n`. -/
def pow10? (n : Nat) : Option Binary64 := ofQuotient? (Nat.pow 10 n) 1

/-- The double nearest to a product. -/
def mul? (x y : Binary64) : Option Binary64 :=
  let (a, b) := x.quotient
  let (c, d) := y.quotient
  ofQuotient? (a * c) (b * d)

/-- The double nearest to a quotient. -/
def div? (x y : Binary64) : Option Binary64 :=
  let (a, b) := x.quotient
  let (c, d) := y.quotient
  ofQuotient? (a * d) (b * c)

end Binary64

end StackMachine.Number
