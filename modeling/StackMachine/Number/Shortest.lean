import StackMachine.Number.Binary64

namespace StackMachine.Number

/-!
# Shortest decimals

The text of a double has the fewest digits that read back as the same double, and of those the
ones nearest to it.

* `Binary64.shortest` — those digits, with the power of ten of the last one.
* `Binary64.text` — the text: positional from `1e-5` to below `1e16`, with an exponent otherwise.
-/

namespace Binary64

/-- The place of the leading decimal digit of `p / q`: `10 ^ place ≤ p / q < 10 ^ (place + 1)`. -/
def leadingPlace (p q : Nat) : Int :=
  if q ≤ p then (Nat.toDigits 10 (p / q)).length - 1
  else -(Nat.toDigits 10 ((q - 1) / p)).length

/-- Whether the decimal `n` lies so near to `x` that reading it gives `x` back. Both `n` and
    `x = p / q` are counted in the same unit. -/
def readsBack (x : Binary64) (p q n : Nat) : Bool :=
  let gap := if n * q ≤ p then p - n * q else n * q - p
  -- below a power of two the next double is only half as far away
  let parts :=
    if n * q < p && x.mantissa = Nat.pow 2 52 && minExponent < x.exponent then 4 else 2
  if x.mantissa % 2 = 0 then gap * (parts * x.mantissa) ≤ p else gap * (parts * x.mantissa) < p

/-- Of the two neighbours of `x` among the multiples of `10 ^ k`, the nearer one that reads back; of
    two equally near ones the even multiple. -/
def onGrid (x : Binary64) (k : Int) : Option Nat :=
  let (p, q) := x.quotient
  let p := p * Nat.pow 10 (-k).toNat
  let q := q * Nat.pow 10 k.toNat
  let low := p / q
  match x.readsBack p q low, x.readsBack p q (low + 1) with
  | true, true => some (nearest p q)
  | true, false => some low
  | false, true => some (low + 1)
  | false, false => none

/-- The first grid with a hit among those of `digits` and more digits. -/
def firstGrid (x : Binary64) (place : Int) : (digits tries : Nat) → Nat × Int
  | digits, 0 => (0, place - digits)
  | digits, tries + 1 =>
    let k := place - digits + 1
    match x.onGrid k with
    | some n => (n, k)
    | none => x.firstGrid place (digits + 1) tries

/-- The digits `n` and the place `k` of the shortest decimal `n · 10 ^ k` of a double above zero.
    Seventeen digits always suffice. -/
def shortest (x : Binary64) : Nat × Int :=
  let (p, q) := x.quotient
  x.firstGrid (leadingPlace p q) 1 17

/-- Digits without the zeros at their end. -/
def significant (n : Nat) : List Char :=
  ((Nat.toDigits 10 n).reverse.dropWhile (· = '0')).reverse

/-- The digits with a decimal point; at least one digit stands on each side. -/
def positional (ds : List Char) (place : Int) : List Char :=
  if place < 0 then '0' :: '.' :: List.replicate (-place - 1).toNat '0' ++ ds
  else
    let whole := place.toNat + 1
    ds.take whole ++ List.replicate (whole - ds.length) '0' ++ '.' ::
      (if ds.length ≤ whole then ['0'] else ds.drop whole)

/-- One digit before the point and the power of ten after an `e`, always with its sign. -/
def withExponent (ds : List Char) (place : Int) : List Char :=
  ds.take 1 ++ (if ds.length ≤ 1 then [] else '.' :: ds.drop 1)
    ++ 'e' :: (if place < 0 then '-' else '+') :: Nat.toDigits 10 place.natAbs

/-- The text of a double, with its sign. -/
def text (negative : Bool) (x : Binary64) : String :=
  let body :=
    if x.isZero then ['0', '.', '0']
    else
      let (n, k) := x.shortest
      let ds := significant n
      let place := k + (Nat.toDigits 10 n).length - 1
      if -5 ≤ place && place < 16 then positional ds place else withExponent ds place
  String.ofList (if negative then '-' :: body else body)

end Binary64

end StackMachine.Number
