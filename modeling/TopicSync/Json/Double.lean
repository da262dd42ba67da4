/-!
Doubles: the numbers of double precision that are not negative. They are the multiples of two to
the power of -1074 below two to the power of 1024 with at most 53 binary digits that count. An
operation gives the double nearest to the exact result. Every double has a shortest decimal that
stands for it.
-/
namespace TopicSync.Json

/-- A double, in units of two to the power of -1074. -/
structure Double where
  units : Nat
  deriving DecidableEq, Repr

namespace Double

def zero : Double := ⟨0⟩

/-- How many units make one. -/
def unitsOfOne : Nat := Nat.pow 2 1074

/-- The distance from a double of so many units to the next greater one. -/
def gap (units : Nat) : Nat := Nat.pow 2 (units.log2 - 52)

/-- The natural number that is nearest to a quotient; of two as near the even one. -/
def roundedQuotient (n d : Nat) : Nat :=
  let (q, r) := (n / d, n % d)
  if 2 * r < d ∨ (2 * r = d ∧ q % 2 = 0) then q else q + 1

/-- The double nearest to a quotient of units, unless that is too large. -/
def nearest? (n d : Nat) : Option Double :=
  let unit := gap (n / d)
  let units := roundedQuotient n (d * unit) * unit
  if units < unitsOfOne * Nat.pow 2 1024 then some ⟨units⟩ else none

def ofNat? (n : Nat) : Option Double := nearest? (n * unitsOfOne) 1

def mul? (x y : Double) : Option Double := nearest? (x.units * y.units) unitsOfOne

def div? (x y : Double) : Option Double := nearest? (x.units * unitsOfOne) y.units

/-- The greatest exponent of a power of ten that is a double. -/
def maxExponent : Nat := 308

/-- Divide by a power of ten in steps by doubles; after enough of them nothing is left. -/
def shrink? : Nat → Double → Nat → Option Double
  | 0, _, _ => some zero
  | steps + 1, x, n => do
    let y ← x.div? (← ofNat? (Nat.pow 10 (min n maxExponent)))
    if n ≤ maxExponent then some y else shrink? steps y (n - maxExponent)

/-- The double of a decimal of at most twenty digits: the double of its digits, times or divided by
the double of a power of ten. Its two or three roundings are not always the nearest double. -/
def ofDecimal? (digits : Nat) (exponent : Int) : Option Double :=
  if exponent < 0 then do shrink? 3 (← ofNat? digits) exponent.natAbs
  else if digits = 0 then some zero
  else if maxExponent < exponent.natAbs then none
  else do (← ofNat? digits).mul? (← ofNat? (Nat.pow 10 exponent.natAbs))

/-- The reals that a double stands for, and itself, in quarters of units. -/
structure Interval where
  low : Nat
  value : Nat
  high : Nat
  /-- Whether the ends belong to it. -/
  closed : Bool
  deriving DecidableEq, Repr

/-- Halfway to the next double on either side; below a power of two the doubles lie closer. -/
def interval (x : Double) : Interval :=
  let unit := gap x.units
  let significand := x.units / unit
  let below := if significand = Nat.pow 2 52 ∧ 1 < unit then 1 else 2
  ⟨4 * x.units - below * unit, 4 * x.units, 4 * x.units + 2 * unit, significand % 2 = 0⟩

namespace Interval

/-- Whether a number in the same units belongs to the interval, which is stretched by a factor. -/
def has (i : Interval) (factor n : Nat) : Bool :=
  if i.closed then decide (i.low * factor ≤ n) && decide (n ≤ i.high * factor)
  else decide (i.low * factor < n) && decide (n < i.high * factor)

/-- The multiple of ten to the power of `e` in the interval that is nearest to the value, if there
is one; of two as near the even one. -/
def nearest? (i : Interval) (e : Int) : Option Nat :=
  let factor := Nat.pow 10 (-e).toNat
  let unit := 4 * unitsOfOne * Nat.pow 10 e.toNat
  let value := i.value * factor
  let d := value / unit
  let (below, above) := (value - d * unit, (d + 1) * unit - value)
  let preferred := if below < above ∨ (below = above ∧ d % 2 = 0) then [d, d + 1] else [d + 1, d]
  preferred.find? fun d => i.has factor (d * unit)

/-- The exponent of the first digit of the value. -/
def leadingExponent (i : Interval) : Int :=
  (Nat.toDigits 10 (i.value * Nat.pow 10 340 / (4 * unitsOfOne))).length - 341

end Interval

/-- The decimal with the fewest digits that stands for a double, as digits and an exponent. -/
def shortest (x : Double) : Nat × Int :=
  let i := x.interval
  let exponents := (List.range 17).map fun k : Nat => i.leadingExponent - k
  (exponents.findSome? fun e => (i.nearest? e).map (·, e)).getD (0, 0)

end Double

end TopicSync.Json
