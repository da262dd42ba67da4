import TopicSync.Json.Basic

/-!
The number that digits denote: an integer of 64 bits if it is written as one and fits, otherwise a
double.
-/
namespace TopicSync.Json

/-- The greatest number that is kept as an integer, and the greatest one behind a minus. -/
def maxInteger : Nat := Nat.pow 2 64 - 1
def maxNegated : Nat := Nat.pow 2 63

/-- The number that decimal digits denote. -/
def natOf (digits : List Char) : Nat := digits.foldl (fun n c => n * 10 + (c.toNat - 48)) 0

/-- Append digits to a number as long as it stays within 64 bits: the number, and the digits for
which there is no room. -/
def appendDigits : Nat → List Char → Nat × List Char
  | n, [] => (n, [])
  | n, c :: cs =>
    let next := n * 10 + (c.toNat - 48)
    if next ≤ maxInteger then appendDigits next cs else (n, c :: cs)

/-- A number from its digits before and after the point and its exponent. Digits before the point
for which there is no room count as zeros; those after it are left out, from the first on that does
not fit. -/
def ofDigits (negative : Bool) (whole fraction : List Char) (exponent : Option Int) : Json :=
  let (n, excess) := appendDigits 0 whole
  if fraction.isEmpty ∧ exponent.isNone ∧ excess.isEmpty ∧
      (negative = true → 0 < n ∧ n ≤ maxNegated) then
    .integer (if negative then -n else n)
  else
    let (digits, omitted) := appendDigits n fraction
    let scale : Int := excess.length + omitted.length - fraction.length
    match Double.ofDecimal? digits (exponent.getD 0 + scale) with
    | some x => .double negative x
    | none => .garbled

end TopicSync.Json
