/-!
Scanning a text from the left: each scanner gives what it read and the characters that remain, or
nothing if the text does not begin as it should.
-/
namespace TopicSync.Text

abbrev Scanner (α : Type) : Type := List Char → Option (α × List Char)

/-- The value of a digit in a number system with at most sixteen digits. -/
def digitValue? (radix : Nat) (c : Char) : Option Nat :=
  let v? :=
    if c.isDigit then some (c.toNat - 48)
    else if 'a' ≤ c ∧ c ≤ 'f' then some (c.toNat - 87)
    else if 'A' ≤ c ∧ c ≤ 'F' then some (c.toNat - 55)
    else none
  v?.filter (· < radix)

def isDigitOf (radix : Nat) (c : Char) : Bool := (digitValue? radix c).isSome

/-- The number that digits denote, the first being the highest. -/
def valueOf (radix : Nat) (digits : List Char) : Nat :=
  digits.foldl (fun n c => n * radix + (digitValue? radix c).getD 0) 0

/-- All the digits that follow, at least one. -/
def scanDigits (radix : Nat) : Scanner (List Char) := fun cs =>
  match cs.takeWhile (isDigitOf radix) with
  | [] => none
  | ds => some (ds, cs.dropWhile (isDigitOf radix))

def scanChar (c : Char) : Scanner Unit
  | [] => none
  | d :: cs => if d = c then some ((), cs) else none

/-- A whole number that is not negative, which may have leading zeros and a plus sign. -/
def natOf? (s : String) : Option Nat :=
  let cs :=
    match s.toList with
    | '+' :: cs => cs
    | cs => cs
  match scanDigits 10 cs with
  | some (ds, []) => some (valueOf 10 ds)
  | _ => none

/-- A whole number, which may have leading zeros and a sign. -/
def intOf? (s : String) : Option Int :=
  match s.toList with
  | '-' :: cs =>
    match scanDigits 10 cs with
    | some (ds, []) => some (-(valueOf 10 ds : Int))
    | _ => none
  | _ => (natOf? s).map Int.ofNat

end TopicSync.Text
