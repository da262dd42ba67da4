import TopicSync.Text.Blank
import TopicSync.Text.Scan

/-!
Points in time, to the second. They are read from a date and a time of day with an offset,
leniently, and written in universal time.
-/
namespace TopicSync

structure Timestamp where
  /-- Seconds since the beginning of 1970 in universal time, without leap seconds. -/
  seconds : Int
  /-- Whether it lies in the leap second that follows. -/
  isLeap : Bool
  deriving DecidableEq, Repr

namespace Timestamp

/-- A day of the calendar. -/
structure Day where
  year : Int
  month : Nat
  day : Nat
  deriving DecidableEq, Repr

namespace Day

def isLeapYear (year : Int) : Bool := year % 4 = 0 && (year % 100 ≠ 0 || year % 400 = 0)

def daysInMonth (year : Int) (month : Nat) : Nat :=
  if month = 2 then (if isLeapYear year then 29 else 28)
  else if month = 4 ∨ month = 6 ∨ month = 9 ∨ month = 11 then 30
  else 31

/-- Whether the year can be counted. -/
def isCounted (d : Day) : Bool := decide (-262143 ≤ d.year) && decide (d.year ≤ 262142)

/-- A day of the calendar exists, and its year can be counted. -/
def isValid (d : Day) : Bool :=
  d.isCounted && decide (1 ≤ d.month) && decide (d.month ≤ 12) && decide (1 ≤ d.day) &&
    decide (d.day ≤ daysInMonth d.year d.month)

/-- The days since the beginning of 1970. Years are taken to begin in March, so that the leap day
comes last. -/
def number (d : Day) : Int :=
  let year := if d.month ≤ 2 then d.year - 1 else d.year
  let month := if d.month ≤ 2 then d.month + 9 else d.month - 3
  let era := year.fdiv 400
  let yearOfEra := year - era * 400
  let dayOfYear : Int := (153 * month + 2) / 5 + d.day - 1
  era * 146097 + yearOfEra * 365 + yearOfEra / 4 - yearOfEra / 100 + dayOfYear - 719468

/-- The day with a number. -/
def ofNumber (n : Int) : Day :=
  let n := n + 719468
  let era := n.fdiv 146097
  let dayOfEra := (n - era * 146097).toNat
  let yearOfEra := (dayOfEra - dayOfEra / 1460 + dayOfEra / 36524 - dayOfEra / 146096) / 365
  let dayOfYear := dayOfEra - (365 * yearOfEra + yearOfEra / 4 - yearOfEra / 100)
  let month := (5 * dayOfYear + 2) / 153
  let year := era * 400 + yearOfEra
  let day := dayOfYear - (153 * month + 2) / 5 + 1
  if month < 10 then ⟨year, month + 3, day⟩ else ⟨year + 1, month - 9, day⟩

end Day

open Text (Scanner)

def skipBlanks (cs : List Char) : List Char := cs.dropWhile Text.isBlank

/-- One digit or more, at most `width`, after blanks. -/
def scanNumber (width : Nat) : Scanner Nat := fun cs =>
  let cs := skipBlanks cs
  match (cs.take width).takeWhile Char.isDigit with
  | [] => none
  | ds => some (Text.valueOf 10 ds, cs.drop ds.length)

/-- A year: up to four digits, or any number of them after a sign. -/
def scanYear : Scanner Int := fun cs =>
  let unbounded (cs : List Char) : Scanner Nat := fun rest =>
    match rest with
    | c :: _ => if c.isDigit then scanNumber cs.length rest else none
    | [] => none
  match skipBlanks cs with
  | '-' :: cs => (unbounded cs cs).map fun r => (-(r.1 : Int), r.2)
  | '+' :: cs => (unbounded cs cs).map fun r => ((r.1 : Int), r.2)
  | cs => (scanNumber 4 cs).map fun r => ((r.1 : Int), r.2)

/-- A point and the digits after it, of which there has to be one. -/
def scanFraction : Scanner Unit
  | '.' :: cs =>
    match cs.takeWhile Char.isDigit with
    | [] => none
    | ds => some ((), cs.drop ds.length)
  | cs => some ((), cs)

def twoDigits? : List Char → Option (Nat × List Char)
  | a :: b :: cs => if a.isDigit ∧ b.isDigit then some (Text.valueOf 10 [a, b], cs) else none
  | _ => none

/-- Hours and minutes, with colons and blanks between them, as seconds. -/
def scanHours : Scanner Nat := fun cs => do
  let (hours, cs) ← twoDigits? cs
  let (minutes, cs) ← twoDigits? (cs.dropWhile fun c => c = ':' || Text.isBlank c)
  if hours < 24 ∧ minutes < 60 then some (hours * 3600 + minutes * 60, cs) else none

/-- How many seconds a place is ahead of universal time. -/
def scanOffset : Scanner Int := fun cs =>
  match cs with
  | 'Z' :: cs | 'z' :: cs => some (0, cs)
  | '+' :: cs => (scanHours cs).map fun r => ((r.1 : Int), r.2)
  | '-' :: cs | '−' :: cs => (scanHours cs).map fun r => (-(r.1 : Int), r.2)
  | u :: t :: c :: cs =>
    if [u, t, c].map Char.toUpper = ['U', 'T', 'C'] then some (0, cs) else none
  | _ => none

/-- One character after blanks. -/
def scanMark (c : Char) : Scanner Unit := fun cs => Text.scanChar c (skipBlanks cs)

/-- What stands between date and time of day. -/
def scanSeparator : Scanner Unit
  | 'T' :: cs | 't' :: cs | ' ' :: cs => some ((), cs)
  | _ => none

/-- The day in universal time. -/
def day (t : Timestamp) : Day := Day.ofNumber (t.seconds.fdiv 86400)

/-- A point in time from its text. -/
def ofText? (s : String) : Option Timestamp := do
  let (year, cs) ← scanYear s.toList
  let (_, cs) ← scanMark '-' cs
  let (month, cs) ← scanNumber 2 cs
  let (_, cs) ← scanMark '-' cs
  let (day, cs) ← scanNumber 2 cs
  let (_, cs) ← scanSeparator cs
  let (hour, cs) ← scanNumber 2 cs
  let (_, cs) ← scanMark ':' cs
  let (minute, cs) ← scanNumber 2 cs
  let (_, cs) ← scanMark ':' cs
  let (second, cs) ← scanNumber 2 cs
  let (_, cs) ← scanFraction cs
  let (offset, cs) ← scanOffset (skipBlanks cs)
  let date : Day := ⟨year, month, day⟩
  guard (date.isValid ∧ hour < 24 ∧ minute < 60 ∧ second ≤ 60 ∧ (skipBlanks cs).isEmpty)
  let time : Nat := hour * 3600 + minute * 60 + min second 59
  let t : Timestamp := ⟨date.number * 86400 + time - offset, second = 60⟩
  guard t.day.isCounted
  return t

/-- Decimal digits with zeros in front, up to a width. -/
def padded (width n : Nat) : String :=
  let ds := Nat.toDigits 10 n
  String.ofList (List.replicate (width - ds.length) '0' ++ ds)

def yearText (year : Int) : String :=
  if 0 ≤ year ∧ year ≤ 9999 then padded 4 year.toNat
  else (if year < 0 then "-" else "+") ++ padded 4 year.natAbs

def text (t : Timestamp) : String :=
  let time := (t.seconds.fmod 86400).toNat
  let second := time % 60 + (if t.isLeap then 1 else 0)
  yearText t.day.year ++ "-" ++ padded 2 t.day.month ++ "-" ++ padded 2 t.day.day ++ "T" ++
    padded 2 (time / 3600) ++ ":" ++ padded 2 (time / 60 % 60) ++ ":" ++ padded 2 second ++ "Z"

end Timestamp

end TopicSync
