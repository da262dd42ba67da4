import TopicSync.Json.Basic
import TopicSync.Digest.Sha256

/-!
Compact JSON text: no blanks, members in their order, integers in decimal digits, other numbers with
a point where their magnitude allows it and with an exponent otherwise.
-/
namespace TopicSync.Json

/-- Four hexadecimal digits after a backslash and a `u`. -/
def unitEscape (n : Nat) : List Char := '\\' :: 'u' :: Sha256.hexDigits 4 n

/-- The escape of a code point beyond ASCII, as one or two UTF-16 units. -/
def wideEscape (n : Nat) : List Char :=
  if n < 0x10000 then unitEscape n
  else unitEscape (0xd800 + (n - 0x10000) / 0x400) ++ unitEscape (0xdc00 + (n - 0x10000) % 0x400)

/-- A character inside a string literal; with `ascii`, only ASCII is written as itself. -/
def charText (ascii : Bool) (c : Char) : List Char :=
  if c = '"' then ['\\', '"']
  else if c = '\\' then ['\\', '\\']
  else if c = '\n' then ['\\', 'n']
  else if c = '\r' then ['\\', 'r']
  else if c = '\t' then ['\\', 't']
  else if c.toNat = 8 then ['\\', 'b']
  else if c.toNat = 12 then ['\\', 'f']
  else if c.toNat < 0x20 then unitEscape c.toNat
  else if ascii && decide (0x7f ≤ c.toNat) then wideEscape c.toNat
  else [c]

def stringText (ascii : Bool) (s : String) : List Char :=
  '"' :: s.toList.flatMap (charText ascii) ++ ['"']

/-- Decimal digits of a number. -/
def natText (n : Nat) : List Char := Nat.toDigits 10 n

def intText : Int → List Char
  | .ofNat n => natText n
  | .negSucc n => '-' :: natText (n + 1)

/-- Move trailing zeros into the exponent. -/
def stripZeros (digits : Nat) (exponent : Int) : Nat × Int :=
  if digits ≠ 0 ∧ digits % 10 = 0 then stripZeros (digits / 10) (exponent + 1)
  else (digits, exponent)
termination_by digits
decreasing_by omega

def zeros (n : Int) : List Char := List.replicate n.toNat '0'

/-- Digits, not all zero, times a power of ten: with a point if it stands at most sixteen places
after or five before the first digit, otherwise with one digit before the point and an exponent. -/
def pointText (digits : List Char) (exponent : Int) : List Char :=
  let point := digits.length + exponent
  if 0 ≤ exponent ∧ point ≤ 16 then digits ++ zeros exponent ++ ['.', '0']
  else if 0 < point ∧ point ≤ 16 then digits.take point.toNat ++ '.' :: digits.drop point.toNat
  else if -5 < point ∧ point ≤ 0 then '0' :: '.' :: zeros (-point) ++ digits
  else digits.take 1 ++ (if digits.length = 1 then [] else '.' :: digits.drop 1) ++
    'e' :: intText (point - 1)

def decimalText (digits : Nat) (exponent : Int) : List Char :=
  if digits = 0 then ['0', '.', '0']
  else
    let (d, e) := stripZeros digits exponent
    pointText (natText d) e

mutual

def text (ascii : Bool) : Json → List Char
  | null => "null".toList
  | bool true => "true".toList
  | bool false => "false".toList
  | integer n => intText n
  | double negative x =>
    let (digits, exponent) := x.shortest
    (if negative then ['-'] else []) ++ decimalText digits exponent
  | string s => stringText ascii s
  | array items => '[' :: itemsText ascii items ++ [']']
  | object members => '{' :: membersText ascii members ++ ['}']
  | garbled => "null".toList

def itemsText (ascii : Bool) : List Json → List Char
  | [] => []
  | [j] => text ascii j
  | j :: js => text ascii j ++ ',' :: itemsText ascii js

def membersText (ascii : Bool) : List (String × Json) → List Char
  | [] => []
  | [(name, j)] => stringText ascii name ++ ':' :: text ascii j
  | (name, j) :: ms => stringText ascii name ++ ':' :: text ascii j ++ ',' :: membersText ascii ms

end

/-- The document as Unicode text. -/
def compact (j : Json) : String := String.ofList (text false j)

/-- The document as ASCII text. -/
def asciiText (j : Json) : String := String.ofList (text true j)

end TopicSync.Json
