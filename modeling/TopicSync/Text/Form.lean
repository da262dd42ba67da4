import TopicSync.Text.Blank
import TopicSync.Text.Scan

/-!
Names and values as the fields of a form are written: pairs with `=` between and `&` apart, a space
as `+`, and bytes that are neither letters, digits nor one of `*-._` as `%` and two digits.
-/
namespace TopicSync.Text.Form

def isPlain (c : Char) : Bool := c.isAlphanum || c = '*' || c = '-' || c = '.' || c = '_'

def hexDigit (n : Nat) : Char := (Nat.digitChar n).toUpper

def encodeChar (c : Char) : List Char :=
  if c = ' ' then ['+']
  else if isPlain c then [c]
  else (String.utf8EncodeChar c).flatMap fun b =>
    ['%', hexDigit (b.toNat / 16), hexDigit (b.toNat % 16)]

def encode (s : String) : List Char := s.toList.flatMap encodeChar

/-- The bytes that are written; a `%` without two digits stands for itself. -/
def bytes : List Char → List UInt8
  | [] => []
  | '+' :: cs => 0x20 :: bytes cs
  | '%' :: a :: b :: cs =>
    match digitValue? 16 a, digitValue? 16 b with
    | some x, some y => (x * 16 + y).toUInt8 :: bytes cs
    | _, _ => 0x25 :: bytes (a :: b :: cs)
  | c :: cs => String.utf8EncodeChar c ++ bytes cs

/-- The bytes that may come second in a character of three or four bytes, by its first. -/
def secondBytes (first : UInt8) : UInt8 × UInt8 :=
  if first = 0xe0 then (0xa0, 0xbf)
  else if first = 0xed then (0x80, 0x9f)
  else if first = 0xf0 then (0x90, 0xbf)
  else if first = 0xf4 then (0x80, 0x8f)
  else (0x80, 0xbf)

/-- How many bytes, at least one, belong to a character that is cut short. -/
def cutLength : List UInt8 → Nat
  | a :: b :: cs =>
    let (lo, hi) := secondBytes a
    if 0xe0 ≤ a ∧ a ≤ 0xf4 ∧ lo ≤ b ∧ b ≤ hi then
      match cs with
      | c :: _ => if 0xf0 ≤ a ∧ 0x80 ≤ c ∧ c ≤ 0xbf then 3 else 2
      | [] => 2
    else 1
  | _ => 1

/-- The text of bytes; what encodes no character counts as one replacement character. -/
def textFrom (bs : ByteArray) : Nat → Nat → List Char
  | 0, _ => []
  | n + 1, i =>
    if i < bs.size then
      match bs.utf8DecodeChar? i with
      | some c => c :: textFrom bs n (i + c.utf8Size)
      | none =>
        Char.ofNat 0xfffd :: textFrom bs n (i + cutLength (bs.extract i (i + 3)).toList)
    else []

def decode (cs : List Char) : String :=
  let bs := ByteArray.mk (bytes cs).toArray
  String.ofList (textFrom bs bs.size 0)

/-- A name and its value, after an ampersand. -/
def pair (p : String × String) : List Char := '&' :: encode p.1 ++ '=' :: encode p.2

/-- The pairs in a text. One without `=` has no value; empty ones are skipped. -/
def pairs (cs : List Char) : List (String × String) :=
  ((splitOn '&' cs).filter (!·.isEmpty)).map fun part =>
    (decode (part.takeWhile (· ≠ '=')), decode ((part.dropWhile (· ≠ '=')).drop 1))

end TopicSync.Text.Form
