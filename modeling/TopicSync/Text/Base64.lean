/-!
Bytes as text: four characters for every three bytes, with padding at the end.
-/
namespace TopicSync.Text

/-- The six bits that a character stands for. -/
def sextet? (c : Char) : Option Nat :=
  if c.isUpper then some (c.toNat - 65)
  else if c.isLower then some (c.toNat - 97 + 26)
  else if c.isDigit then some (c.toNat - 48 + 52)
  else if c = '+' then some 62
  else if c = '/' then some 63
  else none

/-- Whether a text stands for bytes; the bits that the last characters have too many are zero. -/
def isBase64 : List Char → Bool
  | [] => true
  | [a, b, '=', '='] => (sextet? a).isSome && (sextet? b).any (· % 16 = 0)
  | [a, b, c, '='] => (sextet? a).isSome && (sextet? b).isSome && (sextet? c).any (· % 4 = 0)
  | a :: b :: c :: d :: cs => [a, b, c, d].all (fun x => (sextet? x).isSome) && isBase64 cs
  | _ => false

end TopicSync.Text
