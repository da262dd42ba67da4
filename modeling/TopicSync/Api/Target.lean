import TopicSync.Text.Form

/-!
Targets of requests, as they are written: a path, then, after a question mark, parameters. A number
sign ends a target. Names become part of a path as they are, so that one with such a character in
it may lead elsewhere, and one with a character that may not stand in a path leads nowhere.
-/
namespace TopicSync.Api

structure Target where
  path : String
  query : List (String × String)
  deriving DecidableEq, Repr

namespace Target

/-- Characters that may stand in a path. -/
def isPathChar (c : Char) : Bool :=
  decide (0x21 ≤ c.toNat) && c.toNat ≠ 0x7f && c ≠ '#' && c ≠ '?' && c ≠ '<' && c ≠ '>' &&
    c.toNat ≠ 0x60

/-- Characters that may stand in a query. -/
def isQueryChar (c : Char) : Bool :=
  decide (0x21 ≤ c.toNat) && c.toNat ≠ 0x7f && c ≠ '#' && c ≠ '"' && c ≠ '<' && c ≠ '>'

/-- The longest target that can be asked for, in bytes. -/
def maxLength : Nat := 65534

/-- The target that a text denotes, if all characters up to its end may stand where they do. -/
def ofText? (s : String) : Option Target :=
  let cs := s.toList.takeWhile (· ≠ '#')
  let path := cs.takeWhile (· ≠ '?')
  let query := (cs.dropWhile (· ≠ '?')).drop 1
  if s.utf8ByteSize ≤ maxLength ∧ path.all isPathChar ∧ query.all isQueryChar then
    some ⟨String.ofList path, Text.Form.pairs query⟩
  else none

/-- The text of a target; a request that may have parameters has a question mark even without. -/
def text (path : String) (parameters : Option (List (String × String))) : String :=
  match parameters with
  | none => path
  | some ps => path ++ String.ofList ('?' :: ps.flatMap Text.Form.pair)

end Target

end TopicSync.Api
