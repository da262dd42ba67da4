import TopicSync.Json.Double
import TopicSync.TextMap

/-!
JSON documents. An object keeps its members in the order and number in which they were written,
and a value that cannot be taken in is kept apart, so that each reader decides for itself whether a
repeated member or such a value is an error.
-/
namespace TopicSync

inductive Json where
  | null
  | bool (b : Bool)
  | integer (n : Int)
  /-- A number with a fraction or an exponent, one beyond 64 bits, or zero behind a minus. -/
  | double (negative : Bool) (magnitude : Json.Double)
  | string (s : String)
  | array (items : List Json)
  | object (members : List (String × Json))
  /-- A value that cannot be taken in: a string, or an object with a member name, whose escapes or
  bytes are no Unicode text, a number that is too large, or arrays and objects nested too deep. -/
  | garbled
  deriving Repr, Inhabited

namespace Json

mutual

/-- Whether two documents are written the same way. -/
def same : Json → Json → Bool
  | null, null | garbled, garbled => true
  | bool a, bool b => a == b
  | integer a, integer b => a == b
  | double n x, double n' x' => n == n' && x == x'
  | string a, string b => a == b
  | array a, array b => sameItems a b
  | object a, object b => sameMembers a b
  | _, _ => false

def sameItems : List Json → List Json → Bool
  | [], [] => true
  | a :: as, b :: bs => same a b && sameItems as bs
  | _, _ => false

def sameMembers : List (String × Json) → List (String × Json) → Bool
  | [], [] => true
  | (m, a) :: as, (n, b) :: bs => m == n && same a b && sameMembers as bs
  | _, _ => false

end

mutual

theorem same_iff : (a b : Json) → (same a b = true ↔ a = b)
  | .array as, b => by cases b <;> simp [same, sameItems_iff as]
  | .object as, b => by cases b <;> simp [same, sameMembers_iff as]
  | .null, b => by cases b <;> simp [same]
  | .garbled, b => by cases b <;> simp [same]
  | .bool _, b => by cases b <;> simp [same]
  | .integer _, b => by cases b <;> simp [same]
  | .double .., b => by cases b <;> simp [same]
  | .string _, b => by cases b <;> simp [same]

theorem sameItems_iff : (as bs : List Json) → (sameItems as bs = true ↔ as = bs)
  | [], bs => by cases bs <;> simp [sameItems]
  | a :: as, bs => by cases bs <;> simp [sameItems, same_iff a, sameItems_iff as]

theorem sameMembers_iff : (as bs : List (String × Json)) → (sameMembers as bs = true ↔ as = bs)
  | [], bs => by cases bs <;> simp [sameMembers]
  | (m, a) :: as, bs => by
    rcases bs with _ | ⟨⟨n, b⟩, bs⟩ <;> simp [sameMembers, same_iff a, sameMembers_iff as]

end

instance : DecidableEq Json := fun a b => decidable_of_iff _ (same_iff a b)

/-- The value of the last of the members with this name. -/
def lastOf (name : String) : List (String × Json) → Option Json
  | [] => none
  | m :: ms =>
    match lastOf name ms with
    | some j => some j
    | none => if m.1 = name then some m.2 else none

/-- Member of an object; `none` also of anything that is no object. -/
def get? (j : Json) (name : String) : Option Json :=
  match j with
  | object ms => lastOf name ms
  | _ => none

/-- As `get?`, with a member that is `null` counting as missing. -/
def present? (j : Json) (name : String) : Option Json :=
  match j.get? name with
  | some null => none
  | r => r

def ofMap (m : TextMap String) : Json := .object (m.toList.map fun e => (e.1, .string e.2))

def ofTexts (ts : List String) : Json := .array (ts.map .string)

def ofNat (n : Nat) : Json := .integer n

def ofOption (f : α → Json) : Option α → Json
  | none => .null
  | some a => f a

/-- A member that is left out when it has no value. -/
def memberOf (name : String) (f : α → Json) : Option α → List (String × Json)
  | none => []
  | some a => [(name, f a)]

end Json

end TopicSync
