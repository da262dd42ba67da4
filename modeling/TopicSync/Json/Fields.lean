import TopicSync.Json.Basic

/-!
Reading records, maps and bounded integers out of a document. A record is an object in which no
known member occurs twice, or an array of its fields in their order; unknown members are skipped.
-/
namespace TopicSync.Json

def asString? : Json → Option String
  | .string s => some s
  | _ => none

/-- One particular text. -/
def asWord? (word : String) (j : Json) : Option Unit := if j = .string word then some () else none

/-- A word out of a choice of them, alone or as the name of the only member of an object, whose
value is `null`. -/
def asChoice? : Json → Option String
  | .string word => some word
  | .object [(word, .null)] => some word
  | _ => none

/-- An integer from `lo` to `hi`. -/
def asInt? (lo hi : Int) : Json → Option Int
  | .integer n => if lo ≤ n ∧ n ≤ hi then some n else none
  | _ => none

def asInt16? : Json → Option Int := asInt? (-32768) 32767
def asInt32? : Json → Option Int := asInt? (-2147483648) 2147483647
def asInt64? : Json → Option Int := asInt? (-9223372036854775808) 9223372036854775807

def asNat? (bound : Nat) (j : Json) : Option Nat := (j.asInt? 0 bound).map Int.toNat

def asBool? : Json → Option Bool
  | .bool b => some b
  | _ => none

def asArray? : Json → Option (List Json)
  | .array items => some items
  | _ => none

def asObject? : Json → Option (List (String × Json))
  | .object members => some members
  | _ => none

/-- A list all of whose items can be read. -/
def asListOf? (f : Json → Option α) (j : Json) : Option (List α) := do (← j.asArray?).mapM f

def asTexts? : Json → Option (List String) := asListOf? asString?

/-- An object all of whose members are texts; of several members of one name the last counts. -/
def asTextMap? (j : Json) : Option (TextMap String) := do
  let es ← (← j.asObject?).mapM fun m => m.2.asString?.map (m.1, ·)
  return TextMap.ofList es

/-- The value of the last of the members with this name, each of which has to be readable. -/
def lastRead? (members : List (String × Json)) (name : String) (f : Json → Option α) :
    Option (Option α) := do
  let values ← (members.filter (·.1 == name)).mapM fun m => f m.2
  return values.getLast?

/-- As a value that may be `null`. -/
def asOption? (f : Json → Option α) : Json → Option (Option α)
  | .null => some none
  | j => (f j).map some

/-- As `lastRead?`, with values that may be `null`, which is as good as missing. -/
def lastGiven? (members : List (String × Json)) (name : String) (f : Json → Option α) :
    Option (Option α) := do
  return (← lastRead? members name (asOption? f)).join

/-- Whether an object has only texts, if anything, under some names. -/
def textsIn? (names : List String) (j : Json) : Option Unit := do
  let members ← j.asObject?
  for name in names do
    let _ ← lastGiven? members name asString?

/-- The number of members with this name. -/
def count (name : String) (members : List (String × Json)) : Nat :=
  members.countP (·.1 == name)

/-- The fields of a record that are given, by name. -/
def fields? (names : List String) : Json → Option (List (String × Json))
  | .object members =>
    if names.all (count · members ≤ 1) then some (members.filter (names.contains ·.1)) else none
  | .array items => if items.length ≤ names.length then some (names.zip items) else none
  | _ => none

/-- A field that has to be given. -/
def required? (fields : List (String × Json)) (name : String) (f : Json → Option α) : Option α := do
  f (← lastOf name fields)

/-- A field with a value for when it is not given. -/
def defaulted? (fields : List (String × Json)) (name : String) (default : α)
    (f : Json → Option α) : Option α :=
  match lastOf name fields with
  | none => some default
  | some j => f j

end TopicSync.Json
