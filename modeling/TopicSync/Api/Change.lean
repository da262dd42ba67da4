import TopicSync.Api.Http
import TopicSync.Json.Fragment
import TopicSync.Json.Whole

/-!
The stream of changes with which the API server answers a watch: one document a line, which is a
word together with the object that the word is about.
-/
namespace TopicSync.Api

/-- What one line of a stream of changes tells about objects of some type. -/
inductive Change (α : Type) where
  /-- The object is there now. -/
  | present (a : α)
  | gone (a : α)
  /-- How far the changes have come. -/
  | mark
  | refused (r : Refusal)
  deriving DecidableEq, Repr

/-- What a mark says: a version, and perhaps annotations. -/
def markFormat : Json.Format Unit where
  read j := do
    let fields ← j.fields? ["resourceVersion", "annotations"]
    let _ ← Json.required? fields "resourceVersion" Json.asString?
    let _ ← Json.defaulted? fields "annotations" .empty Json.asTextMap?
  model := .object [("resourceVersion", .string ""), ("annotations", .object [])]

/-- A mark: kind and version of the objects, and what it says in its metadata. -/
def mark? (j : Json) : Option Unit := do
  let members ← j.asObject?
  let known := ["apiVersion", "kind", "metadata"]
  let fields ← j.fields? known
  guard (Json.haveSound (members.filter fun m => !known.contains m.1))
  let _ ← Json.required? fields "apiVersion" Json.asString?
  let _ ← Json.required? fields "kind" Json.asString?
  Json.required? fields "metadata" markFormat.read

/-- Whether a mark that breaks off is read to its end: only its metadata is looked into before. -/
def markReachesEnd (f : Json.Fragment) : Bool :=
  let isBegun (members : List (String × Json)) : Bool :=
    Json.haveSound (members.filter (·.1 ≠ "metadata")) &&
      match members.filter (·.1 = "metadata") with
      | [] => true
      | [(_, j)] => (markFormat.read j).isSome
      | _ => false
  match f with
  | .object members _ => isBegun members
  | .objectWithin members name f =>
    if name = "metadata" then
      isBegun members && Json.count name members = 0 && markFormat.reachesEnd f
    else isBegun members && f.isSound
  | f => f.isPlain

namespace Change

/-- The members of a line that count. -/
def relevant (members : List (String × Json)) : List (String × Json) :=
  members.filter fun m => m.1 = "type" || m.1 = "object"

/-- The word and the object of a line, in an array or as the members `type` and `object`. An object
in front of its word is taken in before it is known what it is, so all of it has to be sound. -/
def parts? : Json → Option (String × Json)
  | .array [word, object] => word.asChoice?.map (·, object)
  | .object members =>
    match relevant members with
    | [("type", word), ("object", object)] => word.asChoice?.map (·, object)
    | [("object", object), ("type", word)] =>
      if object.isSound then word.asChoice?.map (·, object) else none
    | _ => none
  | _ => none

/-- The words that a line may be about an object with. -/
def words : List String := ["ADDED", "MODIFIED", "DELETED", "BOOKMARK", "ERROR"]

def ofJson? (f : Json → Option α) (j : Json) : Option (Change α) := do
  let (word, object) ← parts? j
  match word with
  | "ADDED" | "MODIFIED" => present <$> f object
  | "DELETED" => gone <$> f object
  | "BOOKMARK" => (fun _ => mark) <$> mark? object
  | "ERROR" => refused <$> Reply.refusal? object
  | _ => none

/-- Whether an object that breaks off is read to its end behind this word. -/
def objectReachesEnd (format : Json.Format α) (word : Json) (f : Json.Fragment) : Bool :=
  match word.asChoice? with
  | some "ADDED" | some "MODIFIED" | some "DELETED" => format.reachesEnd f
  | some "BOOKMARK" => markReachesEnd f
  | some "ERROR" => Reply.refusalFormat.reachesEnd f
  | _ => false

/-- Whether members of a line are read to their end when the line breaks off behind them. -/
def membersReachEnd (format : Json.Format α) : List (String × Json) → Bool
  | [] => true
  | [("type", word)] => word.asChoice?.any words.contains
  | [("object", object)] => object.isSound
  | members => (ofJson? format.read (.object members)).isSome

/-- Whether a line that breaks off is read to its end. -/
def reachesEnd (format : Json.Format α) : Json.Fragment → Bool
  | .array [] => true
  | .array [word] => word.asChoice?.any words.contains
  | .array [word, object] => (ofJson? format.read (.array [word, object])).isSome
  | .arrayWithin [] f => f.mayBeChoice words
  | .arrayWithin [word] f => objectReachesEnd format word f
  | .object members _ => membersReachEnd format (relevant members)
  | .objectWithin members name f =>
    match relevant members, name with
    | [], "type" => f.mayBeChoice words
    | [], "object" => f.isSound
    | [("type", word)], "object" => objectReachesEnd format word f
    | [("object", object)], "type" => object.isSound && f.mayBeChoice words
    | given, name =>
      name ≠ "type" && name ≠ "object" && membersReachEnd format given && !f.endsInNumber
  | f => f.isPlain

end Change

/-- The lines of a text; a carriage return at the end of a line does not belong to it. -/
def lines (body : String) : List String :=
  (Text.split '\n' body).map fun line =>
    if line.toList.getLast? = some '\r' then String.ofList line.toList.dropLast else line

/-- The changes that a text holds, line by line; `none` for a line that cannot be read. A line that
breaks off without any other fault, as a blank one does, is passed over. -/
def changes (format : Json.Format α) (body : String) : List (Option (Change α)) :=
  (lines body).filterMap fun line =>
    match Json.parse? line with
    | some j => some (Change.ofJson? format.read j)
    | none =>
      if (Json.Fragment.parse? line).any (Change.reachesEnd format) then none else some none

end TopicSync.Api
