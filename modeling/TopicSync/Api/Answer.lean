import TopicSync.Api.Http
import TopicSync.Metadata.Document

/-!
Documents with which the API server answers and which are no objects of their own: lists of objects,
and the status that tells what became of a deletion.
-/
namespace TopicSync.Api

/-- The objects of a list document, with the list's own metadata. -/
structure Listing (α : Type) where
  items : List α
  resourceVersion : Option String
  /-- Where the next page begins, if this one is not the last. -/
  «continue» : Option String

namespace Listing

/-- The metadata of a list: its version, and where the next page begins. -/
def metadata? (j : Json) : Option (Option String × Option String) := do
  let members ← j.asObject?
  let text (name : String) := Json.lastGiven? members name Json.asString?
  let _ ← Json.lastGiven? members "remainingItemCount" Json.asInt64?
  let _ ← text "selfLink"
  return (← text "resourceVersion", ← text "continue")

/-- A list. Its items may be `null`; what is unknown in the list itself has to be sound. -/
def ofJson? (f : Json → Option α) (j : Json) : Option (Listing α) := do
  let members ← j.asObject?
  let known := ["metadata", "items"]
  let fields ← j.fields? known
  guard (Json.haveSound (members.filter fun m => !known.contains m.1))
  let (version, rest) ← Json.defaulted? fields "metadata" (none, none) metadata?
  let items ← Json.required? fields "items" (Json.asOption? (Json.asListOf? f))
  return ⟨items.getD [], version, rest⟩

end Listing

/-- Success or failure. -/
def verdict? (j : Json) : Option Unit := do
  let word ← j.asChoice?
  guard (word = "Success" ∨ word = "Failure")

/-- One cause of a status. -/
def statusCause? (j : Json) : Option Unit := do
  let fields ← j.fields? ["reason", "message", "field"]
  for name in ["reason", "message", "field"] do
    let _ ← Json.defaulted? fields name "" Json.asString?

/-- The details of a status. -/
def statusDetails? (j : Json) : Option Unit := do
  let fields ← j.fields? ["name", "group", "kind", "uid", "causes", "retryAfterSeconds"]
  for name in ["name", "group", "kind", "uid"] do
    let _ ← Json.defaulted? fields name "" Json.asString?
  let _ ← Json.defaulted? fields "causes" [] (Json.asListOf? statusCause?)
  let _ ← Json.defaulted? fields "retryAfterSeconds" 0 (Json.asNat? 4294967295)

def status? (j : Json) : Option Unit := do
  let fields ← j.fields? ["status", "code", "message", "reason", "details"]
  let _ ← Json.defaulted? fields "status" none (Json.asOption? verdict?)
  let _ ← Json.defaulted? fields "code" 0 (Json.asNat? 65535)
  let _ ← Json.defaulted? fields "message" "" Json.asString?
  let _ ← Json.defaulted? fields "reason" "" Json.asString?
  let _ ← Json.defaulted? fields "details" none (Json.asOption? statusDetails?)

/-- What the deletion of an object is answered with: the object, or a status. All of the document
has to be sound, since it is looked at as a whole to tell which it is. -/
def deletion? (f : Json → Option α) (j : Json) : Option Unit := do
  guard j.isSound
  if j.get? "kind" = some (.string "Status") then status? j
  else (f j).map fun _ => ()

end TopicSync.Api
