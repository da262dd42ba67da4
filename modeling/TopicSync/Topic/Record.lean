import TopicSync.Json.Fields
import TopicSync.Json.Parser
import TopicSync.Json.Printer
import TopicSync.Topic.Basic

/-!
The stored form of a snapshot: a JSON object without the topic's name, which is the record's key.
Unknown labels are left out, so that they stay apart from known and empty ones.
-/
namespace TopicSync.Record

/-- The fields of a record, in their order. -/
def fieldNames : List String :=
  ["resourceName", "partitions", "replicationFactor", "config", "labels"]

def toJson (t : Topic) : Json :=
  .object <|
    [("resourceName", .string t.resourceName.text),
     ("partitions", .ofNat t.partitions.val),
     ("replicationFactor", .ofNat t.replicationFactor.val),
     ("config", .ofMap t.config)] ++ Json.memberOf "labels" Json.ofMap t.labels

def encode (t : Topic) : String := (toJson t).compact

/-- The fields of a record before their numbers are checked. -/
structure Draft where
  resourceName : ResourceName
  partitions : Int
  replicationFactor : Int
  config : TextMap String
  labels : Option (TextMap String)
  deriving DecidableEq, Repr

def Draft.ofJson? (j : Json) : Option Draft := do
  let fields ← j.fields? fieldNames
  return {
    resourceName := ⟨← Json.required? fields "resourceName" Json.asString?⟩
    partitions := ← Json.required? fields "partitions" Json.asInt32?
    replicationFactor := ← Json.required? fields "replicationFactor" Json.asInt16?
    config := ← Json.defaulted? fields "config" .empty Json.asTextMap?
    labels := ← Json.defaulted? fields "labels" none (Json.asOption? Json.asTextMap?) }

/-- The cause given for a record that is not JSON of the right shape. -/
def unreadable : String := "<json>"

/-- Read the record stored under a name. -/
def decode (name : TopicName) (bytes : ByteArray) : Except StoreError Topic :=
  match (Json.parseBytes? bytes).bind Draft.ofJson? with
  | none => .error (.corrupt name.text unreadable)
  | some d =>
    match Topic.create name d.partitions d.replicationFactor with
    | .error e => .error (.corrupt name.text e.message)
    | .ok t =>
      .ok { t with resourceName := d.resourceName, config := d.config, labels := d.labels }

/-- As `decode`, for a record given as text. -/
def decodeText (name : TopicName) (record : String) : Except StoreError Topic :=
  decode name record.toUTF8

end TopicSync.Record
