import TopicSync.Json.Fragment
import TopicSync.Metadata.Document
import TopicSync.Resource.Basic

/-!
Resources as JSON documents. What is not given is not written, except that a specification always
has its configuration and a status all its fields.
-/
namespace TopicSync

namespace Spec

def toJson (s : Spec) : Json :=
  .object <|
    Json.memberOf "topicName" .string s.topicName ++
    [("partitions", .integer s.partitions), ("replicas", .integer s.replicas),
     ("config", .ofMap s.config)]

def ofJson? (j : Json) : Option Spec := do
  let fields ← j.fields? ["topicName", "partitions", "replicas", "config"]
  return {
    topicName := ← Json.defaulted? fields "topicName" none (Json.asOption? Json.asString?)
    partitions := ← Json.required? fields "partitions" Json.asInt32?
    replicas := ← Json.required? fields "replicas" Json.asInt32?
    config := ← Json.defaulted? fields "config" .empty Json.asTextMap? }

end Spec

namespace Condition

def toJson (c : Condition) : Json :=
  .object [("type", .string c.type), ("status", .string c.status), ("reason", .string c.reason),
    ("message", .string c.message), ("lastTransitionTime", .string c.lastTransitionTime)]

/-- The condition without its time. -/
def toTimelessJson (c : Condition) : Json :=
  .object [("type", .string c.type), ("status", .string c.status), ("reason", .string c.reason),
    ("message", .string c.message)]

def ofJson? (j : Json) : Option Condition := do
  let fields ← j.fields? ["type", "status", "reason", "message", "lastTransitionTime"]
  return {
    type := ← Json.required? fields "type" Json.asString?
    status := ← Json.required? fields "status" Json.asString?
    reason := ← Json.required? fields "reason" Json.asString?
    message := ← Json.required? fields "message" Json.asString?
    lastTransitionTime := ← Json.required? fields "lastTransitionTime" Json.asString? }

end Condition

namespace Status

def toJson (s : Status) : Json :=
  .object [("phase", .string s.phase), ("message", .string s.message),
    ("observedGeneration", .integer s.observedGeneration),
    ("conditions", .array (s.conditions.map Condition.toJson)),
    ("lastSyncTime", Json.ofOption .string s.lastSyncTime)]

/-- The status without its times. -/
def toTimelessJson (s : Status) : Json :=
  .object [("phase", .string s.phase), ("message", .string s.message),
    ("observedGeneration", .integer s.observedGeneration),
    ("conditions", .array (s.conditions.map Condition.toTimelessJson))]

def ofJson? (j : Json) : Option Status := do
  let fields ← j.fields? ["phase", "message", "observedGeneration", "conditions", "lastSyncTime"]
  return {
    phase := ← Json.defaulted? fields "phase" "" Json.asString?
    message := ← Json.defaulted? fields "message" "" Json.asString?
    observedGeneration := ← Json.defaulted? fields "observedGeneration" 0 Json.asInt64?
    conditions := ← Json.defaulted? fields "conditions" [] fun j => do
      (← j.asArray?).mapM Condition.ofJson?
    lastSyncTime := ← Json.defaulted? fields "lastSyncTime" none (Json.asOption? Json.asString?) }

end Status

namespace Resource

/-- The document, with the status written by `status`. -/
def toJsonWith (status : Status → Json) (r : Resource) : Json :=
  .object <|
    [("apiVersion", .string apiVersion), ("kind", .string kind), ("metadata", r.metadata.toJson),
     ("spec", r.spec.toJson)] ++ Json.memberOf "status" status r.status

def toJson (r : Resource) : Json := r.toJsonWith Status.toJson

def toTimelessJson (r : Resource) : Json := r.toJsonWith Status.toTimelessJson

/-- Read a resource. Its three parts may also come as an array, of which none may be missing. -/
def ofJson? (j : Json) : Option Resource := do
  let fields ← j.fields? ["metadata", "spec", "status"]
  if let .array items := j then
    if items.length < 3 then failure
  return {
    metadata := ← Json.required? fields "metadata" Metadata.ofJson?
    spec := ← Json.required? fields "spec" Spec.ofJson?
    status := ← Json.defaulted? fields "status" none (Json.asOption? Status.ofJson?) }

/-- The format of resources; the model has every field that a resource can have. -/
def format : Json.Format Resource :=
  let spec : Spec := ⟨some "", 0, 0, .empty⟩
  let status : Status := ⟨"", "", 0, [⟨"", "", "", "", ""⟩], some ""⟩
  ⟨ofJson?, .object [("metadata", Metadata.filled.toJson), ("spec", spec.toJson),
    ("status", status.toJson)]⟩

end Resource

end TopicSync
