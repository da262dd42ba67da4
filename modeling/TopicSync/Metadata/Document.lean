import TopicSync.Json.Fields
import TopicSync.Metadata.Basic

/-!
Metadata as JSON documents. A known member may be given several times, each time with a value of the
right kind, and the last one counts; `null` is as good as missing. What is missing is not written.
-/
namespace TopicSync

namespace Timestamp

def epoch : Timestamp := ⟨0, false⟩

def toJson (t : Timestamp) : Json := .string t.text

def ofJson? (j : Json) : Option Timestamp := j.asString?.bind ofText?

end Timestamp

namespace OwnerReference

/-- A reference with every field given. -/
def filled : OwnerReference := ⟨"", some false, some false, "", "", ""⟩

def toJson (r : OwnerReference) : Json :=
  .object <|
    [("apiVersion", .string r.apiVersion)] ++
    Json.memberOf "blockOwnerDeletion" .bool r.blockOwnerDeletion ++
    Json.memberOf "controller" .bool r.controller ++
    [("kind", .string r.kind), ("name", .string r.name), ("uid", .string r.uid)]

/-- The texts that are missing are empty. -/
def ofJson? (j : Json) : Option OwnerReference := do
  let members ← j.asObject?
  let text (name : String) : Option String := do
    return (← Json.lastGiven? members name Json.asString?).getD ""
  return {
    apiVersion := ← text "apiVersion"
    blockOwnerDeletion := ← Json.lastGiven? members "blockOwnerDeletion" Json.asBool?
    controller := ← Json.lastGiven? members "controller" Json.asBool?
    kind := ← text "kind"
    name := ← text "name"
    uid := ← text "uid" }

end OwnerReference

namespace FieldOwnership

def filled : FieldOwnership :=
  ⟨some "", some "", some (.object []), some "", some "", some "", some .epoch⟩

def toJson (o : FieldOwnership) : Json :=
  .object <|
    Json.memberOf "apiVersion" .string o.apiVersion ++
    Json.memberOf "fieldsType" .string o.fieldsType ++
    Json.memberOf "fieldsV1" id o.fields ++
    Json.memberOf "manager" .string o.manager ++
    Json.memberOf "operation" .string o.operation ++
    Json.memberOf "subresource" .string o.subresource ++
    Json.memberOf "time" Timestamp.toJson o.time

def ofJson? (j : Json) : Option FieldOwnership := do
  let members ← j.asObject?
  let text (name : String) := Json.lastGiven? members name Json.asString?
  return {
    apiVersion := ← text "apiVersion"
    fieldsType := ← text "fieldsType"
    fields := ← Json.lastGiven? members "fieldsV1" Json.asWhole?
    manager := ← text "manager"
    operation := ← text "operation"
    subresource := ← text "subresource"
    time := ← Json.lastGiven? members "time" Timestamp.ofJson? }

end FieldOwnership

namespace Metadata

/-- Metadata with every field given. -/
def filled : Metadata where
  annotations := some .empty
  creationTimestamp := some .epoch
  deletionGracePeriodSeconds := some 0
  deletionTimestamp := some .epoch
  finalizers := some [""]
  generateName := some ""
  generation := some 0
  labels := some .empty
  managedFields := some [.filled]
  name := some ""
  «namespace» := some ""
  ownerReferences := some [.filled]
  resourceVersion := some ""
  selfLink := some ""
  uid := some ""

def toJson (m : Metadata) : Json :=
  .object <|
    Json.memberOf "annotations" Json.ofMap m.annotations ++
    Json.memberOf "creationTimestamp" Timestamp.toJson m.creationTimestamp ++
    Json.memberOf "deletionGracePeriodSeconds" .integer m.deletionGracePeriodSeconds ++
    Json.memberOf "deletionTimestamp" Timestamp.toJson m.deletionTimestamp ++
    Json.memberOf "finalizers" Json.ofTexts m.finalizers ++
    Json.memberOf "generateName" .string m.generateName ++
    Json.memberOf "generation" .integer m.generation ++
    Json.memberOf "labels" Json.ofMap m.labels ++
    Json.memberOf "managedFields" (.array <| ·.map FieldOwnership.toJson) m.managedFields ++
    Json.memberOf "name" .string m.name ++
    Json.memberOf "namespace" .string m.namespace ++
    Json.memberOf "ownerReferences" (.array <| ·.map OwnerReference.toJson) m.ownerReferences ++
    Json.memberOf "resourceVersion" .string m.resourceVersion ++
    Json.memberOf "selfLink" .string m.selfLink ++
    Json.memberOf "uid" .string m.uid

def ofJson? (j : Json) : Option Metadata := do
  let members ← j.asObject?
  let text (name : String) := Json.lastGiven? members name Json.asString?
  return {
    annotations := ← Json.lastGiven? members "annotations" Json.asTextMap?
    creationTimestamp := ← Json.lastGiven? members "creationTimestamp" Timestamp.ofJson?
    deletionGracePeriodSeconds :=
      ← Json.lastGiven? members "deletionGracePeriodSeconds" Json.asInt64?
    deletionTimestamp := ← Json.lastGiven? members "deletionTimestamp" Timestamp.ofJson?
    finalizers := ← Json.lastGiven? members "finalizers" Json.asTexts?
    generateName := ← text "generateName"
    generation := ← Json.lastGiven? members "generation" Json.asInt64?
    labels := ← Json.lastGiven? members "labels" Json.asTextMap?
    managedFields :=
      ← Json.lastGiven? members "managedFields" (Json.asListOf? FieldOwnership.ofJson?)
    name := ← text "name"
    «namespace» := ← text "namespace"
    ownerReferences :=
      ← Json.lastGiven? members "ownerReferences" (Json.asListOf? OwnerReference.ofJson?)
    resourceVersion := ← text "resourceVersion"
    selfLink := ← text "selfLink"
    uid := ← text "uid" }

end Metadata

end TopicSync
