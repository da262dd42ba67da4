import TopicSync.Api.Answer
import TopicSync.Resource.Document
import TopicSync.Store.Basic
import TopicSync.Text.Base64
import TopicSync.Topic.Record

/-!
A store that keeps one ConfigMap per topic. The record is under a key of its data, the topic's name
in an annotation, and a label tells which store it belongs to.
-/
namespace TopicSync

structure ConfigMap where
  metadata : Metadata
  data : Option (TextMap String)
  deriving DecidableEq, Repr

namespace ConfigMap

def toJson (m : ConfigMap) : Json :=
  .object <|
    [("apiVersion", .string "v1"), ("kind", .string "ConfigMap")] ++
    Json.memberOf "data" Json.ofMap m.data ++ [("metadata", m.metadata.toJson)]

/-- Bytes in the usual notation with four characters for three of them; `null` stands for none. -/
def isBinary? (j : Json) : Option Unit := do
  if let some s ← Json.asOption? Json.asString? j then
    guard (Text.isBase64 s.toList)

def ofJson? (j : Json) : Option ConfigMap := do
  let members ← j.asObject?
  let _ ← Json.lastRead? members "apiVersion" (Json.asWord? "v1")
  let _ ← Json.lastRead? members "kind" (Json.asWord? "ConfigMap")
  let _ ← Json.lastGiven? members "immutable" Json.asBool?
  let _ ← Json.lastGiven? members "binaryData" fun v => do
    (← v.asObject?).mapM fun m => isBinary? m.2
  return {
    metadata := (← Json.lastGiven? members "metadata" Metadata.ofJson?).getD .empty
    data := ← Json.lastGiven? members "data" Json.asTextMap? }

/-- The name, or the one that the server would generate from, or no text. -/
def nameText (m : ConfigMap) : String := (m.metadata.name.or m.metadata.generateName).getD ""

end ConfigMap

/-- The store of one namespace whose ConfigMaps begin with a given text. -/
structure ConfigMapStore where
  «namespace» : String
  storePrefix : String
  deriving DecidableEq, Repr

namespace ConfigMapStore

def dataKey : String := "topic.json"
def topicKey : String := "kafka.operator.io/topic-name"
def storeLabel : String := "kafka.operator.io/topic-store"

/-- The name of a topic's ConfigMap: that of the store and of the resource, or, where these are too
long, their beginning and a hash of the topic's name. -/
def mapName (chosen : String) (name : TopicName) : String :=
  let full := chosen ++ "-" ++ name.resourceName.text
  if full.utf8ByteSize ≤ maxObjectNameLength then full
  else
    let head := full.toList.take (maxObjectNameLength - nameHashLength - 1)
    String.ofList (Text.stripEnd (fun c => !c.isAlphanum) head) ++ "-" ++ nameHash name.text

/-- The ConfigMap that holds a snapshot. -/
def mapOf (chosen : String) (t : Topic) : ConfigMap where
  metadata := { Metadata.empty with
    name := some (mapName chosen t.name)
    labels := some (TextMap.ofList [(storeLabel, chosen),
      ("app.kubernetes.io/managed-by", "kafka-topic-operator")])
    annotations := some (TextMap.ofList [(topicKey, t.name.text)]) }
  data := some (TextMap.ofList [(dataKey, Record.encode t)])

/-- The snapshot in a ConfigMap. -/
def recordIn (name : TopicName) (m : ConfigMap) : Except StoreError Topic :=
  match m.data.bind (·.get? dataKey) with
  | some record => Record.decodeText name record
  | none =>
    .error (.corrupt name.text s!"ConfigMap {m.nameText} has no '{dataKey}' key")

def collection (s : ConfigMapStore) : String :=
  "/api/v1/namespaces/" ++ s.namespace ++ "/configmaps"

def path (s : ConfigMapStore) (name : TopicName) : String :=
  s.collection ++ "/" ++ mapName s.storePrefix name

/-- The store's ConfigMap of a topic, if there is one. -/
def fetch (s : ConfigMapStore) (name : TopicName) :
    Api.Session (Except StoreError (Option ConfigMap)) :=
  (Api.sendAbout (mapName s.storePrefix name) .get (s.path name) none none).bind fun r =>
    match r.valueIfFound ConfigMap.ofJson? with
    | .ok m => .done (.ok m)
    | .error e => .done (.error (.ofApi e))

def read (s : ConfigMapStore) (name : TopicName) :
    Api.Session (Except StoreError (Option Topic)) :=
  (s.fetch name).bind fun
    | .error e => .done (.error e)
    | .ok none => .done (.ok none)
    | .ok (some m) => .done ((recordIn name m).map some)

def create (s : ConfigMapStore) (t : Topic) : Api.Session (Except StoreError Unit) :=
  (Api.send .post s.collection (some []) (some (mapOf s.storePrefix t).toJson)).bind fun r =>
    match r.value ConfigMap.ofJson? with
    | .ok _ => .done (.ok ())
    | .error e =>
      .done (.error (if e.code? = some 409 then .alreadyExists t.name.text else .ofApi e))

/-- Replace the ConfigMap, provided that nobody has done so since it was read. -/
def update (s : ConfigMapStore) (t : Topic) : Api.Session (Except StoreError Unit) :=
  (s.fetch t.name).bind fun
    | .error e => .done (.error e)
    | .ok none => .done (.error (.notFound t.name.text))
    | .ok (some old) =>
      let m := mapOf s.storePrefix t
      let m := { m with metadata :=
        { m.metadata with resourceVersion := old.metadata.resourceVersion } }
      let name := mapName s.storePrefix t.name
      (Api.sendAbout name .put (s.path t.name) (some []) (some m.toJson)).bind fun r =>
        match r.value ConfigMap.ofJson? with
        | .ok _ => .done (.ok ())
        | .error e => .done <| .error <|
          if e.code? = some 404 then .notFound t.name.text
          else if e.code? = some 409 then
            .backend s!"ConfigMap {name} was modified concurrently"
          else .ofApi e

def delete (s : ConfigMapStore) (name : TopicName) : Api.Session (Except StoreError Unit) :=
  (Api.sendAbout (mapName s.storePrefix name) .delete (s.path name) (some [])
    (some (.object []))).bind fun r =>
    match r.value (Api.deletion? ConfigMap.ofJson?) with
    | .ok _ => .done (.ok ())
    | .error e => .done (.error (if e.code? = some 404 then .notFound name.text else .ofApi e))

/-- The topics that the store's ConfigMaps name; one that names no legal topic is skipped. -/
def list (s : ConfigMapStore) : Api.Session (Except StoreError (List TopicName)) :=
  let selector := storeLabel ++ "=" ++ s.storePrefix
  (Api.send .get s.collection (some [("labelSelector", selector)]) none).bind fun r =>
    match r.value (Api.Listing.ofJson? ConfigMap.ofJson?) with
    | .ok l => .done <| .ok <| l.items.filterMap fun m =>
        (m.metadata.annotations.bind (·.get? topicKey)).bind TopicName.ofText?
    | .error e => .done (.error (.ofApi e))

/-- Carry out a call on the store. -/
def perform (s : ConfigMapStore) : (c : StoreCall) → Api.Session c.Answer
  | .read name => s.read name
  | .create t => s.create t
  | .update t => s.update t
  | .delete name => s.delete name
  | .list => s.list

end ConfigMapStore

end TopicSync
