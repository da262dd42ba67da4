import TopicSync.Api.Http
import TopicSync.Operator.Gateways
import TopicSync.Resource.Document

/-!
Events about resources. An event that was published before, for the same reason and object, is not
published anew; its count is raised instead.
-/
namespace TopicSync

/-- Which object an event is about. -/
structure ObjectReference where
  apiVersion : String
  kind : String
  name : Option String
  «namespace» : Option String
  uid : Option String
  deriving DecidableEq, Repr

namespace ObjectReference

def ofResource (r : Resource) : ObjectReference :=
  ⟨Resource.apiVersion, Resource.kind, r.metadata.name, r.metadata.namespace, r.metadata.uid⟩

/-- A reference to a resource that need not exist. -/
def dangling (ns : String) (name : ResourceName) : ObjectReference :=
  ⟨Resource.apiVersion, Resource.kind, some name.text, some ns, none⟩

/-- Whether a document refers to an object. -/
def isReference? : Json → Option Unit :=
  Json.textsIn? ["apiVersion", "fieldPath", "kind", "name", "namespace", "resourceVersion", "uid"]

def toJson (r : ObjectReference) : Json :=
  .object <|
    [("apiVersion", .string r.apiVersion), ("kind", .string r.kind)] ++
    Json.memberOf "name" .string r.name ++ Json.memberOf "namespace" .string r.namespace ++
    Json.memberOf "uid" .string r.uid

end ObjectReference

/-- The time at which something is sent, and a text made from it that sets names apart. -/
structure Moment where
  time : String
  stamp : String
  deriving DecidableEq, Repr

structure Event where
  name : String
  note : String
  reason : String
  regarding : ObjectReference
  time : String
  /-- How often it occurred, if more than once, and when last. -/
  series : Option (Nat × String)
  deriving DecidableEq, Repr

namespace Event

def reporter : String := "kafka-topic-operator"

def create (at' : Moment) (reason note : String) (regarding : ObjectReference) : Event where
  name := regarding.name.getD reporter ++ "." ++ at'.stamp
  note := note
  reason := reason
  regarding := regarding
  time := at'.time
  series := none

/-- The event once more. -/
def again (at' : Moment) (e : Event) : Event :=
  { e with series := some ((e.series.map (·.1)).getD 1 + 1, at'.time) }

def toJson (e : Event) : Json :=
  .object <|
    [("apiVersion", .string "events.k8s.io/v1"), ("kind", .string "Event"),
     ("action", .string "Reconcile"), ("eventTime", .string e.time),
     ("metadata", .object (("name", .string e.name) ::
       Json.memberOf "namespace" .string e.regarding.namespace)),
     ("note", .string e.note), ("reason", .string e.reason), ("regarding", e.regarding.toJson),
     ("reportingController", .string reporter), ("reportingInstance", .string reporter),
     ("type", .string "Warning")] ++
    Json.memberOf "series" (fun s : Nat × String =>
      .object [("count", .ofNat s.1), ("lastObservedTime", .string s.2)]) e.series

/-- A series: how often an event occurred, and when last. -/
def isSeries? (j : Json) : Option Unit := do
  let members ← j.asObject?
  let _ ← Json.lastGiven? members "count" Json.asInt32?
  let last ← Json.lastRead? members "lastObservedTime" Timestamp.ofJson?
  guard last.isSome

/-- Whether a document is an event: every member it knows has to be of the right kind. -/
def isEvent? (j : Json) : Option Unit := do
  let members ← j.asObject?
  let _ ← Json.lastRead? members "apiVersion" (Json.asWord? "events.k8s.io/v1")
  let _ ← Json.lastRead? members "kind" (Json.asWord? "Event")
  for name in ["action", "note", "reason", "reportingController", "reportingInstance", "type"] do
    let _ ← Json.lastGiven? members name Json.asString?
  let _ ← Json.lastGiven? members "deprecatedCount" Json.asInt32?
  for name in ["deprecatedFirstTimestamp", "deprecatedLastTimestamp", "eventTime"] do
    let _ ← Json.lastGiven? members name Timestamp.ofJson?
  let _ ← Json.lastGiven? members "deprecatedSource" (Json.textsIn? ["component", "host"])
  let _ ← Json.lastGiven? members "metadata" Metadata.ofJson?
  for name in ["regarding", "related"] do
    let _ ← Json.lastGiven? members name ObjectReference.isReference?
  let _ ← Json.lastGiven? members "series" isSeries?

/-- The path of the events of a namespace. -/
def path (ns : Option String) : String :=
  "/apis/events.k8s.io/v1/namespaces/" ++ ns.getD "default" ++ "/events"

end Event

/-- The events published so far. -/
structure EventLog where
  published : List Event
  deriving DecidableEq, Repr

namespace EventLog

def empty : EventLog := ⟨[]⟩

def find? (l : EventLog) (reason : String) (regarding : ObjectReference) : Option Event :=
  l.published.find? fun e => e.reason = reason ∧ e.regarding = regarding

/-- Remember an event in the place of an earlier one for the same reason and object. -/
def remember (l : EventLog) (e : Event) : EventLog :=
  ⟨e :: l.published.filter fun d => ¬ (d.reason = e.reason ∧ d.regarding = e.regarding)⟩

/-- Publish an event. It is only remembered if that succeeds. -/
def publish (l : EventLog) (at' : Moment) (reason note : String) (regarding : ObjectReference) :
    Api.Session EventLog :=
  let send (e : Event) (method : Method) (path : String) : Api.Session EventLog :=
    (Api.send method path (some []) (some e.toJson)).bind fun reply =>
      match reply.value Event.isEvent? with
      | .ok _ => .done (l.remember e)
      | .error _ => .done l
  match l.find? reason regarding with
  | some before =>
    let e := before.again at'
    send e .patch (Event.path regarding.namespace ++ "/" ++ e.name)
  | none =>
    let e := Event.create at' reason note regarding
    send e .post (Event.path regarding.namespace)

end EventLog

end TopicSync
