import TopicSync.Api.Answer
import TopicSync.Api.Event

/-!
The resources of one namespace, as the API server serves them. An update replaces what it has just
read, so that the server can refuse it if someone else was faster.
-/
namespace TopicSync

structure Gateway where
  «namespace» : String
  managed : Selector
  moment : Moment

namespace Gateway

def fieldManager : String := "kafka-topic-operator"

/-- The path of the resources of a namespace. -/
def collection (ns : String) : String :=
  "/apis/" ++ Resource.apiVersion ++ "/namespaces/" ++ ns ++ "/kafkatopics"

def path (g : Gateway) (name : String) : String := collection g.namespace ++ "/" ++ name

/-- The answer that a result from the server amounts to. -/
def answer (f : α → β) (r : Except ApiError α) : Except Failure β :=
  match r with
  | .ok a => .ok (f a)
  | .error e => .error (.api e)

def get (g : Gateway) (name : ResourceName) : Api.Session (Except Failure (Option Resource)) :=
  (Api.sendAbout name.text .get (g.path name.text) none none).bind fun r =>
    .done (answer id (r.valueIfFound Resource.ofJson?))

def list (g : Gateway) : Api.Session (Except Failure (List Resource)) :=
  (Api.send .get (collection g.namespace) (some [("labelSelector", g.managed.text)]) none).bind
    fun r => .done (answer Api.Listing.items (r.value (Api.Listing.ofJson? Resource.ofJson?)))

def create (g : Gateway) (t : Topic) : Api.Session (Except Failure Unit) :=
  let body := (Resource.ofTopic t g.namespace).toJson
  (Api.send .post (collection g.namespace) (some []) (some body)).bind
    fun r => .done (answer (fun _ => ()) (r.value Resource.ofJson?))

def update (g : Gateway) (t : Topic) : Api.Session (Except Failure Unit) :=
  let name := t.resourceName.text
  (Api.sendAbout name .get (g.path name) none none).bind fun r =>
    match r.value Resource.ofJson? with
    | .error e => .done (.error (.api e))
    | .ok current =>
      let body := (current.withTopic t).toJson
      let parameters := [("fieldManager", fieldManager)]
      (Api.sendAbout name .put (g.path name) (some parameters) (some body)).bind
        fun r => .done (answer (fun _ => ()) (r.value Resource.ofJson?))

/-- Delete a resource; one that is gone already is as good as deleted. -/
def delete (g : Gateway) (name : ResourceName) : Api.Session (Except Failure Unit) :=
  (Api.sendAbout name.text .delete (g.path name.text) (some []) (some (.object []))).bind fun r =>
    match r.value (Api.deletion? Resource.ofJson?) with
    | .ok _ => .done (.ok ())
    | .error e => .done (if e.code? = some 404 then .ok () else .error (.api e))

def updateStatus (g : Gateway) (name : ResourceName) (report : Report) :
    Api.Session (Except Failure Unit) :=
  let body := Json.object [("status", (report.status g.moment.time).toJson)]
  (Api.sendAbout name.text .patch (g.path name.text ++ "/status") (some []) (some body)).bind
    fun r => .done (answer (fun _ => ()) (r.value Resource.ofJson?))

/-- Carry out a call. -/
def perform (g : Gateway) : (c : ResourceCall) → Api.Session c.Answer
  | .get name => g.get name
  | .list => g.list
  | .create t => g.create t
  | .update t => g.update t
  | .delete name => g.delete name
  | .updateStatus name report => g.updateStatus name report

/-- Publish a warning; it is about the object if that is at hand. -/
def warn (g : Gateway) (l : EventLog) (w : Warning) : Api.Session EventLog :=
  let regarding := match w.live with
    | some r => ObjectReference.ofResource r
    | none => ObjectReference.dangling g.namespace w.resource
  l.publish g.moment w.reason w.message regarding

end Gateway

end TopicSync
