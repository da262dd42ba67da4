import TopicSync.Operator.Gateways
import TopicSync.Plan
import TopicSync.Visibility

/-!
One attempt at reconciling a topic: read the record, the resource and the topic, plan, carry out
the plan until something fails, and report how it went.
-/
namespace TopicSync

/-- What the operator goes by: which resources it manages, and how it waits for new topics. -/
structure Operator where
  managed : Selector
  retry : RetrySettings

/-- The resource an attempt is about, with its object once that has been read and is managed. -/
structure Subject where
  resource : ResourceName
  live : Option Resource
  deriving DecidableEq, Repr

namespace Operator

/-- The resource to look at: the one that was named, else that of the record, else the derived
one. -/
def resourceFor (topic : TopicName) (named : Option ResourceName) (stored : Option Topic) :
    ResourceName :=
  (named.or (stored.map Topic.resourceName)).getD topic.resourceName

/-- The snapshot that the live resource describes, which must be one of this topic. -/
def described (topic : TopicName) (s : Subject) : Except Failure (Option Topic) :=
  match s.live with
  | none => .ok none
  | some r =>
    match r.toTopic with
    | .error e => .error e
    | .ok t =>
      if t.name = topic then .ok (some t)
      else .error <| .invalidResource s.resource.text
        s!"describes topic '{t.name.text}', but is the resource of topic '{topic.text}'"

def warning (s : Subject) (reason message : String) : Warning :=
  ⟨s.resource, s.live, reason, message⟩

/-- Carry out one action. A new topic counts as created once the brokers show it. -/
def execute (o : Operator) (s : Subject) : Action → Task (Except Failure Unit)
  | .createKafkaTopic t =>
    (Task.broker (.create t)).bind fun
      | .error e => .done (.error e)
      | .ok _ =>
        (Visibility.await o.retry t.name.text (Task.broker (.read t.name)) Task.wait).bind fun
          | .error e => .done (.error e)
          | .ok _ => .done (.ok ())
  | .deleteKafkaTopic name => Task.broker (.delete name)
  | .changeReplicationFactor t => Task.broker (.changeReplicationFactor t)
  | .updateKafkaConfig t => Task.broker (.updateConfig t)
  | .increaseKafkaPartitions t => Task.broker (.increasePartitions t)
  | .createResource t => Task.resource (.create t)
  | .updateResource t => Task.resource (.update t)
  | .deleteResource name => Task.resource (.delete name)
  | .createStored t => (Task.store (.create t)).bind fun r => .done (r.mapError .store)
  | .updateStored t => (Task.store (.update t)).bind fun r => .done (r.mapError .store)
  | .deleteStored name => (Task.store (.delete name)).bind fun r => .done (r.mapError .store)
  | .warn reason message => (Task.warn (warning s reason message)).bind fun _ => .done (.ok ())

/-- The part of an attempt after the resource has been read. -/
def settle (o : Operator) (topic : TopicName) (stored : Option Topic) (s : Subject) :
    Task (Except Failure (Option Decision)) :=
  match described topic s with
  | .error e => .done (.error e)
  | .ok wanted =>
    (Task.broker (.read topic)).bind fun
      | .error e => .done (.error e)
      | .ok kafka =>
        match Plan.make o.managed stored wanted kafka with
        | .error e => .done (.error e)
        | .ok plan =>
          (Program.forAll (o.execute s) plan.actions).bind fun
            | .error e => .done (.error e)
            | .ok _ => .done (.ok (some plan.decision))

/-- An attempt without its reports: what it was about and its result, which is `none` if the
resource is not managed. -/
def attempt (o : Operator) (topic : TopicName) (named : Option ResourceName) :
    Task (Subject × Except Failure (Option Decision)) :=
  (Task.store (.read topic)).bind fun
    | .error e => .done (⟨resourceFor topic named none, none⟩, .error (.store e))
    | .ok stored =>
      let resource := resourceFor topic named stored
      (Task.resource (.get resource)).bind fun
        | .error e => .done (⟨resource, none⟩, .error e)
        | .ok live =>
          if live.any fun r => !r.isManaged o.managed then .done (⟨resource, none⟩, .ok none)
          else (o.settle topic stored ⟨resource, live⟩).bind fun r =>
            .done (⟨resource, live⟩, r)

/-- Write a status; that it may fail is of no consequence. -/
def report (resource : ResourceName) (r : Report) : Task Unit :=
  (Task.resource (.updateStatus resource r)).bind fun _ => .done ()

/-- Report that the resource is in order, unless it was deleted or its status says so already. -/
def reportReady (s : Subject) (d : Decision) : Task Unit :=
  match s.live with
  | none => .done ()
  | some r =>
    if d = .deleteResource ∨ r.status.any (·.isReadyFor r.generation) then .done ()
    else report s.resource (.ready r.generation)

def reportFailure (s : Subject) (e : Failure) : Task Unit :=
  match s.live with
  | none => .done ()
  | some r => report s.resource (.failed r.generation e)

/-- One attempt with its reports and counts. -/
def reconcile (o : Operator) (topic : TopicName) (named : Option ResourceName) :
    Task (Except Failure (Option Decision)) :=
  (Task.count .reconciliation).bind fun _ =>
  (o.attempt topic named).bind fun (s, result) =>
  (Task.count .duration).bind fun _ =>
    match result with
    | .ok none => .done result
    | .ok (some d) => (reportReady s d).bind fun _ => .done result
    | .error e =>
      (Task.count .error).bind fun _ =>
      (Task.warn (warning s e.reason e.message)).bind fun _ =>
      (reportFailure s e).bind fun _ => .done result

/-- Report on a resource that describes no legal topic. -/
def reject (resource : ResourceName) (reason : String) : Task Unit :=
  (Task.resource (.get resource)).bind fun answer =>
    let s : Subject := ⟨resource, match answer with
      | .ok live => live
      | .error _ => none⟩
    (Task.warn (warning s "InvalidTopicName" reason)).bind fun _ =>
      reportFailure s (.invalidResource resource.text reason)

end Operator

end TopicSync
