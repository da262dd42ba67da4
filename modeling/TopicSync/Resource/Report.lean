import TopicSync.Resource.Basic

/-!
What the operator reports on a resource, and the status in which it does so.
-/
namespace TopicSync

/-- A report on one generation of a resource. -/
inductive Report where
  /-- The topic and the resource agree. -/
  | ready (generation : Int)
  | failed (generation : Int) (e : Failure)
  deriving DecidableEq, Repr

namespace Status

/-- A status with one condition, both of the given time. -/
def withCondition (phase verdict reason message : String) (generation : Int) (now : String) :
    Status where
  phase := phase
  message := message
  observedGeneration := generation
  conditions := [⟨"Ready", verdict, reason, message, now⟩]
  lastSyncTime := some now

/-- The status already says that this generation is in order. -/
def isReadyFor (s : Status) (generation : Int) : Bool :=
  s.phase = "Ready" && s.observedGeneration = generation

/-- Whether the status has a time and every condition changed at that time. -/
def isTimed (s : Status) : Bool :=
  match s.lastSyncTime with
  | some t => s.conditions.all fun c => c.lastTransitionTime = t
  | none => false

end Status

namespace Report

/-- The status that carries a report, written at a given time. -/
def status (now : String) : Report → Status
  | ready g => .withCondition "Ready" "True" "Reconciled" "Topic is in sync with Kafka" g now
  | failed g e => .withCondition "NotReady" "False" e.reason e.message g now

end Report

end TopicSync
