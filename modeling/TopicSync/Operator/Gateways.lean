import TopicSync.Program
import TopicSync.Resource.Report
import TopicSync.Store.Basic
import TopicSync.Watch.TopicView

/-!
What the operator asks of the outside world: the brokers, the cluster's API, the store of converged
topics, and the passing of time.
-/
namespace TopicSync

inductive BrokerCall where
  | read (name : TopicName)
  | create (t : Topic)
  | delete (name : TopicName)
  | updateConfig (t : Topic)
  | increasePartitions (t : Topic)
  | changeReplicationFactor (t : Topic)
  | describe
  | list
  deriving DecidableEq, Repr

namespace BrokerCall

def Value : BrokerCall → Type
  | read _ => Option Topic
  | create _ | delete _ | updateConfig _ | increasePartitions _ | changeReplicationFactor _ => Unit
  | describe => TopicListing
  | list => List TopicName

abbrev Answer (c : BrokerCall) : Type := Except Failure c.Value

end BrokerCall

inductive ResourceCall where
  | get (name : ResourceName)
  | list
  | create (t : Topic)
  | update (t : Topic)
  | delete (name : ResourceName)
  | updateStatus (name : ResourceName) (r : Report)
  deriving DecidableEq, Repr

namespace ResourceCall

def Value : ResourceCall → Type
  | get _ => Option Resource
  | list => List Resource
  | create _ | update _ | delete _ | updateStatus .. => Unit

abbrev Answer (c : ResourceCall) : Type := Except Failure c.Value

end ResourceCall

/-- A warning event about a resource, whose object is attached if it is at hand. -/
structure Warning where
  resource : ResourceName
  live : Option Resource
  reason : String
  message : String
  deriving DecidableEq, Repr

/-- What is counted. -/
inductive Metric where
  | reconciliation
  | error
  | duration
  | droppedTrigger
  | warningEvent
  deriving DecidableEq, Repr

inductive OperatorCall where
  | broker (c : BrokerCall)
  | resource (c : ResourceCall)
  | store (c : StoreCall)
  /-- Publish an event; nothing is learnt of how that went. -/
  | warn (w : Warning)
  | wait (ms : Nat)
  | count (m : Metric)
  deriving DecidableEq, Repr

namespace OperatorCall

def Answer : OperatorCall → Type
  | broker c => c.Answer
  | resource c => c.Answer
  | store c => c.Answer
  | warn _ | wait _ | count _ => Unit

end OperatorCall

abbrev operatorInterface : Interface := ⟨OperatorCall, OperatorCall.Answer⟩

/-- A program of the operator. -/
abbrev Task (α : Type) : Type := Program operatorInterface α

namespace Task

def broker (c : BrokerCall) : Task c.Answer := .ask (OperatorCall.broker c) .done
def resource (c : ResourceCall) : Task c.Answer := .ask (OperatorCall.resource c) .done
def store (c : StoreCall) : Task c.Answer := .ask (OperatorCall.store c) .done
def wait (ms : Nat) : Task Unit := .ask (OperatorCall.wait ms) .done
def count (m : Metric) : Task Unit := .ask (OperatorCall.count m) .done

/-- Count a warning and publish it. -/
def warn (w : Warning) : Task Unit :=
  .ask (OperatorCall.count .warningEvent) fun _ => .ask (OperatorCall.warn w) .done

end Task

end TopicSync
