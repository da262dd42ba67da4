import TopicSync.Faults
import TopicSync.Memory.Brokers
import TopicSync.Memory.Resources
import TopicSync.Retry
import TopicSync.Store.Hierarchical

/-!
A world for the operator that is kept in memory: brokers, resources and a store over a tree of
nodes, failures arranged in advance, a clock that only waiting advances, and a log of all calls.
-/
namespace TopicSync.Memory

structure Counters where
  reconciliations : Nat
  errors : Nat
  durations : Nat
  droppedTriggers : Nat
  warningEvents : Nat
  lastInFlight : Nat
  maxInFlight : Nat
  deriving DecidableEq, Repr

namespace Counters

def zero : Counters := ⟨0, 0, 0, 0, 0, 0, 0⟩

def count (c : Counters) : Metric → Counters
  | .reconciliation => { c with reconciliations := c.reconciliations + 1 }
  | .error => { c with errors := c.errors + 1 }
  | .duration => { c with durations := c.durations + 1 }
  | .droppedTrigger => { c with droppedTriggers := c.droppedTriggers + 1 }
  | .warningEvent => { c with warningEvents := c.warningEvents + 1 }

/-- Set the gauge of the topics being worked on. -/
def gauge (c : Counters) (n : Nat) : Counters :=
  { c with lastInFlight := n, maxInFlight := max c.maxInFlight n }

end Counters

structure World where
  brokers : Brokers
  resources : Resources
  store : HierarchicalStore
  tree : NodeTree
  faults : Faults Failure
  counters : Counters
  now : Nat
  /-- The calls with their times, the latest first. -/
  log : List (Nat × OperatorCall)

namespace World

def empty : World where
  brokers := .empty
  resources := .empty
  store := .create "kafka-topic-store"
  tree := .empty
  faults := .none
  counters := .zero
  now := 0
  log := []

/-- The world at the beginning of a step: the clock at zero and nothing logged. -/
def rewound (w : World) : World := { w with now := 0, log := [] }

def calls (w : World) : List (Nat × OperatorCall) := w.log.reverse

def note (w : World) (c : OperatorCall) : World := { w with log := (w.now, c) :: w.log }

/-- The failure arranged for a call, if any. -/
def nextFault (w : World) (operation : String) : Option Failure × World :=
  let (e, faults) := w.faults.next operation
  (e, { w with faults := faults })

def brokerOperation : BrokerCall → String
  | .read _ => "kafka.read"
  | .create _ => "kafka.create"
  | .delete _ => "kafka.delete"
  | .updateConfig _ => "kafka.update_config"
  | .increasePartitions _ => "kafka.increase_partitions"
  | .changeReplicationFactor _ => "kafka.change_replication_factor"
  | .describe | .list => "kafka.describe"

def resourceOperation : ResourceCall → String
  | .get _ => "k8s.get"
  | .list => "k8s.list"
  | .create _ => "k8s.create"
  | .update _ => "k8s.update"
  | .delete _ => "k8s.delete"
  | .updateStatus .. => "k8s.update_status"

def storeOperation : StoreCall → String
  | .read _ => "store.read"
  | .create _ => "store.create"
  | .update _ => "store.update"
  | .delete _ => "store.delete"
  | .list => "store.list"

/-- A failure as the store reports it. -/
def storeFailure : Failure → StoreError
  | .store e => e
  | e => .backend e.message

/-- Carry out a call on the store without logging it. -/
def performStore (w : World) (c : StoreCall) : c.Answer × World :=
  let ((answer, store), tree) := (w.store.perform c).run NodeTree.answer w.tree
  (answer, { w with store := store, tree := tree })

/-- Answer a call: it is logged, then fails if that was arranged, and is carried out otherwise. -/
def answer : (c : OperatorCall) → World → c.Answer × World
  | .broker c, w =>
    match (w.note (.broker c)).nextFault (brokerOperation c) with
    | (some e, w) => (.error e, w)
    | (none, w) =>
      let (r, brokers) := Brokers.answer c w.brokers
      (r, { w with brokers := brokers })
  | .resource c, w =>
    match (w.note (.resource c)).nextFault (resourceOperation c) with
    | (some e, w) => (.error e, w)
    | (none, w) =>
      let (r, resources) := Resources.answer c w.resources
      (r, { w with resources := resources })
  | .store c, w =>
    match (w.note (.store c)).nextFault (storeOperation c) with
    | (some e, w) => (.error (storeFailure e), w)
    | (none, w) => w.performStore c
  | .warn x, w => ((), w.note (.warn x))
  | .wait ms, w => ((), { w with now := w.now + slept ms })
  | .count m, w => ((), { w with counters := w.counters.count m })

/-- The texts of the records, by topic name. -/
def records (w : World) : TextMap String :=
  match w.tree.children w.store.root with
  | .error _ => .empty
  | .ok names =>
    TextMap.ofList <| names.filterMap fun name =>
      (w.tree.nodes.get? (w.store.root ++ "/" ++ name)).map fun node => (name, node.data)

/-- Put a snapshot into the store, whether there is one or not. -/
def putRecord (w : World) (t : Topic) : Except StoreError Unit × World :=
  match w.performStore (.create t) with
  | (.error (.alreadyExists _), w) => w.performStore (.update t)
  | r => r

/-- Put a record with a given text into the store, under a name that need not be a topic's. -/
def putRaw (w : World) (name record : String) : Except NodeError Unit × World :=
  let (_, w) := w.performStore .list
  let (r, tree) := w.tree.create (w.store.root ++ "/" ++ name) record
  (r, { w with tree := tree })

end World

end TopicSync.Memory
