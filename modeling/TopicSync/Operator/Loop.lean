import TopicSync.Ledger
import TopicSync.Operator.Sweep
import TopicSync.Trigger

/-!
The trigger loop as a state machine. A trigger starts work unless its topic is internal or being
worked on already; finished work leaves the loop, and may offer further triggers. In which order
work finishes, and with what result, is up to the world.
-/
namespace TopicSync

/-- Work that a trigger starts. -/
inductive Work where
  | attempt (topic : TopicName) (resource : Option ResourceName) (cause : String)
  | sweep
  | reject (resource : ResourceName) (reason : String)
  deriving DecidableEq, Repr

/-- How work ended. -/
inductive Completion where
  | reconciled (topic : TopicName) (result : Except Failure (Option Decision))
  | swept (subjects : List (TopicName × Option ResourceName))
  | rejected

/-- The program of some work. -/
def Work.task (o : Operator) : Work → Task Completion
  | attempt topic resource _ =>
    (o.reconcile topic resource).bind fun r => .done (.reconciled topic r)
  | sweep => o.sweep.bind fun subjects => .done (.swept subjects)
  | reject resource reason => (Operator.reject resource reason).bind fun _ => .done .rejected

/-- What becomes of a trigger. -/
inductive Admission where
  | started (w : Work)
  | dropped
  | ignored
  deriving DecidableEq, Repr

/-- Decide about a trigger. -/
def Ledger.admission (l : Ledger) (t : Trigger) : Admission × Ledger :=
  match t with
  | .sweep => (.started .sweep, l)
  | .resourceRejected resource reason => (.started (.reject resource reason), l)
  | t =>
    match t.topic? with
    | none => (.ignored, l)
    | some topic =>
      if topic.isInternal then (.ignored, l)
      else match l.admit? topic t.cause with
        | none => (.dropped, l)
        | some l => (.started (.attempt topic t.resource? t.cause), l)

/-- The triggers that finished work gives rise to: another look after a lost race to create a
topic, and all that a sweep has found. -/
def Completion.followUps : Completion → List Trigger
  | reconciled topic (.error e) => if e.isCreateRace then [.resync topic none] else []
  | reconciled _ (.ok _) => []
  | swept subjects => subjects.map fun s => .resync s.1 s.2
  | rejected => []

/-- The ledger once the work is out of it. -/
def Completion.leave (c : Completion) (l : Ledger) : Ledger :=
  match c with
  | reconciled topic _ => l.complete topic
  | _ => l

/-- The ledger and the work under way, each piece under a number of its own. -/
structure Loop where
  ledger : Ledger
  running : List (Nat × Work)
  next : Nat
  /-- Triggers dropped because their topic was being worked on. -/
  dropped : Nat
  deriving DecidableEq, Repr

namespace Loop

def empty : Loop := ⟨.empty, [], 0, 0⟩

/-- Take in a trigger. -/
def offer (l : Loop) (t : Trigger) : Loop :=
  match l.ledger.admission t with
  | (.started w, ledger) =>
    { l with ledger := ledger, running := l.running ++ [(l.next, w)], next := l.next + 1 }
  | (.dropped, ledger) => { l with ledger := ledger, dropped := l.dropped + 1 }
  | (.ignored, ledger) => { l with ledger := ledger }

/-- Take in the end of the work under a number. -/
def complete (l : Loop) (id : Nat) (c : Completion) : Loop :=
  let l := { l with ledger := c.leave l.ledger, running := l.running.filter (·.1 ≠ id) }
  c.followUps.foldl offer l

end Loop

end TopicSync
