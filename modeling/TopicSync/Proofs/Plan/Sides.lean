import TopicSync.Memory.Brokers
import TopicSync.Proofs.Plan.Merge

/-!
The record, the resource and the brokers' snapshot of one topic as a state that actions change. An
action replaces the side it is about, or one field of the brokers' snapshot.
-/
namespace TopicSync

/-- The three sides of a topic. A resource always has labels, be there none of them, and brokers
know of no labels. -/
@[ext]
structure Sides where
  stored : Option Topic
  resource : Option Topic
  kafka : Option Topic
  labelled : ∀ t ∈ resource, t.labels.isSome
  unlabelled : ∀ t ∈ kafka, t.labels = none

namespace Sides

def plan (managed : Selector) (s : Sides) : Except Failure Plan :=
  Plan.make managed s.stored s.resource s.kafka

def setStored (s : Sides) (t : Option Topic) : Sides := { s with stored := t }

/-- Put a snapshot in the place of the resource; the labels are those it has from now on. -/
def setResource (s : Sides) (t : Topic) (labels : TextMap String) : Sides :=
  { s with
    resource := some { t with labels := some labels }
    labelled := by rintro _ ⟨⟩; rfl }

def dropResource (s : Sides) : Sides :=
  { s with resource := none, labelled := by rintro _ ⟨⟩ }

def setKafka (s : Sides) (t : Topic) : Sides :=
  { s with
    kafka := some (Memory.Brokers.known t)
    unlabelled := by rintro _ ⟨⟩; rfl }

def dropKafka (s : Sides) : Sides :=
  { s with kafka := none, unlabelled := by rintro _ ⟨⟩ }

/-- Change the topic that the brokers hold, which has no labels and gets none. -/
def changeKafka (s : Sides) (f : Topic → Topic) (h : ∀ t, (f t).labels = t.labels) : Sides :=
  { s with
    kafka := s.kafka.map f
    unlabelled := by
      intro t ht
      obtain ⟨k, hk, rfl⟩ := Option.map_eq_some_iff.1 ht
      exact (h k).trans (s.unlabelled k hk) }

/-- What becomes of the sides when an action about their topic succeeds. A resource keeps its labels
in an update that knows none. -/
def carryOut (s : Sides) : Action → Sides
  | .createKafkaTopic t => s.setKafka t
  | .deleteKafkaTopic _ => s.dropKafka
  | .changeReplicationFactor t =>
    s.changeKafka (fun k => { k with replicationFactor := t.replicationFactor }) fun _ => rfl
  | .updateKafkaConfig t => s.changeKafka (fun k => { k with config := t.config }) fun _ => rfl
  | .increaseKafkaPartitions t =>
    s.changeKafka (fun k => { k with partitions := t.partitions }) fun _ => rfl
  | .createResource t => s.setResource t t.labelsOrEmpty
  | .updateResource t =>
    s.setResource t (t.labels.getD (s.resource.elim .empty Topic.labelsOrEmpty))
  | .deleteResource _ => s.dropResource
  | .createStored t | .updateStored t => s.setStored (some t)
  | .deleteStored _ => s.setStored none
  | .warn _ _ => s

/-- Carry out actions in turn. -/
def carryOutAll (s : Sides) (actions : List Action) : Sides := actions.foldl carryOut s

@[simp] theorem carryOutAll_nil (s : Sides) : s.carryOutAll [] = s := rfl

@[simp] theorem carryOutAll_cons (s : Sides) (a : Action) (as : List Action) :
    s.carryOutAll (a :: as) = (s.carryOut a).carryOutAll as := rfl

theorem carryOutAll_append (s : Sides) (as bs : List Action) :
    s.carryOutAll (as ++ bs) = (s.carryOutAll as).carryOutAll bs :=
  List.foldl_append

end Sides

/-- Brokers that hold what a snapshot says have edited nothing. -/
theorem Topic.SameShape.not_edits {k t : Topic} (h : k.SameShape t) (hk : k.labels = none)
    (f : Field) : ¬ k.Edits t f := by
  intro he
  cases f with
  | label key => exact not_edits_label hk key he
  | _ => exact he.2 (sameShape_iff.1 h _ rfl)

theorem Topic.sameShape_of_not_edits {k t : Topic} (h : ∀ f, ¬ k.Edits t f) : k.SameShape t := by
  refine sameShape_iff.2 fun f hl => ?_
  simpa [edits_iff_of_not_label hl] using h f

/-- A snapshot with another one's partitions, replication factor and configuration. -/
def Topic.reshape (t result : Topic) : Topic :=
  { t with
    partitions := result.partitions
    replicationFactor := result.replicationFactor
    config := result.config }

theorem Topic.sameShape_reshape (t result : Topic) : (t.reshape result).SameShape result :=
  ⟨rfl, rfl, rfl⟩

namespace Plan

variable {managed : Selector} {stored resource kafka : Topic}

/-- With all three sides present and in agreement nothing is done. -/
theorem make_of_agreement (hk : kafka.labels = none) (hs : kafka.SameShape stored)
    (hr : ∀ f, resource.value f = stored.value f) :
    make managed (some stored) (some resource) (some kafka) = .ok ⟨.merge, []⟩ := by
  have ha : mergeActions stored resource kafka = .ok [] :=
    mergeActions_of_not_edits fun f => ⟨hs.not_edits hk f, fun he => he.2 (hr f)⟩
  simp [make, ha]

/-- A resource and brokers in agreement only lack their record. -/
theorem make_of_sameShape (hk : kafka.labels = none) (hs : kafka.SameShape resource) :
    make managed none (some resource) (some kafka) =
      .ok ⟨.recordConverged, [.createStored resource]⟩ := by
  have he := TopicDiff.isEmpty_between_iff.2 (hs.not_edits hk)
  simp [make, he]

end Plan

end TopicSync
