import TopicSync.Proofs.Resource.Validation
import TopicSync.Proofs.Topic.Fields

/-!
What becomes of a snapshot that is written into a resource, a new one or the one that has its name.
If it keeps to the limits on what a resource may say then it is read back, with the labels that the
resource has by then; else the resource is turned down.
-/
namespace TopicSync

/-- Whether a resource may say so of a field: it may ask for at most 100000 partitions, and for
entries with keys of 1 to 255 bytes and values of at most 4096 bytes. -/
def Field.Allows : Field → FieldValue → Prop
  | .partitions, .count n => n ≤ 100000
  | .config k, .entry (some v) => k ≠ "" ∧ k.utf8ByteSize ≤ 255 ∧ v.utf8ByteSize ≤ 4096
  | _, _ => True

/-- All that the snapshot says may be said by a resource. -/
def Topic.WithinLimits (t : Topic) : Prop := ∀ f : Field, f.Allows (t.value f)

theorem Topic.withinLimits_iff {t : Topic} :
    t.WithinLimits ↔ t.partitions.val ≤ 100000 ∧ ∀ k v, (k, v) ∈ t.config.toList →
      k ≠ "" ∧ k.utf8ByteSize ≤ 255 ∧ v.utf8ByteSize ≤ 4096 := by
  have hconfig : ∀ k, (Field.config k).Allows (t.value (.config k)) ↔
      ∀ v, (k, v) ∈ t.config.toList →
        k ≠ "" ∧ k.utf8ByteSize ≤ 255 ∧ v.utf8ByteSize ≤ 4096 := by
    intro k
    simp only [Topic.value, ← TextMap.get?_eq_some_iff]
    cases t.config.get? k <;> simp [Field.Allows]
  simp only [WithinLimits, Field.forall_iff, hconfig]
  simp [Field.Allows, Topic.value]

namespace Resource

variable {r : Resource} {t : Topic}

/-- A snapshot's specification gives no cause for complaint just if it keeps to the limits. -/
theorem accepted_specOf_iff : (specOf t).Accepted ↔ t.WithinLimits := by
  rw [Topic.withinLimits_iff]
  constructor
  · intro h
    have hpartitions : (t.partitions.val : Int) ≤ 100000 := h.partitions.2
    exact ⟨by omega, h.config⟩
  · rintro ⟨hpartitions, hconfig⟩
    have hp := t.partitions.pos
    have hr := t.replicationFactor.pos
    have hle := t.replicationFactor.le
    refine ⟨fun n hn => ?_, ?_, ?_, hconfig⟩
    · rw [specOf] at hn
      split at hn
      · cases hn
      · cases hn
        exact t.name.length_text
    · show 1 ≤ (t.partitions.val : Int) ∧ (t.partitions.val : Int) ≤ 100000
      omega
    · show 1 ≤ (t.replicationFactor.val : Int) ∧ (t.replicationFactor.val : Int) ≤ 32767
      omega

instance (t : Topic) : Decidable t.WithinLimits :=
  decidable_of_iff ((specOf t).complaints = [])
    (Spec.complaints_eq_nil_iff.trans accepted_specOf_iff)

/-- What became of a snapshot once it is in a resource: it is read back, with the labels that the
resource has, or the resource is turned down. -/
structure Holds (r : Resource) (t : Topic) : Prop where
  accepted : t.WithinLimits → r.toTopic = .ok { t with labels := some r.labels }
  rejected : ¬ t.WithinLimits → ∃ why, r.toTopic = .error (.invalidResource t.resourceName.text why)

section Written

variable (hname : r.nameText = t.resourceName.text) (hspec : r.spec = specOf t)

include hname hspec

/-- The topic's name is left out of the specification only where the resource's name stands for
it. -/
theorem topicText_of_specOf : r.topicText = t.name.text := by
  rw [topicText, hspec]
  by_cases hn : t.name.text = t.resourceName.text <;> simp [specOf, hn, hname]

theorem gives_of_specOf : r.Gives { t with labels := some r.labels } where
  name := (topicText_of_specOf hname hspec).symm
  resourceName := hname.symm
  partitions := by rw [hspec]; rfl
  replicas := by rw [hspec]; rfl
  config := by rw [hspec]; rfl
  labels := rfl

theorem holds_of_specOf : r.Holds t := by
  constructor
  · intro h
    have ha : r.spec.Accepted := hspec ▸ accepted_specOf_iff.2 h
    exact toTopic_of_gives ha (gives_of_specOf hname hspec)
  · intro h
    have ha : ¬ r.spec.Accepted := hspec ▸ mt accepted_specOf_iff.1 h
    have hreading := reading_toTopic r
    rw [← hname]
    cases hr : r.toTopic with
    | ok u => exact absurd (gives_of_toTopic hr).1 ha
    | error e =>
      rw [hr] at hreading
      cases hreading with
      | complained => exact ⟨_, rfl⟩
      | misnamed => exact ⟨_, rfl⟩

end Written

theorem topicText_ofTopic (t : Topic) (ns : String) : (ofTopic t ns).topicText = t.name.text :=
  topicText_of_specOf rfl rfl

theorem topicText_withTopic (h : r.nameText = t.resourceName.text) :
    (r.withTopic t).topicText = t.name.text :=
  topicText_of_specOf h rfl

theorem holds_ofTopic (t : Topic) (ns : String) : (ofTopic t ns).Holds t :=
  holds_of_specOf rfl rfl

theorem holds_withTopic (h : r.nameText = t.resourceName.text) : (r.withTopic t).Holds t :=
  holds_of_specOf h rfl

/-- What has been read from a resource keeps to the limits. -/
theorem withinLimits_of_toTopic (h : r.toTopic = .ok t) : t.WithinLimits := by
  obtain ⟨ha, hg⟩ := gives_of_toTopic h
  have hpartitions := hg.partitions ▸ ha.partitions.2
  refine Topic.withinLimits_iff.2 ⟨by omega, ?_⟩
  rw [hg.config]
  exact ha.config

theorem labels_withTopic (r : Resource) (t : Topic) :
    (r.withTopic t).labels = t.labels.getD r.labels := by
  cases hl : t.labels <;> simp [labels, withTopic, hl]

theorem withTopic_withTopic (r : Resource) (t : Topic) :
    (r.withTopic t).withTopic t = r.withTopic t := by
  cases hl : t.labels <;> simp [withTopic, hl]

/-- Writing a snapshot into a resource and reading it back cancel out. A new resource for a snapshot
whose labels are known gives the snapshot. Writing into the resource that has the snapshot's name
keeps all but the specification and the labels, gives the snapshot with the labels that were there
if it knows none of its own, and changes nothing when it is done again. -/
theorem mapping_round_trips (t : Topic) (hpartitions : t.partitions.val ≤ 100000)
    (hconfig : ∀ k v, (k, v) ∈ t.config.toList →
      1 ≤ k.utf8ByteSize ∧ k.utf8ByteSize ≤ 255 ∧ v.utf8ByteSize ≤ 4096) :
    (∀ ls ns, t.labels = some ls → (ofTopic t ns).toTopic = .ok t) ∧
    ∀ current : Resource, current.nameText = t.resourceName.text →
      (current.withTopic t).status = current.status ∧
      { (current.withTopic t).metadata with labels := current.metadata.labels } =
        current.metadata ∧
      (current.withTopic t).toTopic =
        .ok { t with labels := some (t.labels.getD current.labels) } ∧
      (current.withTopic t).withTopic t = current.withTopic t := by
  have hlimits : t.WithinLimits := by
    refine Topic.withinLimits_iff.2 ⟨hpartitions, fun k v hm => ?_⟩
    obtain ⟨hpos, hkey, hvalue⟩ := hconfig k v hm
    refine ⟨?_, hkey, hvalue⟩
    rintro rfl
    exact absurd hpos (by decide)
  constructor
  · intro ls ns hls
    have hlabels : (ofTopic t ns).labels = ls := by rw [labels, ofTopic, hls, Option.getD_some]
    rw [(holds_ofTopic t ns).accepted hlimits, hlabels, ← hls]
  · intro current hname
    refine ⟨rfl, rfl, ?_, withTopic_withTopic current t⟩
    rw [(holds_withTopic hname).accepted hlimits, labels_withTopic]

/-- A snapshot of unknown labels whose resource is not called like the topic. -/
def billing : Topic where
  name := ⟨"Billing_EU", by decide⟩
  resourceName := ⟨"billing"⟩
  partitions := ⟨100000, by decide, by decide⟩
  replicationFactor := ⟨32767, by decide, by decide⟩
  config := .ofList [("retention.ms", ""), ("ключ", "значение")]
  labels := none

/-- What stands under that name so far: another topic, with labels and a status. -/
def billingResource : Resource where
  metadata := { Metadata.empty with
    name := some "billing"
    generation := some 7
    labels := some (.ofList [("team", "eu")])
    resourceVersion := some "42" }
  spec := ⟨none, 0, 0, .empty⟩
  status := some ⟨"NotReady", "", 6, [], none⟩

theorem mapping_round_trips_billing :
    billing.partitions.val ≤ 100000 ∧
    (∀ k v, (k, v) ∈ billing.config.toList →
      1 ≤ k.utf8ByteSize ∧ k.utf8ByteSize ≤ 255 ∧ v.utf8ByteSize ≤ 4096) ∧
    billingResource.nameText = billing.resourceName.text ∧
    (billingResource.withTopic billing).toTopic =
      .ok { billing with labels := some (.ofList [("team", "eu")]) } ∧
    (ofTopic { billing with labels := some .empty } "kafka").toTopic =
      .ok { billing with labels := some .empty } := by
  have hconfig : ∀ k v, (k, v) ∈ billing.config.toList →
      1 ≤ k.utf8ByteSize ∧ k.utf8ByteSize ≤ 255 ∧ v.utf8ByteSize ≤ 4096 := by
    have hall : ∀ e ∈ billing.config.toList,
        1 ≤ e.1.utf8ByteSize ∧ e.1.utf8ByteSize ≤ 255 ∧ e.2.utf8ByteSize ≤ 4096 := by
      decide +kernel
    exact fun k v hm => hall (k, v) hm
  have hname : billingResource.nameText = billing.resourceName.text := rfl
  have hwritten := (mapping_round_trips billing (by decide) hconfig).2 billingResource hname
  have hnew := (mapping_round_trips { billing with labels := some .empty } (by decide) hconfig).1
    .empty "kafka" rfl
  exact ⟨by decide, hconfig, hname, hwritten.2.2.1, hnew⟩

end Resource

end TopicSync
