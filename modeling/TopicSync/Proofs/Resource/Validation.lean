import TopicSync.Proofs.Topic.Name
import TopicSync.Proofs.Topic.Record
import TopicSync.Resource.Basic

/-!
Which resources are accepted, and what is read from them. The fields of the specification are looked
at first, some in characters and some in bytes; then come the topic's name, the width of the replica
count and the counts of the snapshot. Together these accept just the legal resources, and of those
that come after the fields only the name ever turns a resource down.
-/
namespace TopicSync

namespace Spec

variable {s : Spec}

theorem configComplaint?_eq_none_iff {es : List (String × String)} :
    configComplaint? es = none ↔
      ∀ k v, (k, v) ∈ es → k ≠ "" ∧ k.utf8ByteSize ≤ 255 ∧ v.utf8ByteSize ≤ 4096 := by
  induction es with
  | nil => simp [configComplaint?]
  | cons e es ih =>
    obtain ⟨k, v⟩ := e
    have hkey : ¬ (k.isEmpty = true ∨ 255 < k.utf8ByteSize) ↔ k ≠ "" ∧ k.utf8ByteSize ≤ 255 := by
      rw [String.isEmpty_iff, not_or, Nat.not_lt]
    rw [configComplaint?]
    split
    next hk =>
      refine iff_of_false nofun fun h => ?_
      obtain ⟨hne, hsize, -⟩ := h k v List.mem_cons_self
      exact hkey.2 ⟨hne, hsize⟩ hk
    next hk =>
      obtain ⟨hne, hsize⟩ := hkey.1 hk
      split
      next hv =>
        refine iff_of_false nofun fun h => ?_
        exact absurd (h k v List.mem_cons_self).2.2 (Nat.not_le_of_lt hv)
      next hv =>
        rw [ih]
        constructor
        · intro h k' v' hm
          rcases List.mem_cons.1 hm with heq | hm
          · cases heq
            exact ⟨hne, hsize, Nat.le_of_not_lt hv⟩
          · exact h k' v' hm
        · exact fun h k' v' hm => h k' v' (List.mem_cons_of_mem _ hm)

theorem topicNameComplaint?_eq_none_iff :
    s.topicNameComplaint? = none ↔ ∀ n ∈ s.topicName, 1 ≤ n.length ∧ n.length ≤ 249 := by
  rw [topicNameComplaint?]
  cases s.topicName with
  | none => simp
  | some n => by_cases h : 1 ≤ n.length ∧ n.length ≤ 249 <;> simp [h]

theorem partitionsComplaint?_eq_none_iff :
    s.partitionsComplaint? = none ↔ 1 ≤ s.partitions ∧ s.partitions ≤ 100000 := by
  rw [partitionsComplaint?]
  by_cases h : 1 ≤ s.partitions ∧ s.partitions ≤ 100000 <;> simp [h]

theorem replicasComplaint?_eq_none_iff :
    s.replicasComplaint? = none ↔ 1 ≤ s.replicas ∧ s.replicas ≤ 32767 := by
  rw [replicasComplaint?]
  by_cases h : 1 ≤ s.replicas ∧ s.replicas ≤ 32767 <;> simp [h]

/-- What the fields have to be like to give no cause for complaint. -/
structure Accepted (s : Spec) : Prop where
  topicName : ∀ n ∈ s.topicName, 1 ≤ n.length ∧ n.length ≤ 249
  partitions : 1 ≤ s.partitions ∧ s.partitions ≤ 100000
  replicas : 1 ≤ s.replicas ∧ s.replicas ≤ 32767
  config : ∀ k v, (k, v) ∈ s.config.toList →
    k ≠ "" ∧ k.utf8ByteSize ≤ 255 ∧ v.utf8ByteSize ≤ 4096

theorem complaints_eq_nil_iff : s.complaints = [] ↔ s.Accepted := by
  have hnil : s.complaints = [] ↔ configComplaint? s.config.toList = none ∧
      s.partitionsComplaint? = none ∧ s.replicasComplaint? = none ∧
      s.topicNameComplaint? = none := by
    simp [complaints, List.filterMap_eq_nil_iff]
  rw [hnil, configComplaint?_eq_none_iff, partitionsComplaint?_eq_none_iff,
    replicasComplaint?_eq_none_iff, topicNameComplaint?_eq_none_iff]
  exact ⟨fun ⟨hc, hp, hr, hn⟩ => ⟨hn, hp, hr, hc⟩,
    fun h => ⟨h.config, h.partitions, h.replicas, h.topicName⟩⟩

/-- Counts that give no cause for complaint make a snapshot, whatever the topic. -/
theorem Accepted.exists_create (h : s.Accepted) (name : TopicName) :
    ∃ p q, (p.val : Int) = s.partitions ∧ (q.val : Int) = s.replicas ∧
      Topic.create name s.partitions s.replicas =
        .ok ⟨name, name.resourceName, p, q, .empty, none⟩ := by
  have hpartitions := h.partitions
  have hreplicas := h.replicas
  let p : PartitionCount := ⟨s.partitions.toNat, by omega, by omega⟩
  let q : ReplicationFactor := ⟨s.replicas.toNat, by omega, by omega⟩
  have hp : (p.val : Int) = s.partitions := Int.toNat_of_nonneg (by omega)
  have hq : (q.val : Int) = s.replicas := Int.toNat_of_nonneg (by omega)
  refine ⟨p, q, hp, hq, ?_⟩
  rw [← hp, ← hq]
  exact Record.create_counts name p q

end Spec

namespace Resource

variable {r : Resource} {t u : Topic}

/-- What a resource has to be like to be accepted. -/
structure Legal (r : Resource) : Prop where
  topicName : IsTopicName r.topicText
  partitions : 1 ≤ r.spec.partitions ∧ r.spec.partitions ≤ 100000
  replicas : 1 ≤ r.spec.replicas ∧ r.spec.replicas ≤ 32767
  config : ∀ k v, (k, v) ∈ r.spec.config.toList →
    k ≠ "" ∧ k.utf8ByteSize ≤ 255 ∧ v.utf8ByteSize ≤ 4096

/-- The snapshot has the values of the resource, all of them and no others. -/
structure Gives (r : Resource) (t : Topic) : Prop where
  name : t.name.text = r.topicText
  resourceName : t.resourceName.text = r.nameText
  partitions : (t.partitions.val : Int) = r.spec.partitions
  replicas : (t.replicationFactor.val : Int) = r.spec.replicas
  config : t.config = r.spec.config
  labels : t.labels = some r.labels

theorem Gives.eq (ht : r.Gives t) (hu : r.Gives u) : t = u := by
  have hpartitions := ht.partitions.trans hu.partitions.symm
  have hreplicas := ht.replicas.trans hu.replicas.symm
  have hresource := ht.resourceName.trans hu.resourceName.symm
  obtain ⟨n, ⟨rn⟩, p, q, c, ls⟩ := t
  obtain ⟨n', ⟨rn'⟩, p', q', c', ls'⟩ := u
  obtain rfl : n = n' := TopicName.ext (ht.name.trans hu.name.symm)
  obtain rfl : rn = rn' := hresource
  obtain rfl : p = p' := PartitionCount.ext (Int.ofNat.inj hpartitions)
  obtain rfl : q = q' := ReplicationFactor.ext (Int.ofNat.inj hreplicas)
  obtain rfl : c = c' := ht.config.trans hu.config.symm
  obtain rfl : ls = ls' := ht.labels.trans hu.labels.symm
  rfl

/-- A name that is legal in bytes is not too long in characters. -/
theorem legal_iff : r.Legal ↔ r.spec.Accepted ∧ IsTopicName r.topicText := by
  constructor
  · intro h
    refine ⟨⟨fun n hn => ?_, h.partitions, h.replicas, h.config⟩, h.topicName⟩
    have htext : r.topicText = n := by
      rw [topicText, Option.mem_def.1 hn]
      rfl
    exact htext ▸ h.topicName.length
  · rintro ⟨h, hname⟩
    exact ⟨hname, h.partitions, h.replicas, h.config⟩

/-- All that can come of reading a resource. -/
inductive Reading (r : Resource) : Except Failure Topic → Prop where
  | complained (hc : r.spec.complaints ≠ []) :
    Reading r (.error (.invalidResource r.nameText
      ("; ".intercalate (r.spec.complaints.map Spec.complaintText))))
  | misnamed (ha : r.spec.Accepted) (f : NameFault) (hf : nameFault? r.topicText = some f) :
    Reading r (.error (.invalidResource r.nameText
      (Failure.invalidTopicName r.topicText f.message).message))
  | read (ha : r.spec.Accepted) (t : Topic) (ht : r.Gives t) : Reading r (.ok t)

theorem reading_toTopic (r : Resource) : r.Reading r.toTopic := by
  rw [toTopic]
  split
  next c cs hcs =>
    rw [← hcs]
    exact .complained (by rw [hcs]; exact List.cons_ne_nil c cs)
  next hnil =>
    have ha := Spec.complaints_eq_nil_iff.1 hnil
    split
    next e he =>
      obtain ⟨f, hf, rfl⟩ := TopicName.nameFault?_of_ofText he
      exact .misnamed ha f hf
    next name hname =>
      have htext : name.text = r.topicText := TopicName.ofText_eq_ok_iff.1 hname
      have hreplicas := ha.replicas
      obtain ⟨p, q, hp, hq, hcreate⟩ := ha.exists_create name
      rw [if_neg (by omega), hcreate]
      exact .read ha _ ⟨htext, rfl, hp, hq, rfl, rfl⟩

theorem gives_of_toTopic (h : r.toTopic = .ok t) : r.spec.Accepted ∧ r.Gives t := by
  have hreading := reading_toTopic r
  rw [h] at hreading
  cases hreading with
  | read ha _ ht => exact ⟨ha, ht⟩

theorem legal_of_gives (ha : r.spec.Accepted) (ht : r.Gives t) : r.Legal :=
  legal_iff.2 ⟨ha, ht.name ▸ t.name.isTopicName⟩

theorem exists_toTopic_iff : (∃ t, r.toTopic = .ok t) ↔ r.Legal := by
  constructor
  · rintro ⟨t, ht⟩
    obtain ⟨ha, hg⟩ := gives_of_toTopic ht
    exact legal_of_gives ha hg
  · intro hl
    obtain ⟨ha, hname⟩ := legal_iff.1 hl
    have hreading := reading_toTopic r
    cases hr : r.toTopic with
    | ok t => exact ⟨t, rfl⟩
    | error e =>
      rw [hr] at hreading
      cases hreading with
      | complained hc => exact absurd (Spec.complaints_eq_nil_iff.2 ha) hc
      | misnamed _ f hf =>
        rw [nameFault?_eq_none_iff.2 hname] at hf
        cases hf

theorem toTopic_of_gives (ha : r.spec.Accepted) (ht : r.Gives t) : r.toTopic = .ok t := by
  obtain ⟨u, hu⟩ := exists_toTopic_iff.2 (legal_of_gives ha ht)
  rw [hu, ht.eq (gives_of_toTopic hu).2]

end Resource

end TopicSync
