import TopicSync.Proofs.Json.Fields
import TopicSync.Proofs.Json.RoundTrip
import TopicSync.Topic.Record

/-!
The stored form of a snapshot determines the snapshot: it is read back with all that it had, and
unknown labels are not taken for an empty set of them. Whatever else may stand under a name, what is
accepted there has that name and counts of at least one, and all the rest is corrupt.
-/
namespace TopicSync.Record

open Json (Plain)

/-- The fields of a snapshot's record. -/
def fieldsOf (t : Topic) : List (String × Json) :=
  [("resourceName", .string t.resourceName.text),
    ("partitions", .ofNat t.partitions.val),
    ("replicationFactor", .ofNat t.replicationFactor.val),
    ("config", .ofMap t.config)] ++ Json.memberOf "labels" Json.ofMap t.labels

theorem plain_toJson (t : Topic) : Plain Json.maxDepth (toJson t) := by
  have hp := t.partitions.le
  have hr := t.replicationFactor.le
  have hmax : Json.maxInteger = 18446744073709551615 := by decide
  change Plain (126 + 1) (.object (fieldsOf t))
  refine .object fun m hm => ?_
  simp only [fieldsOf, List.mem_append, List.mem_cons, List.not_mem_nil, or_false] at hm
  rcases hm with (rfl | rfl | rfl | rfl) | hm
  · exact .string _
  · exact .integer (by omega) (by omega)
  · exact .integer (by omega) (by omega)
  · exact Json.plain_ofMap _
  · cases hl : t.labels with
    | none => simp [hl, Json.memberOf] at hm
    | some ls =>
      simp only [hl, Json.memberOf, List.mem_singleton] at hm
      rw [hm]
      exact Json.plain_ofMap _

theorem nodup_fieldsOf (t : Topic) : ((fieldsOf t).map (·.1)).Nodup := by
  cases hl : t.labels <;> simp [fieldsOf, hl, Json.memberOf]

theorem fields?_toJson (t : Topic) : (toJson t).fields? fieldNames = some (fieldsOf t) := by
  refine Json.fields?_object (nodup_fieldsOf t) ?_
  change ∀ m ∈ fieldsOf t, m.1 ∈ fieldNames
  cases hl : t.labels <;> simp [fieldsOf, hl, Json.memberOf, fieldNames]

theorem defaulted?_labels (t : Topic) :
    Json.defaulted? (fieldsOf t) "labels" none (Json.asOption? Json.asTextMap?) =
      some t.labels := by
  cases hl : t.labels with
  | none =>
    have hlabels : Json.lastOf "labels" (fieldsOf t) = none :=
      Json.lastOf_of_not_mem (by simp [fieldsOf, hl, Json.memberOf])
    rw [Json.defaulted?, hlabels]
  | some ls =>
    have hmem : ("labels", Json.ofMap ls) ∈ fieldsOf t := by simp [fieldsOf, hl, Json.memberOf]
    rw [Json.defaulted?_of_mem (nodup_fieldsOf t) hmem]
    exact Json.asOption?_asTextMap? ls

/-- The draft that a snapshot's record is read as. -/
def draftOf (t : Topic) : Draft :=
  ⟨t.resourceName, t.partitions.val, t.replicationFactor.val, t.config, t.labels⟩

theorem ofJson?_toJson (t : Topic) : Draft.ofJson? (toJson t) = some (draftOf t) := by
  have hp := t.partitions.le
  have hr := t.replicationFactor.le
  have hdistinct := nodup_fieldsOf t
  have hresource : Json.required? (fieldsOf t) "resourceName" Json.asString? =
      some t.resourceName.text :=
    Json.required?_of_mem hdistinct (j := .string t.resourceName.text) (by simp [fieldsOf]) _
  have hpartitions : Json.required? (fieldsOf t) "partitions" Json.asInt32? =
      some (t.partitions.val : Int) :=
    (Json.required?_of_mem hdistinct (j := .ofNat t.partitions.val) (by simp [fieldsOf]) _).trans
      (Json.asInt?_ofNat (by omega) (by omega))
  have hreplicas : Json.required? (fieldsOf t) "replicationFactor" Json.asInt16? =
      some (t.replicationFactor.val : Int) :=
    (Json.required?_of_mem hdistinct (j := .ofNat t.replicationFactor.val)
      (by simp [fieldsOf]) _).trans (Json.asInt?_ofNat (by omega) (by omega))
  have hconfig : Json.defaulted? (fieldsOf t) "config" .empty Json.asTextMap? = some t.config :=
    (Json.defaulted?_of_mem hdistinct (j := .ofMap t.config) (by simp [fieldsOf]) _ _).trans
      (Json.asTextMap?_ofMap t.config)
  rw [Draft.ofJson?, fields?_toJson]
  simp only [Option.bind_eq_bind, Option.bind_some, hresource, hpartitions, hreplicas, hconfig,
    defaulted?_labels]
  rfl

/-- The numbers of a draft fit into the words they are kept in. -/
theorem Draft.counts_le {j : Json} {d : Draft} (h : Draft.ofJson? j = some d) :
    d.partitions ≤ 2147483647 ∧ d.replicationFactor ≤ 32767 := by
  simp only [Draft.ofJson?, Option.bind_eq_bind, Option.bind_eq_some_iff, Option.some.injEq,
    Option.pure_def] at h
  obtain ⟨fields, -, resource, -, partitions, hpartitions, replicas, hreplicas, config, -, labels,
    -, rfl⟩ := h
  obtain ⟨p, -, hp⟩ := Json.required?_eq_some_iff.1 hpartitions
  obtain ⟨r, -, hr⟩ := Json.required?_eq_some_iff.1 hreplicas
  exact ⟨(Json.asInt?_eq_some_iff.1 hp).2.2, (Json.asInt?_eq_some_iff.1 hr).2.2⟩

/-- What is said of counts that are too small for a topic. -/
def countComplaint? (name : TopicName) (partitions replicas : Int) : Option String :=
  if partitions < 1 then
    some s!"topic '{name.text}' must have at least one partition, got {partitions}"
  else if replicas < 1 then
    some s!"topic '{name.text}' must have a replication factor of at least one, got {replicas}"
  else none

/-- What is said of a draft as a topic of some name. -/
def Draft.complaint? (name : TopicName) (d : Draft) : Option String :=
  countComplaint? name d.partitions d.replicationFactor

theorem create_counts (name : TopicName) (p : PartitionCount) (r : ReplicationFactor) :
    Topic.create name p.val r.val = .ok ⟨name, name.resourceName, p, r, .empty, none⟩ := by
  rw [Topic.create, PartitionCount.ofInt?_val, ReplicationFactor.ofInt?_val]

theorem create_of_complaint {name : TopicName} {partitions replicas : Int} {c : String}
    (hmax : partitions ≤ 2147483647) (h : countComplaint? name partitions replicas = some c) :
    Topic.create name partitions replicas = .error (.invalidConfig c) := by
  rw [countComplaint?] at h
  split at h
  next hp =>
    cases h
    rw [Topic.create, PartitionCount.ofInt?, dif_neg (by omega)]
  next hp =>
    split at h
    next hr =>
      cases h
      rw [Topic.create, PartitionCount.ofInt?, dif_pos (by omega), ReplicationFactor.ofInt?,
        dif_neg (by omega)]
    next => cases h

section Decode

variable {name : TopicName} {bytes : ByteArray} {d : Draft} {t : Topic}

/-- What the bytes of a record say, before the numbers are checked. -/
def draft? (bytes : ByteArray) : Option Draft := (Json.parseBytes? bytes).bind Draft.ofJson?

theorem draft?_encode (t : Topic) : draft? (encode t).toUTF8 = some (draftOf t) := by
  have hjson : Json.parseBytes? (encode t).toUTF8 = some (toJson t) :=
    Json.parseBytes?_compact (plain_toJson t)
  rw [draft?, hjson, Option.bind_some, ofJson?_toJson]

theorem decode_of_none (h : draft? bytes = none) :
    decode name bytes = .error (.corrupt name.text unreadable) := by
  rw [draft?] at h
  rw [decode, h]

theorem decode_of_draftOf (h : draft? bytes = some (draftOf t)) : decode t.name bytes = .ok t := by
  rw [draft?] at h
  rw [decode, h]
  simp [draftOf, create_counts]

/-- A draft that fits and of which nothing is said is the draft of a snapshot. -/
theorem exists_draftOf (h : draft? bytes = some d) (hc : d.complaint? name = none) :
    ∃ t : Topic, t.name = name ∧ draftOf t = d := by
  obtain ⟨j, -, hj⟩ := Option.bind_eq_some_iff.1 h
  obtain ⟨hpmax, hrmax⟩ := Draft.counts_le hj
  obtain ⟨hp, hr⟩ : 1 ≤ d.partitions ∧ 1 ≤ d.replicationFactor := by
    rw [Draft.complaint?, countComplaint?] at hc
    split at hc
    · cases hc
    · split at hc
      · cases hc
      · omega
  refine ⟨⟨name, d.resourceName, ⟨d.partitions.toNat, by omega, by omega⟩,
    ⟨d.replicationFactor.toNat, by omega, by omega⟩, d.config, d.labels⟩, rfl, ?_⟩
  have hpartitions : (d.partitions.toNat : Int) = d.partitions := Int.toNat_of_nonneg (by omega)
  have hreplicas : (d.replicationFactor.toNat : Int) = d.replicationFactor :=
    Int.toNat_of_nonneg (by omega)
  rw [draftOf, hpartitions, hreplicas]

theorem decode_of_complaint {c : String} (h : draft? bytes = some d)
    (hc : d.complaint? name = some c) :
    decode name bytes = .error (.corrupt name.text (Failure.invalidConfig c).message) := by
  obtain ⟨j, -, hj⟩ := Option.bind_eq_some_iff.1 h
  have hcreate : Topic.create name d.partitions d.replicationFactor = .error (.invalidConfig c) :=
    create_of_complaint (Draft.counts_le hj).1 hc
  rw [draft?] at h
  rw [decode, h]
  simp only [hcreate]

theorem decode_eq_ok_iff :
    decode name bytes = .ok t ↔ t.name = name ∧ draft? bytes = some (draftOf t) := by
  constructor
  · intro h
    cases hd : draft? bytes with
    | none => rw [decode_of_none hd] at h; cases h
    | some d =>
      cases hc : d.complaint? name with
      | some c => rw [decode_of_complaint hd hc] at h; cases h
      | none =>
        obtain ⟨u, rfl, rfl⟩ := exists_draftOf hd hc
        cases (decode_of_draftOf hd).symm.trans h
        exact ⟨rfl, rfl⟩
  · rintro ⟨rfl, h⟩
    exact decode_of_draftOf h

theorem decode_eq_error_iff {e : StoreError} :
    decode name bytes = .error e ↔
      (draft? bytes = none ∧ e = .corrupt name.text unreadable) ∨
      ∃ d c, draft? bytes = some d ∧ d.complaint? name = some c ∧
        e = .corrupt name.text (Failure.invalidConfig c).message := by
  constructor
  · intro h
    cases hd : draft? bytes with
    | none =>
      rw [decode_of_none hd] at h
      cases h
      exact .inl ⟨rfl, rfl⟩
    | some d =>
      cases hc : d.complaint? name with
      | none =>
        obtain ⟨u, rfl, rfl⟩ := exists_draftOf hd hc
        cases (decode_of_draftOf hd).symm.trans h
      | some c =>
        rw [decode_of_complaint hd hc] at h
        cases h
        exact .inr ⟨d, c, rfl, hc, rfl⟩
  · rintro (⟨hd, rfl⟩ | ⟨d, c, hd, hc, rfl⟩)
    · exact decode_of_none hd
    · exact decode_of_complaint hd hc

end Decode

/-- A snapshot is read back from its record under its name. -/
theorem decodeText_encode (t : Topic) : decodeText t.name (encode t) = .ok t :=
  decode_of_draftOf (draft?_encode t)

/-- Records and snapshots stand for each other. Every snapshot, whatever its texts and whether or
not its labels are known, is read back from its record. Of all the bytes that may stand under a
name, exactly those are accepted that say what some snapshot of that name holds; this snapshot is
the result. The others are corrupt under that name: they cannot be read, or give a count below
one. -/
theorem decode_exact :
    (∀ t : Topic, decode t.name (encode t).toUTF8 = .ok t) ∧
    ∀ (name : TopicName) (bytes : ByteArray),
      (∀ t, decode name bytes = .ok t ↔
        t.name = name ∧ 1 ≤ t.partitions.val ∧ 1 ≤ t.replicationFactor.val ∧
          draft? bytes = some (draftOf t)) ∧
      ∀ e, decode name bytes = .error e ↔
        (draft? bytes = none ∧ e = .corrupt name.text unreadable) ∨
        ∃ d c, draft? bytes = some d ∧ d.complaint? name = some c ∧
          e = .corrupt name.text (Failure.invalidConfig c).message := by
  refine ⟨fun t => decode_of_draftOf (draft?_encode t), fun name bytes =>
    ⟨fun t => ?_, fun e => decode_eq_error_iff⟩⟩
  rw [decode_eq_ok_iff]
  constructor
  · rintro ⟨hname, hd⟩
    exact ⟨hname, t.partitions.pos, t.replicationFactor.pos, hd⟩
  · rintro ⟨hname, -, -, hd⟩
    exact ⟨hname, hd⟩

end TopicSync.Record
