import TopicSync.Proofs.TextMap

/-!
Snapshots field by field. A field is the number of partitions, the replication factor, an entry of
the configuration or a label, and a missing entry is a value like any other. A difference is given
by what it sets each field to: differences are taken, united and applied one field at a time, and
they clash exactly where both set a field to different values.
-/
namespace TopicSync

inductive Field where
  | partitions
  | replicationFactor
  | config (key : String)
  | label (key : String)
  deriving DecidableEq, Repr

namespace Field

def isLabel : Field → Bool
  | label _ => true
  | _ => false

theorem forall_iff {p : Field → Prop} :
    (∀ f, p f) ↔ p partitions ∧ p replicationFactor ∧ (∀ k, p (config k)) ∧ ∀ k, p (label k) := by
  constructor
  · intro h
    exact ⟨h _, h _, fun k => h _, fun k => h _⟩
  · rintro ⟨hp, hr, hc, hl⟩ f
    cases f
    · exact hp
    · exact hr
    · exact hc _
    · exact hl _

end Field

inductive FieldValue where
  | count (n : Nat)
  | entry (text : Option String)
  deriving DecidableEq, Repr

namespace Topic

/-- Unknown labels read as none. -/
def value (t : Topic) : Field → FieldValue
  | .partitions => .count t.partitions.val
  | .replicationFactor => .count t.replicationFactor.val
  | .config k => .entry (t.config.get? k)
  | .label k => .entry (t.labelsOrEmpty.get? k)

/-- Whether the snapshot says anything about a field. -/
def knows (t : Topic) : Field → Bool
  | .label _ => t.labels.isSome
  | _ => true

/-- The snapshot has a value of its own in a field, other than the base has. -/
def Edits (t base : Topic) (f : Field) : Prop := t.knows f = true ∧ t.value f ≠ base.value f

instance (t base : Topic) (f : Field) : Decidable (t.Edits base f) :=
  inferInstanceAs (Decidable (_ ∧ _))

theorem edits_iff_of_not_label {t base : Topic} {f : Field} (h : f.isLabel = false) :
    t.Edits base f ↔ t.value f ≠ base.value f := by
  cases f <;> simp_all [Edits, knows, Field.isLabel]

theorem not_edits_label {t base : Topic} (h : t.labels = none) (k : String) :
    ¬ t.Edits base (.label k) := by
  simp [Edits, knows, h]

theorem edits_iff_of_labels {t base : Topic} (h : t.labels.isSome) (f : Field) :
    t.Edits base f ↔ t.value f ≠ base.value f := by
  cases f <;> simp [Edits, knows, h]

theorem partitions_eq_of_value {a b : Topic} (h : a.value .partitions = b.value .partitions) :
    a.partitions = b.partitions :=
  PartitionCount.ext (FieldValue.count.inj h)

theorem replicationFactor_eq_of_value {a b : Topic}
    (h : a.value .replicationFactor = b.value .replicationFactor) :
    a.replicationFactor = b.replicationFactor :=
  ReplicationFactor.ext (FieldValue.count.inj h)

theorem config_eq_of_value {a b : Topic} (h : ∀ k, a.value (.config k) = b.value (.config k)) :
    a.config = b.config :=
  TextMap.ext fun k => FieldValue.entry.inj (h k)

/-- Two snapshots agree in partitions, replication factor and every entry of the configuration. -/
structure SameShape (a b : Topic) : Prop where
  partitions : a.partitions = b.partitions
  replicationFactor : a.replicationFactor = b.replicationFactor
  config : a.config = b.config

theorem sameShape_iff {a b : Topic} :
    a.SameShape b ↔ ∀ f : Field, f.isLabel = false → a.value f = b.value f := by
  constructor
  · rintro ⟨hp, hr, hc⟩ f hl
    cases f with
    | partitions => simp [value, hp]
    | replicationFactor => simp [value, hr]
    | config k => simp [value, hc]
    | label k => cases hl
  · intro h
    exact ⟨partitions_eq_of_value (h _ rfl), replicationFactor_eq_of_value (h _ rfl),
      config_eq_of_value fun k => h _ rfl⟩

/-- A snapshot is its names, whether and which labels it knows, and its fields. -/
theorem eq_of_value {a b : Topic} (hn : a.name = b.name) (hr : a.resourceName = b.resourceName)
    (hl : a.labels = b.labels) (h : ∀ f, f.isLabel = false → a.value f = b.value f) : a = b := by
  obtain ⟨hp, hf, hc⟩ := sameShape_iff.2 h
  cases a
  cases b
  simp_all

end Topic

/-- A count that changes does so from the one value to the other. -/
theorem eq_of_mem_changeOf {α : Type} [DecidableEq α] {before after : α} {c : Change α}
    (h : c ∈ changeOf before after) : c = ⟨before, after⟩ := by
  rw [changeOf] at h
  split at h
  · cases h
  · exact (Option.some.inj h).symm

namespace TopicDiff

/-- What the difference sets a field to, if it changes the field. -/
def target? (d : TopicDiff) : Field → Option FieldValue
  | .partitions => d.partitions.map fun c => .count c.after.val
  | .replicationFactor => d.replicationFactor.map fun c => .count c.after.val
  | .config k => (d.config.get? k).map fun c => .entry c.value?
  | .label k => (d.labels.get? k).map fun c => .entry c.value?

/-- A difference sets the fields that the second snapshot edits, to the values they have there. -/
theorem target?_between (base other : Topic) (f : Field) :
    (between base other).target? f =
      if other.Edits base f then some (other.value f) else none := by
  cases f with
  | partitions =>
    by_cases h : base.partitions = other.partitions
    · simp [target?, between, changeOf, Topic.Edits, Topic.value, h]
    · have hv : other.partitions.val ≠ base.partitions.val :=
        fun he => h (PartitionCount.ext he.symm)
      simp [target?, between, changeOf, Topic.Edits, Topic.knows, Topic.value, h, hv]
  | replicationFactor =>
    by_cases h : base.replicationFactor = other.replicationFactor
    · simp [target?, between, changeOf, Topic.Edits, Topic.value, h]
    · have hv : other.replicationFactor.val ≠ base.replicationFactor.val :=
        fun he => h (ReplicationFactor.ext he.symm)
      simp [target?, between, changeOf, Topic.Edits, Topic.knows, Topic.value, h, hv]
  | config k =>
    by_cases h : base.config.get? k = other.config.get? k
    · simp [target?, between, TextMap.get?_changes, Topic.Edits, Topic.value, h]
    · have hv : other.config.get? k ≠ base.config.get? k := fun he => h he.symm
      simp [target?, between, TextMap.get?_changes, Topic.Edits, Topic.knows, Topic.value, h, hv]
  | label k =>
    cases hl : other.labels with
    | none =>
      simp [target?, between, hl, Topic.Edits, Topic.knows, TextMap.get?_empty]
    | some ls =>
      have ho : other.labelsOrEmpty = ls := by simp [Topic.labelsOrEmpty, hl]
      by_cases h : base.labelsOrEmpty.get? k = ls.get? k
      · simp [target?, between, hl, TextMap.get?_changes, Topic.Edits, Topic.value, ho, h]
      · have hv : ls.get? k ≠ base.labelsOrEmpty.get? k := fun he => h he.symm
        simp [target?, between, hl, TextMap.get?_changes, Topic.Edits, Topic.knows, Topic.value,
          ho, h, hv]

theorem target?_merge (d e : TopicDiff) (f : Field) :
    (d.merge e).target? f = (d.target? f).or (e.target? f) := by
  cases f with
  | partitions => cases h : d.partitions <;> simp [target?, merge, h]
  | replicationFactor => cases h : d.replicationFactor <;> simp [target?, merge, h]
  | config k => cases h : d.config.get? k <;> simp [target?, merge, TextMap.get?_union, h]
  | label k => cases h : d.labels.get? k <;> simp [target?, merge, TextMap.get?_union, h]

theorem value_apply (d : TopicDiff) (t : Topic) (f : Field) :
    (d.apply t).value f = (d.target? f).getD (t.value f) := by
  cases f with
  | partitions => cases h : d.partitions <;> simp [target?, apply, Topic.value, h]
  | replicationFactor => cases h : d.replicationFactor <;> simp [target?, apply, Topic.value, h]
  | config k =>
    cases h : d.config.get? k <;> simp [target?, apply, Topic.value, TextMap.get?_applyChanges, h]
  | label k =>
    by_cases he : d.labels.isEmpty
    · have hk := TextMap.isEmpty_iff.1 he k
      simp [target?, apply, Topic.value, Topic.labelsOrEmpty, he, hk]
    · cases h : d.labels.get? k <;>
        simp [target?, apply, Topic.value, Topic.labelsOrEmpty, TextMap.get?_applyChanges, he, h]

theorem isEmpty_iff {d : TopicDiff} : d.isEmpty = true ↔ ∀ f, d.target? f = none := by
  simp only [Field.forall_iff, target?, Option.map_eq_none_iff, ← TextMap.isEmpty_iff]
  simp only [isEmpty, Bool.and_eq_true, Option.isNone_iff_eq_none, and_assoc]

theorem isEmpty_between_iff {base other : Topic} :
    (between base other).isEmpty = true ↔ ∀ f, ¬ other.Edits base f := by
  simp [isEmpty_iff, target?_between]

end TopicDiff

theorem scalarClash_eq_nil_iff {α : Type} [DecidableEq α] {make : α → α → Clash}
    {a b : Option (Change α)} :
    scalarClash make a b = [] ↔ ∀ c ∈ a, ∀ d ∈ b, c.after = d.after := by
  cases a <;> cases b <;> simp [scalarClash]

theorem entryClashes_eq_nil_iff {make : String → EntryChange → EntryChange → Clash}
    {mine theirs : TextMap EntryChange} :
    entryClashes make mine theirs = [] ↔
      ∀ k, ∀ c ∈ mine.get? k, ∀ d ∈ theirs.get? k, c = d := by
  rw [entryClashes, List.filterMap_eq_nil_iff]
  constructor
  · intro h k c hc d hd
    have he := h (k, c) (TextMap.get?_eq_some_iff.1 hc)
    have hd' : theirs.get? k = some d := hd
    simp only [hd'] at he
    by_cases hcd : d = c
    · exact hcd.symm
    · simp [hcd] at he
  · rintro h ⟨k, c⟩ hc
    cases hd : theirs.get? k with
    | none => rfl
    | some d => simp [h k c (TextMap.get?_eq_some_iff.2 hc) d hd]

/-- Two options of changes aim at one value if the changes themselves do. -/
theorem forall_mem_map_eq_iff {α γ : Type} {g : α → γ} {r : α → α → Prop} {a b : Option α}
    (h : ∀ c d, g c = g d ↔ r c d) :
    (∀ v ∈ a.map g, ∀ w ∈ b.map g, v = w) ↔ ∀ c ∈ a, ∀ d ∈ b, r c d := by
  cases a <;> cases b <;> simp [h]

namespace TopicDiff

/-- Differences clash unless they agree wherever both set a field. -/
theorem clashes_eq_nil_iff {d e : TopicDiff} :
    d.clashes e = [] ↔ ∀ f, ∀ v ∈ d.target? f, ∀ w ∈ e.target? f, v = w := by
  have hcount : ∀ c c' : Change PartitionCount,
      FieldValue.count c.after.val = .count c'.after.val ↔ c.after = c'.after := fun c c' =>
    ⟨fun h => PartitionCount.ext (FieldValue.count.inj h), fun h => by rw [h]⟩
  have hfactor : ∀ c c' : Change ReplicationFactor,
      FieldValue.count c.after.val = .count c'.after.val ↔ c.after = c'.after := fun c c' =>
    ⟨fun h => ReplicationFactor.ext (FieldValue.count.inj h), fun h => by rw [h]⟩
  have hentry : ∀ c c' : EntryChange,
      FieldValue.entry c.value? = .entry c'.value? ↔ c = c' := fun c c' =>
    ⟨fun h => EntryChange.value?_inj (FieldValue.entry.inj h), fun h => by rw [h]⟩
  simp only [Field.forall_iff, target?, forall_mem_map_eq_iff hcount,
    forall_mem_map_eq_iff hfactor, forall_mem_map_eq_iff hentry]
  simp only [clashes, List.append_eq_nil_iff, scalarClash_eq_nil_iff, entryClashes_eq_nil_iff,
    and_assoc]

theorem conflict?_eq_none_iff {d e : TopicDiff} : d.conflict? e = none ↔ d.clashes e = [] := by
  cases h : d.clashes e <;> simp [conflict?, h]

end TopicDiff

end TopicSync
