import Mathlib.Data.List.Nodup
import TopicSync.Proofs.Store.Bindings
import TopicSync.Proofs.Store.MapServer

/-!
ConfigMaps as a map from topic names to snapshots. Of the topics that a store is used for each has
its ConfigMap, if it is bound, and no other ConfigMap carries the label of the store; so a look-up
finds the snapshot, and the labelled ones name exactly the topics that are bound.
-/
namespace TopicSync

/-- The topic that a call names. -/
def StoreCall.topics : StoreCall → List TopicName
  | .read name | .delete name => [name]
  | .create t | .update t => [t.name]
  | .list => []

/-- What a call yields on a map, where names may be listed in any order. -/
def Bindings.Yields (m : Bindings) : (c : StoreCall) → c.Answer → Prop
  | .read name, r => m.Answers (.read name) r
  | .create t, r => m.Answers (.create t) r
  | .update t, r => m.Answers (.update t) r
  | .delete name, r => m.Answers (.delete name) r
  | .list, r => ∃ names : List TopicName,
      r = .ok names ∧ names.Nodup ∧ ∀ n, n ∈ names ↔ m.bound n = true

namespace ConfigMapStore

/-- What the store writes of a snapshot. -/
def contentOf (chosen : String) (t : Topic) : MapContent := (mapOf chosen t).content

/-- The topic that an annotation names. -/
def topicOf? (m : ConfigMap) : Option TopicName :=
  (m.metadata.annotations.bind (·.get? topicKey)).bind TopicName.ofText?

section Contents

variable {chosen : String} {t : Topic} {m : ConfigMap}

theorem hasLabel_of_content (h : m.content = contentOf chosen t) :
    m.hasLabel storeLabel chosen = true := by
  have hlabels : m.metadata.labels = (mapOf chosen t).metadata.labels :=
    congrArg MapContent.labels h
  have hlabel : (TextMap.ofList [(storeLabel, chosen),
      ("app.kubernetes.io/managed-by", "kafka-topic-operator")]).get? storeLabel =
      some chosen := by
    rw [TextMap.get?_ofList]
    rfl
  rw [ConfigMap.hasLabel, hlabels]
  exact decide_eq_true hlabel

theorem topicOf?_of_content (h : m.content = contentOf chosen t) : topicOf? m = some t.name := by
  have hannotations : m.metadata.annotations = (mapOf chosen t).metadata.annotations :=
    congrArg MapContent.annotations h
  have htext : (TextMap.ofList [(topicKey, t.name.text)]).get? topicKey = some t.name.text := by
    rw [TextMap.get?_ofList]
    rfl
  rw [topicOf?, hannotations]
  change ((TextMap.ofList [(topicKey, t.name.text)]).get? topicKey).bind TopicName.ofText? = _
  rw [htext]
  exact dif_pos t.name.legal

/-- The snapshot is read back. -/
theorem recordIn_of_content (h : m.content = contentOf chosen t) :
    recordIn t.name m = .ok t := by
  have hdata : m.data = (mapOf chosen t).data := congrArg MapContent.data h
  have htext : (TextMap.ofList [(dataKey, Record.encode t)]).get? dataKey =
      some (Record.encode t) := by
    rw [TextMap.get?_ofList]
    rfl
  have hrecord : m.data.bind (·.get? dataKey) = some (Record.encode t) := by
    rw [hdata]
    exact htext
  rw [recordIn, hrecord]
  exact Record.decodeText_encode t

end Contents

/-- Of the topics that a store is used for, the snapshots of a map are in the ConfigMaps of their
names; no other ConfigMap has the label of the store. -/
structure Keeps (s : ConfigMapStore) (used : List TopicName) (b : Bindings)
    (ms : TextMap ConfigMap) : Prop where
  records : ∀ n ∈ used, (ms.get? (mapName s.storePrefix n)).map ConfigMap.content =
    (b.get? n).map (contentOf s.storePrefix)
  bound : ∀ n, b.bound n = true → n ∈ used
  only : ∀ k m, ms.get? k = some m → m.hasLabel storeLabel s.storePrefix = true →
    ∃ n ∈ used, k = mapName s.storePrefix n

/-- The ConfigMaps of different topics have different names. -/
def Distinct (chosen : String) (used : List TopicName) : Prop :=
  ∀ a ∈ used, ∀ b ∈ used, mapName chosen a = mapName chosen b → a = b

instance (chosen : String) (used : List TopicName) : Decidable (Distinct chosen used) :=
  inferInstanceAs (Decidable (∀ a ∈ used, ∀ b ∈ used, _ → _))

namespace Keeps

variable {s : ConfigMapStore} {used : List TopicName} {b : Bindings} {ms : TextMap ConfigMap}

theorem exists_of_get? (h : Keeps s used b ms) {n : TopicName} {m : ConfigMap} (hn : n ∈ used)
    (hm : ms.get? (mapName s.storePrefix n) = some m) :
    ∃ t, b.get? n = some t ∧ m.content = contentOf s.storePrefix t := by
  have hrecord := h.records n hn
  rw [hm, Option.map_some, eq_comm, Option.map_eq_some_iff] at hrecord
  obtain ⟨t, ht, hcontent⟩ := hrecord
  exact ⟨t, ht, hcontent.symm⟩

theorem isSome_get? (h : Keeps s used b ms) {n : TopicName} (hn : n ∈ used) :
    (ms.get? (mapName s.storePrefix n)).isSome = b.bound n := by
  have hrecord := congrArg Option.isSome (h.records n hn)
  rwa [Option.isSome_map, Option.isSome_map] at hrecord

theorem bound_of_get? (h : Keeps s used b ms) {n : TopicName} {m : ConfigMap} (hn : n ∈ used)
    (hm : ms.get? (mapName s.storePrefix n) = some m) : b.bound n = true := by
  rw [← h.isSome_get? hn, hm]
  rfl

theorem not_bound_of_get? (h : Keeps s used b ms) {n : TopicName} (hn : n ∈ used)
    (hm : ms.get? (mapName s.storePrefix n) = none) : ¬ b.bound n = true := by
  rw [← h.isSome_get? hn, hm]
  exact Bool.false_ne_true

theorem insert (h : Keeps s used b ms) (hdistinct : Distinct s.storePrefix used) {t : Topic}
    (ht : t.name ∈ used) {m : ConfigMap} (hm : m.content = contentOf s.storePrefix t) :
    Keeps s used (b.bind t) (ms.insert (mapName s.storePrefix t.name) m) := by
  refine ⟨fun n hn => ?_, fun n hn => ?_, fun k v hk hlabel => ?_⟩
  · rw [TextMap.get?_insert, Bindings.bind]
    by_cases heq : n = t.name
    · simp [heq, hm]
    · have hname : mapName s.storePrefix n ≠ mapName s.storePrefix t.name :=
        fun hsame => heq (hdistinct n hn t.name ht hsame)
      simpa [heq, hname] using h.records n hn
  · by_cases heq : n = t.name
    · exact heq ▸ ht
    · refine h.bound n ?_
      simpa [Bindings.bound, Bindings.bind, heq] using hn
  · rw [TextMap.get?_insert] at hk
    by_cases heq : k = mapName s.storePrefix t.name
    · exact ⟨t.name, ht, heq⟩
    · rw [if_neg heq] at hk
      exact h.only k v hk hlabel

theorem erase (h : Keeps s used b ms) (hdistinct : Distinct s.storePrefix used) {name : TopicName}
    (hname : name ∈ used) :
    Keeps s used (b.free name) (ms.erase (mapName s.storePrefix name)) := by
  refine ⟨fun n hn => ?_, fun n hn => ?_, fun k v hk hlabel => ?_⟩
  · rw [TextMap.get?_erase, Bindings.free]
    by_cases heq : n = name
    · simp [heq]
    · have hne : mapName s.storePrefix n ≠ mapName s.storePrefix name :=
        fun hsame => heq (hdistinct n hn name hname hsame)
      simpa [heq, hne] using h.records n hn
  · by_cases heq : n = name
    · exact heq ▸ hname
    · refine h.bound n ?_
      simpa [Bindings.bound, Bindings.free, heq] using hn
  · rw [TextMap.get?_erase] at hk
    by_cases heq : k = mapName s.storePrefix name
    · simp [heq] at hk
    · rw [if_neg heq] at hk
      exact h.only k v hk hlabel

/-- A ConfigMap that is listed is that of a topic which is bound. -/
theorem listed (h : Keeps s used b ms) {k : String} {m : ConfigMap} {n : TopicName}
    (hk : ms.get? k = some m) (hlabel : m.hasLabel storeLabel s.storePrefix = true)
    (hn : topicOf? m = some n) : k = mapName s.storePrefix n ∧ b.bound n = true := by
  obtain ⟨a, ha, rfl⟩ := h.only k m hk hlabel
  obtain ⟨t, ht, hcontent⟩ := h.exists_of_get? ha hk
  have hname := topicOf?_of_content hcontent
  rw [b.name_eq ht, hn] at hname
  cases hname
  exact ⟨rfl, Option.isSome_iff_exists.2 ⟨t, ht⟩⟩

theorem exists_listed (h : Keeps s used b ms) {n : TopicName} (hn : b.bound n = true) :
    ∃ m, ms.get? (mapName s.storePrefix n) = some m ∧
      m.hasLabel storeLabel s.storePrefix = true ∧ topicOf? m = some n := by
  have hused := h.bound n hn
  have hthere := (h.isSome_get? hused).trans hn
  obtain ⟨m, hm⟩ := Option.isSome_iff_exists.1 hthere
  obtain ⟨t, ht, hcontent⟩ := h.exists_of_get? hused hm
  exact ⟨m, hm, hasLabel_of_content hcontent,
    (topicOf?_of_content hcontent).trans (congrArg some (b.name_eq ht))⟩

/-- The labelled ConfigMaps, in any order, name each topic that is bound once. -/
theorem yields_list (h : Keeps s used b ms) {items : List ConfigMap}
    (hitems : items.Perm (ms.values.filter (·.hasLabel storeLabel s.storePrefix))) :
    b.Yields .list (.ok (items.filterMap topicOf?)) := by
  have hperm := hitems.filterMap topicOf?
  refine ⟨_, rfl, hperm.nodup_iff.2 ?_, fun n => hperm.mem_iff.trans ?_⟩
  · rw [TextMap.values, List.filter_map, List.filterMap_map]
    have hkeys := ms.increasing.sublist (List.filter_sublist
      (p := (ConfigMap.hasLabel storeLabel s.storePrefix ·) ∘ Prod.snd))
    refine List.pairwise_filterMap.2 (hkeys.imp_of_mem fun {x y} hx hy hlt n hn k hk heq => ?_)
    have hkey : ∀ {e : String × ConfigMap} {n : TopicName}, e ∈ ms.entries.filter
        ((ConfigMap.hasLabel storeLabel s.storePrefix ·) ∘ Prod.snd) →
        topicOf? e.2 = some n → e.1 = mapName s.storePrefix n := by
      intro e n he hn
      obtain ⟨hmem, hlabel⟩ := List.mem_filter.1 he
      exact (h.listed (TextMap.get?_eq_some_iff.2 hmem) hlabel hn).1
    rw [hkey hx hn, hkey hy hk, heq] at hlt
    exact String.lt_irrefl _ hlt
  · rw [List.mem_filterMap]
    constructor
    · rintro ⟨m, hm, hn⟩
      obtain ⟨hmem, hlabel⟩ := List.mem_filter.1 hm
      obtain ⟨k, hk⟩ := TextMap.mem_values.1 hmem
      exact (h.listed hk hlabel hn).2
    · intro hn
      obtain ⟨m, hm, hlabel, htopic⟩ := h.exists_listed hn
      exact ⟨m, List.mem_filter.2 ⟨TextMap.mem_values.2 ⟨_, hm⟩, hlabel⟩, htopic⟩

end Keeps

end ConfigMapStore

end TopicSync
