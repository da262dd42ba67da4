import TopicSync.Proofs.Broker.Requests
import TopicSync.Proofs.Memory.Inventory

/-!
The world in memory with brokers that answer requests: they say what they hold, create no topic
twice, and take no partitions away.
-/
namespace TopicSync

namespace Memory.World

/-- The brokers of a world as ones that answer requests. -/
def brokered : (d : BrokeredCall) → World → brokeredInterface.Answer d × World
  | .inl .metadata, w =>
    (.ok (w.brokers.topics.values.map fun t =>
      ⟨t.name.text, t.partitions.val, t.replicationFactor.val, none⟩), w)
  | .inl (.describeConfigs names), w =>
    (.ok (names.map fun name =>
      match w.brokers.topics.get? name with
      | some t => .ok (t.config.toList.map fun e => ⟨e.1, some e.2, .dynamicTopic⟩)
      | none => .error ⟨3⟩), w)
  | .inl (.createTopic name partitions replicas config), w =>
    if w.brokers.topics.contains name then (.ok (some (.error ⟨36⟩)), w)
    else
      match Admin.snapshot? ⟨name, partitions, replicas, none⟩ config with
      | some t =>
        (.ok (some (.ok ())),
          { w with brokers := { w.brokers with topics := w.brokers.topics.insert name t } })
      | none => (.ok (some (.error ⟨17⟩)), w)
  | .inl (.deleteTopic name), w =>
    (.ok (some (.ok ())),
      { w with brokers := { w.brokers with topics := w.brokers.topics.erase name } })
  | .inl (.alterConfig name config), w =>
    match w.brokers.topics.get? name with
    | some t =>
      (.ok (some (.ok ())),
        { w with brokers := { w.brokers with
          topics := w.brokers.topics.insert name { t with config := config } } })
    | none => (.ok (some (.error ⟨3⟩)), w)
  | .inl (.createPartitions name n), w =>
    match w.brokers.topics.get? name, PartitionCount.ofInt? n with
    | some t, some count =>
      if t.partitions.val < n then
        (.ok (some (.ok ())),
          { w with brokers := { w.brokers with
            topics := w.brokers.topics.insert name { t with partitions := count } } })
      else (.ok (some (.error ⟨37⟩)), w)
    | _, _ => (.ok (some (.error ⟨3⟩)), w)
  | .inr (.broker _), w => (.error (.broker (.client "not a request")), w)
  | .inr c, w => answer c w

/-- How many partitions a topic has. -/
def partitionsOf (w : World) (name : String) : Option Nat :=
  (w.brokers.topics.get? name).map fun t => t.partitions.val

theorem val_of_ofInt? {n : Nat} {count : PartitionCount}
    (h : PartitionCount.ofInt? n = some count) : count.val = n := by
  rw [PartitionCount.ofInt?] at h
  split at h
  · cases h; rfl
  · cases h

theorem partitionsOf_createPartitions (w : World) (name key : String) (n : Nat) :
    partitionsOf (brokered (.inl (.createPartitions name n)) w).2 key =
        partitionsOf w key ∨
      key = name ∧ (∃ held, partitionsOf w name = some held ∧ held < n) ∧
        partitionsOf (brokered (.inl (.createPartitions name n)) w).2 key = some n := by
  rw [brokered]
  split
  next t count ht hcount =>
    split
    next hlt =>
      by_cases hkey : key = name
      · refine .inr ⟨hkey, ⟨t.partitions.val, by simp [partitionsOf, ht], hlt⟩, ?_⟩
        simp [partitionsOf, hkey, val_of_ofInt? hcount]
      · exact .inl (by simp [partitionsOf, hkey])
    next => exact .inl rfl
  next => exact .inl rfl

theorem guardsCounts_brokered : GuardsCounts brokered partitionsOf where
  refused w name n held hheld hle := by
    rcases partitionsOf_createPartitions w name name n with hkept | ⟨-, ⟨m, hm, hlt⟩, -⟩
    · exact hkept.trans hheld
    · cases hheld.symm.trans hm
      omega
  granted w name n held hheld _ := by
    rcases partitionsOf_createPartitions w name name n with hkept | ⟨-, -, hgrown⟩
    · exact .inl (hkept.trans hheld)
    · exact .inr hgrown
  taken w name partitions replicas config held hheld := by
    have hthere : w.brokers.topics.contains name = true := by
      obtain ⟨t, ht, -⟩ := Option.map_eq_some_iff.1 hheld
      simp [TextMap.contains, ht]
    rw [brokered, if_pos hthere]
    exact hheld
  elsewhere w d name hd := by
    cases d with
    | inl d =>
      cases d with
      | metadata => rfl
      | describeConfigs _ => rfl
      | createTopic other partitions replicas config =>
        have hother : name ≠ other := fun h => hd (h ▸ rfl)
        rw [brokered]
        split
        · rfl
        · split
          · simp [partitionsOf, hother]
          · rfl
      | deleteTopic other =>
        have hother : name ≠ other := fun h => hd (h ▸ rfl)
        simp [brokered, partitionsOf, TextMap.get?_erase, hother]
      | alterConfig other config =>
        rw [brokered]
        split
        next t ht =>
          by_cases hname : name = other
          · simp [partitionsOf, hname, ht]
          · simp [partitionsOf, hname]
        · rfl
      | createPartitions other n =>
        rcases partitionsOf_createPartitions w other name n with hkept | ⟨rfl, -, -⟩
        · exact hkept
        · exact absurd rfl hd
    | inr c =>
      cases c with
      | resource c =>
        have hsame := brokers_of_not_broker (c := .resource c) (by simp) w
        simp only [brokered, partitionsOf, hsame]
      | store c =>
        have hsame := brokers_of_not_broker (c := .store c) (by simp) w
        simp only [brokered, partitionsOf, hsame]
      | _ => rfl

end Memory.World

end TopicSync
