import TopicSync.Broker.Admin
import TopicSync.Proofs.Interleaving

/-!
The requests that the calls on the brokers amount to. Reading asks for metadata and configurations;
each change is one request about its topic, and a change of the replication factor is none at all.
-/
namespace TopicSync

/-- The topic that a request creates, deletes or extends. -/
def WireCall.resizes? : WireCall → Option String
  | createTopic name .. | deleteTopic name | createPartitions name _ => some name
  | metadata | describeConfigs _ | alterConfig .. => none

namespace Admin

/-- The requests of a call. -/
def Sends : BrokerCall → WireCall → Prop
  | .read _, q | .describe, q | .list, q => q = .metadata ∨ ∃ names, q = .describeConfigs names
  | .create t, q =>
    q = .createTopic t.name.text t.partitions.val t.replicationFactor.val t.config
  | .delete name, q => q = .deleteTopic name.text
  | .updateConfig t, q => q = .alterConfig t.name.text t.config
  | .increasePartitions t, q => q = .createPartitions t.name.text t.partitions.val
  | .changeReplicationFactor _, _ => False

/-- The request only asks how things are. -/
def Asks (q : WireCall) : Prop := q = .metadata ∨ ∃ names, q = .describeConfigs names

theorem only_send {P : WireCall → Prop} {c : WireCall} (hc : P c) : (send c).Only P := by
  rw [send]
  split
  · exact .done _
  · exact .ask hc fun _ => .done _

theorem only_describeConfigs (names : List String) : (describeConfigs names).Only Asks := by
  rw [describeConfigs]
  split
  · exact .done _
  · refine (only_send (.inr ⟨names, rfl⟩)).bind fun results => ?_
    cases results <;> exact .done _

theorem only_read (name : TopicName) : (read name).Only Asks := by
  refine (only_send (.inl rfl)).bind fun listed => ?_
  cases listed with
  | error e => exact .done _
  | ok metadata =>
    dsimp only
    split
    · exact .done _
    · exact .done _
    · refine (only_describeConfigs _).bind fun configs => ?_
      cases configs <;> exact .done _

theorem only_describe : describe.Only Asks := by
  refine (only_send (.inl rfl)).bind fun listed => ?_
  cases listed with
  | error e => exact .done _
  | ok metadata =>
    refine (only_describeConfigs _).bind fun configs => ?_
    cases configs <;> exact .done _

theorem only_list : list.Only Asks := by
  refine (only_send (.inl rfl)).bind fun listed => ?_
  cases listed <;> exact .done _

theorem only_perform (c : BrokerCall) : (perform c).Only (Sends c) := by
  cases c with
  | read name => exact only_read name
  | describe => exact only_describe
  | list => exact only_list
  | changeReplicationFactor t => exact .done _
  | _ =>
    refine Program.Only.bind ?_ fun _ => .done _
    exact only_send rfl

end Admin

/-- The calls of the operator, where those on the brokers are the requests that they amount to. -/
abbrev BrokeredCall : Type := WireCall ⊕ OperatorCall

abbrev brokeredInterface : Interface := ⟨BrokeredCall, Sum.elim WireCall.Answer OperatorCall.Answer⟩

/-- The topic that a call creates, deletes or extends at the brokers. -/
def BrokeredCall.resizes? : BrokeredCall → Option String
  | .inl q => q.resizes?
  | .inr _ => none

namespace Admin

/-- Carry out a call: one on the brokers by requests, any other as it is. -/
def carryOut : (c : OperatorCall) → Program brokeredInterface c.Answer
  | .broker c => Program.translate (I := wireInterface) (fun q => .ask (.inl q) .done) (perform c)
  | .resource c => .ask (.inr (.resource c)) .done
  | .store c => .ask (.inr (.store c)) .done
  | .warn w => .ask (.inr (.warn w)) .done
  | .wait ms => .ask (.inr (.wait ms)) .done
  | .count m => .ask (.inr (.count m)) .done

/-- What a call is carried out by. -/
def CarriedOutBy : OperatorCall → BrokeredCall → Prop
  | .broker c, d => ∃ q, d = .inl q ∧ Sends c q
  | c, d => d = .inr c

theorem only_carryOut (c : OperatorCall) : (carryOut c).Only (CarriedOutBy c) := by
  cases c with
  | broker c =>
    exact (only_perform c).translate fun q hq => .ask ⟨q, rfl, hq⟩ fun _ => .done _
  | _ => exact .ask rfl fun _ => .done _

/-- What changes the size of a topic is part of a call on the brokers that does so. -/
theorem CarriedOutBy.of_resizes {c : OperatorCall} {d : BrokeredCall} {name : String}
    (h : CarriedOutBy c d) (hd : d.resizes? = some name) :
    (∃ t : Topic, name = t.name.text ∧ c = .broker (.create t) ∧
      d = .inl (.createTopic name t.partitions.val t.replicationFactor.val t.config)) ∨
    (∃ n : TopicName, name = n.text ∧ c = .broker (.delete n) ∧ d = .inl (.deleteTopic name)) ∨
    ∃ t : Topic, name = t.name.text ∧ c = .broker (.increasePartitions t) ∧
      d = .inl (.createPartitions name t.partitions.val) := by
  cases c with
  | broker c =>
    obtain ⟨q, rfl, hq⟩ := h
    cases c with
    | create t => cases hq; cases hd; exact .inl ⟨t, rfl, rfl, rfl⟩
    | delete n => cases hq; cases hd; exact .inr (.inl ⟨n, rfl, rfl, rfl⟩)
    | increasePartitions t => cases hq; cases hd; exact .inr (.inr ⟨t, rfl, rfl, rfl⟩)
    | updateConfig t => cases hq; cases hd
    | changeReplicationFactor t => cases hq
    | read n => rcases hq with rfl | ⟨names, rfl⟩ <;> cases hd
    | describe => rcases hq with rfl | ⟨names, rfl⟩ <;> cases hd
    | list => rcases hq with rfl | ⟨names, rfl⟩ <;> cases hd
  | _ => cases h; cases hd

end Admin

/-- What the brokers are relied on for: a topic that exists gets more partitions or keeps those it
has when partitions are requested, and keeps them if no more are requested than it has; it is not
created once more; and no other request matters to its size, unless it is deleted. -/
structure GuardsCounts {σ : Type}
    (answer : (d : BrokeredCall) → σ → brokeredInterface.Answer d × σ)
    (count : σ → String → Option Nat) : Prop where
  refused : ∀ s name n held, count s name = some held → n ≤ held →
    count (answer (.inl (.createPartitions name n)) s).2 name = some held
  granted : ∀ s name n held, count s name = some held → held < n →
    count (answer (.inl (.createPartitions name n)) s).2 name = some held ∨
      count (answer (.inl (.createPartitions name n)) s).2 name = some n
  taken : ∀ s name partitions replicas config held, count s name = some held →
    count (answer (.inl (.createTopic name partitions replicas config)) s).2 name = some held
  elsewhere : ∀ s d name, BrokeredCall.resizes? d ≠ some name →
    count (answer d s).2 name = count s name

/-- Such brokers lose no partitions to any request of a call, unless it deletes the topic. -/
theorem GuardsCounts.kept {σ : Type}
    {answer : (d : BrokeredCall) → σ → brokeredInterface.Answer d × σ}
    {count : σ → String → Option Nat} (h : GuardsCounts answer count) {c : OperatorCall}
    {d : BrokeredCall} (hd : Admin.CarriedOutBy c d) {s : σ} {name : String} {held : Nat}
    (hs : count s name = some held) :
    (∃ n, count (answer d s).2 name = some n ∧ held ≤ n) ∨ d = .inl (.deleteTopic name) := by
  by_cases hname : BrokeredCall.resizes? d = some name
  · rcases hd.of_resizes hname with ⟨t, -, -, rfl⟩ | ⟨n, -, -, rfl⟩ | ⟨t, -, -, rfl⟩
    · exact .inl ⟨held, h.taken s name _ _ _ held hs, Nat.le_refl _⟩
    · exact .inr rfl
    · rcases Nat.lt_or_ge held t.partitions.val with hlt | hge
      · rcases h.granted s name _ held hs hlt with hkept | hgrown
        · exact .inl ⟨held, hkept, Nat.le_refl _⟩
        · exact .inl ⟨_, hgrown, Nat.le_of_lt hlt⟩
      · exact .inl ⟨held, h.refused s name _ held hs hge, Nat.le_refl _⟩
  · exact .inl ⟨held, (h.elsewhere s d name hname).trans hs, Nat.le_refl _⟩

end TopicSync
