import TopicSync.Proofs.Memory.Counts
import TopicSync.Proofs.Operator.Deletion
import TopicSync.Proofs.Plan.Growth
import TopicSync.Proofs.Pool

/-!
No topic loses partitions through the operator. Whatever else goes on at the same time, a request
that creates, deletes or extends a topic comes from a plan that was made of what its attempt has
read, and one for partitions asks for more than the brokers were read to hold. Brokers that refuse
to take partitions away therefore keep what they have until the topic is deleted.
-/
namespace TopicSync

open Program (Told OnlyAfter)

/-- The call creates, deletes or extends a topic. -/
def OperatorCall.Resizes (c : OperatorCall) : Prop :=
  (∃ t, c = .broker (.create t)) ∨ (∃ name, c = .broker (.delete name)) ∨
    ∃ t, c = .broker (.increasePartitions t)

/-- A call leaves the size of all topics alone, or is part of an action of the plan made of what was
read: the record, the resource, and the brokers' topic. -/
inductive Grounded (o : Operator) (told : Told operatorInterface) (c : OperatorCall) : Prop where
  | harmless (h : ¬ c.Resizes)
  | planned (topic : TopicName) (stored wanted kafka : Option Topic) (subject : Subject) (p : Plan)
      (a : Action) (hstored : ⟨.store (.read topic), .ok stored⟩ ∈ told)
      (hlive : ⟨.resource (.get subject.resource), .ok subject.live⟩ ∈ told)
      (hwanted : Operator.described topic subject = .ok wanted)
      (hkafka : ⟨.broker (.read topic), .ok kafka⟩ ∈ told)
      (hplan : Plan.make o.managed stored wanted kafka = .ok p) (ha : a ∈ p.actions)
      (hc : a.Calls c)

namespace Operator

variable {o : Operator} {told : Told operatorInterface}

theorem grounded_of_only {α : Type} {p : Task α} {Q : OperatorCall → Prop} (hp : p.Only Q)
    (hQ : ∀ c, Q c → ¬ c.Resizes) : p.OnlyAfter (Grounded o) told :=
  .of_only hp fun c _ hc => .harmless (hQ c hc)

theorem not_resizes_of_reports {c : OperatorCall} (h : c.Reports) : ¬ c.Resizes := by
  rcases h with ⟨m, rfl⟩ | ⟨w, rfl⟩ | ⟨name, r, rfl⟩ <;> simp [OperatorCall.Resizes]

/-- Once the record and the resource have been read, what is changed at the brokers is planned. -/
theorem grounded_settle (topic : TopicName) (stored : Option Topic) (subject : Subject)
    (hstored : ⟨.store (.read topic), .ok stored⟩ ∈ told)
    (hlive : ⟨.resource (.get subject.resource), .ok subject.live⟩ ∈ told) :
    (o.settle topic stored subject).OnlyAfter (Grounded o) told := by
  rw [settle]
  cases hwanted : described topic subject with
  | error e => exact .done _ _
  | ok wanted =>
    refine .ask (.harmless (by simp [OperatorCall.Resizes])) fun found => ?_
    cases found with
    | error e => exact .done _ _
    | ok kafka =>
      dsimp only
      cases hplan : Plan.make o.managed stored wanted kafka with
      | error e =>
        simp only [hplan, Program.bind]
        exact .done _ _
      | ok p =>
        simp only [hplan, Program.bind]
        have hcalls : (Program.forAll (o.execute subject) p.actions).Only
            fun c => ∃ a ∈ p.actions, a.Calls c :=
          .forAll fun a ha => (o.calls_execute subject a).mono fun c hc => ⟨a, ha, hc⟩
        refine OnlyAfter.bind (.of_only hcalls ?_) fun r later => ?_
        · rintro c later ⟨a, ha, hc⟩
          have hmem : ∀ x ∈ told, x ∈ told ++ [⟨.broker (.read topic), .ok kafka⟩] ++ later :=
            fun x hx => List.mem_append_left _ (List.mem_append_left _ hx)
          exact .planned topic stored wanted kafka subject p a (hmem _ hstored) (hmem _ hlive)
            hwanted (by simp) hplan ha hc
        · cases r <;> exact .done _ _

theorem grounded_attempt (topic : TopicName) (named : Option ResourceName) :
    (o.attempt topic named).OnlyAfter (Grounded o) told := by
  refine .ask (.harmless (by simp [OperatorCall.Resizes])) fun found => ?_
  cases found with
  | error e => exact .done _ _
  | ok stored =>
    refine .ask (.harmless (by simp [OperatorCall.Resizes])) fun found => ?_
    cases found with
    | error e => exact .done _ _
    | ok live =>
      simp only [Program.bind]
      split
      · exact .done _ _
      · refine OnlyAfter.bind (grounded_settle topic stored _ (by simp) (by simp)) fun r later => ?_
        exact .done _ _

end Operator

/-- All work of the operator changes the size of topics as planned only. -/
theorem Work.grounded_task (o : Operator) (w : Work) : (w.task o).OnlyAfter (Grounded o) [] := by
  have hread : ∀ (c : OperatorCall), ¬ c.Resizes → ∀ told, Grounded o told c :=
    fun c h _ => .harmless h
  cases w with
  | attempt topic named cause =>
    refine OnlyAfter.bind ?_ fun r later => .done _ _
    rw [Operator.reconcile_eq]
    refine .ask (hread _ (by simp [OperatorCall.Resizes]) _) fun _ => ?_
    refine OnlyAfter.bind (Operator.grounded_attempt topic named) fun outcome later => ?_
    exact Operator.grounded_of_only (Operator.reports_conclusion outcome)
      fun c => Operator.not_resizes_of_reports
  | sweep =>
    refine .ask (hread _ (by simp [OperatorCall.Resizes]) _) fun _ => ?_
    refine .ask (hread _ (by simp [OperatorCall.Resizes]) _) fun _ => ?_
    exact .ask (hread _ (by simp [OperatorCall.Resizes]) _) fun _ => .done _ _
  | reject resource reason =>
    refine OnlyAfter.bind ?_ fun r later => .done _ _
    rw [Operator.reject_eq]
    refine .ask (hread _ (by simp [OperatorCall.Resizes]) _) fun found => ?_
    exact Operator.grounded_of_only (Operator.reportsOn_rejection _ reason)
      fun c hc => Operator.not_resizes_of_reports hc.reports

namespace Operator

variable {o : Operator}

/-- An action other than these makes no request that matters to the size of a topic. -/
theorem only_execute_of_not_resizes {a : Action} (hcreate : ∀ t, a ≠ .createKafkaTopic t)
    (hdelete : ∀ name, a ≠ .deleteKafkaTopic name) (hincrease : ∀ t, a ≠ .increaseKafkaPartitions t)
    (subject : Subject) :
    ((o.execute subject a).translate Admin.carryOut).Only fun d : BrokeredCall =>
      d.resizes? = none := by
  refine (o.calls_execute subject a).translate fun c hc =>
    (Admin.only_carryOut c).mono fun d hd => ?_
  cases hd' : BrokeredCall.resizes? d with
  | none => rfl
  | some name =>
    rcases hd.of_resizes hd' with ⟨t, -, rfl, -⟩ | ⟨n, -, rfl, -⟩ | ⟨t, -, rfl, -⟩
    all_goals
      cases a with
      | createKafkaTopic u => exact absurd rfl (hcreate u)
      | deleteKafkaTopic u => exact absurd rfl (hdelete u)
      | increaseKafkaPartitions u => exact absurd rfl (hincrease u)
      | warn reason message => simp [Action.Calls] at hc
      | _ => cases hc

/-- A request for partitions asks for more than the brokers were read to hold. -/
theorem of_createPartitions {told : Told operatorInterface} {c : OperatorCall} {name : String}
    {n : Nat} (hc : Grounded o told c)
    (hd : Admin.CarriedOutBy c (.inl (.createPartitions name n))) :
    ∃ (topic : TopicName) (record held : Topic),
      ⟨.store (.read topic), .ok (some record)⟩ ∈ told ∧
        ⟨.broker (.read topic), .ok (some held)⟩ ∈ told ∧
        name = record.name.text ∧ held.partitions.val < n := by
  obtain ⟨t, rfl, rfl, heq⟩ : ∃ t : Topic, name = t.name.text ∧
      c = .broker (.increasePartitions t) ∧
      (.inl (.createPartitions name n) : BrokeredCall) =
        .inl (.createPartitions name t.partitions.val) := by
    rcases hd.of_resizes rfl with ⟨t, -, -, h⟩ | ⟨u, -, -, h⟩ | ⟨t, h⟩
    · cases h
    · cases h
    · exact ⟨t, h⟩
  cases heq
  cases hc with
  | harmless h => exact absurd (.inr (.inr ⟨t, rfl⟩)) h
  | planned topic stored wanted kafka subject p a hstored hlive hwanted hkafka hplan ha hc =>
    obtain rfl : a = .increaseKafkaPartitions t := by
      cases a with
      | increaseKafkaPartitions u => cases hc; rfl
      | createKafkaTopic u => simp [Action.Calls] at hc
      | warn reason message => simp [Action.Calls] at hc
      | _ => cases hc
    obtain ⟨record, _, held, rfl, _, rfl, hname, hlt⟩ :=
      Plan.of_increaseKafkaPartitions_mem hplan ha
    exact ⟨topic, record, held, hstored, hkafka, congrArg TopicName.text hname, hlt⟩

/-- The programs that the operator runs. -/
def Starts (o : Operator) (p : Task Completion) : Prop := ∃ w : Work, p = w.task o

/-- With all three sides present, a plan is refused if a side has fewer partitions than the record,
and leads to the greatest number of partitions otherwise. In every plan, partitions are requested
only beyond those that the brokers hold, and no other action is of any consequence to the size of a
topic that exists, short of deleting it. Over every run, no request of the operator leaves a topic
with fewer partitions, other than by deleting it, and each that changes the size of a topic follows
from the plan of what its attempt has read. -/
theorem partitions_never_shrink {σ : Type}
    {answer : (d : BrokeredCall) → σ → brokeredInterface.Answer d × σ}
    {count : σ → String → Option Nat} (h : GuardsCounts answer count) (o : Operator) :
    (∀ stored resource kafka : Topic,
      resource.partitions.val < stored.partitions.val ∨
        kafka.partitions.val < stored.partitions.val →
      ∃ e, Plan.make o.managed (some stored) (some resource) (some kafka) = .error e) ∧
    (∀ (stored resource kafka : Topic) (p : Plan),
      Plan.make o.managed (some stored) (some resource) (some kafka) = .ok p → p.actions ≠ [] →
      ∃ result, p.actions = Plan.steps kafka result ∧
        result.partitions.val =
          max stored.partitions.val (max resource.partitions.val kafka.partitions.val)) ∧
    (∀ (stored wanted kafka : Option Topic) (p : Plan),
      Plan.make o.managed stored wanted kafka = .ok p →
      (∀ t, .increaseKafkaPartitions t ∈ p.actions →
        ∃ k, kafka = some k ∧ k.partitions.val < t.partitions.val) ∧
      ∀ a ∈ p.actions, (∀ t, a ≠ .increaseKafkaPartitions t) →
        (∀ name, a ≠ .deleteKafkaTopic name) → kafka ≠ none → ∀ subject,
        ((o.execute subject a).translate Admin.carryOut).Only fun d : BrokeredCall =>
          d.resizes? = none) ∧
    ∀ (s : σ) (ms : List (Pool.Moment operatorInterface brokeredInterface σ))
      (x : Pool operatorInterface brokeredInterface Completion σ),
      Pool.Run Admin.carryOut answer o.Starts ⟨s, []⟩ ms x → ∀ m ∈ ms,
        (∀ name held, count m.state name = some held →
          (∃ n, count (answer m.request m.state).2 name = some n ∧ held ≤ n) ∨
            m.request = .inl (.deleteTopic name)) ∧
        (∃ c, Grounded o m.told c ∧ Admin.CarriedOutBy c m.request) ∧
        ∀ name n, m.request = .inl (.createPartitions name n) →
          ∃ (topic : TopicName) (record held : Topic),
            ⟨.store (.read topic), .ok (some record)⟩ ∈ m.told ∧
              ⟨.broker (.read topic), .ok (some held)⟩ ∈ m.told ∧
              name = record.name.text ∧ held.partitions.val < n := by
  refine ⟨fun stored resource kafka hless => ?_, fun stored resource kafka p hplan hne => ?_,
    fun stored wanted kafka p hplan => ⟨fun t ht => ?_, ?_⟩, fun s ms x hrun m hm => ?_⟩
  case refine_1 =>
    rw [Plan.make]
    cases ha : Plan.mergeActions stored resource kafka with
    | error e => exact ⟨e, rfl⟩
    | ok actions =>
      obtain ⟨hr, hk, -⟩ := Plan.of_mergeActions_eq_ok ha
      omega
  case refine_2 =>
    rw [Plan.make] at hplan
    split at hplan
    next actions ha =>
      cases hplan
      obtain ⟨-, -, hsteps⟩ := Plan.of_mergeActions_eq_ok ha
      obtain ⟨result, hactions, -, hmax⟩ := hsteps hne
      exact ⟨result, hactions, hmax⟩
    next => cases hplan
  case refine_3 =>
    obtain ⟨_, _, k, _, _, hk, _, hlt⟩ := Plan.of_increaseKafkaPartitions_mem hplan ht
    exact ⟨k, hk, hlt⟩
  case refine_4 =>
    intro a ha hincrease hdelete hkafka subject
    refine only_execute_of_not_resizes ?_ hdelete hincrease subject
    rintro t rfl
    exact hkafka (Plan.of_createKafkaTopic_mem hplan ha)
  case refine_5 =>
    have hstarts : ∀ p, o.Starts p → p.OnlyAfter (Grounded o) [] := by
      rintro p ⟨w, rfl⟩
      exact w.grounded_task o
    obtain ⟨c, hc, hd⟩ := hrun.requests Admin.only_carryOut hstarts (by rintro r ⟨⟩) m hm
    refine ⟨fun name held hheld => h.kept hd hheld, ⟨c, hc, hd⟩, fun name n hreq => ?_⟩
    exact of_createPartitions hc (hreq ▸ hd)

end Operator

namespace Memory.World

/-- The resource of the topic `orders` asks for one more partition. -/
def grownOrders : Topic :=
  { Plan.ordersStored with partitions := Plan.ordersResource.partitions }

def growingWorld : World :=
  ({ empty with
    brokers := Brokers.empty.put Plan.ordersStored
    resources := Resources.empty.create grownOrders 1 }.putRecord Plan.ordersStored).2

def growingWork : Work := .attempt Plan.ordersStored.name none "ResourceModified"

/-- The attempt requests the partition, and the topic keeps those that it has. -/
theorem partitions_never_shrink_orders :
    ∃ (ms : List (Pool.Moment operatorInterface brokeredInterface World))
      (x : Pool operatorInterface brokeredInterface Completion World),
      Pool.Run Admin.carryOut brokered ordersOperator.Starts ⟨growingWorld, []⟩ ms x ∧
      ∃ m ∈ ms, m.request = .inl (.createPartitions "orders" 4) ∧
        partitionsOf m.state "orders" = some 3 ∧
        ∃ n, partitionsOf (brokered m.request m.state).2 "orders" = some n ∧ 3 ≤ n := by
  obtain ⟨ms, x, hrun, hms⟩ := Pool.run_between Admin.carryOut brokered ordersOperator.Starts []
    (growingWork.task ordersOperator) growingWorld
  have hpool : Pool.Run Admin.carryOut brokered ordersOperator.Starts ⟨growingWorld, []⟩ ms x :=
    .cons (.start ⟨growingWork, rfl⟩ growingWorld []) hrun
  have hrequest : ((((growingWork.task ordersOperator).translate Admin.carryOut).moments brokered
      growingWorld).any fun m : BrokeredCall × World => m.1 = .inl (.createPartitions "orders" 4) ∧
        partitionsOf m.2 "orders" = some 3) = true := by
    decide +kernel
  obtain ⟨d, hd, hreq⟩ := List.any_eq_true.1 hrequest
  rw [← hms] at hd
  obtain ⟨m, hm, rfl⟩ := List.mem_map.1 hd
  obtain ⟨hreq, hheld⟩ : m.request = .inl (.createPartitions "orders" 4) ∧
      partitionsOf m.state "orders" = some 3 := by simpa using hreq
  have hkept := ((Operator.partitions_never_shrink guardsCounts_brokered ordersOperator).2.2.2
    growingWorld ms x hpool m hm).1 "orders" 3 hheld
  refine ⟨ms, x, hpool, m, hm, hreq, hheld, hkept.resolve_right ?_⟩
  rw [hreq]
  simp

end Memory.World

end TopicSync
