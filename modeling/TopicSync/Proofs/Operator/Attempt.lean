import TopicSync.Proofs.Operator.Deletion
import TopicSync.Proofs.Operator.Inventory

/-!
The course of an attempt in a world: what it reads first, the plan that it makes of that, and how
far it gets with the actions. A plan that does anything at all ends with the one action on the
record.
-/
namespace TopicSync

/-- The action is about the record. -/
def Action.isOnRecord : Action → Bool
  | createStored _ | updateStored _ | deleteStored _ => true
  | _ => false

/-- The call by which an action is carried out, or announced if it is a warning. -/
def Action.call (s : Subject) : Action → OperatorCall
  | createKafkaTopic t => .broker (.create t)
  | deleteKafkaTopic name => .broker (.delete name)
  | changeReplicationFactor t => .broker (.changeReplicationFactor t)
  | updateKafkaConfig t => .broker (.updateConfig t)
  | increaseKafkaPartitions t => .broker (.increasePartitions t)
  | createResource t => .resource (.create t)
  | updateResource t => .resource (.update t)
  | deleteResource name => .resource (.delete name)
  | createStored t => .store (.create t)
  | updateStored t => .store (.update t)
  | deleteStored name => .store (.delete name)
  | warn reason message => .warn (Operator.warning s reason message)

namespace OperatorCall

/-- The call is one of the three reads with which an attempt begins. -/
def Inquires (c : OperatorCall) : Prop :=
  (∃ topic, c = store (.read topic)) ∨ (∃ name, c = resource (.get name)) ∨
    ∃ topic, c = broker (.read topic)

theorem Inquires.writesStore {c : OperatorCall} (h : c.Inquires) : c.writesStore = false := by
  rcases h with ⟨_, rfl⟩ | ⟨_, rfl⟩ | ⟨_, rfl⟩ <;> rfl

theorem Reports.writesStore {c : OperatorCall} (h : c.Reports) : c.writesStore = false := by
  rcases h with ⟨m, rfl⟩ | ⟨w, rfl⟩ | ⟨name, r, rfl⟩ <;> rfl

end OperatorCall

/-- Of the actions of a plan, the last and only the last is on the record. -/
theorem Plan.record_last {managed : Selector} {stored wanted kafka : Option Topic} {p : Plan}
    (h : make managed stored wanted kafka = .ok p) :
    p.actions = [] ∨ ∃ init last, p.actions = init ++ [last] ∧ last.isOnRecord = true ∧
      ∀ a ∈ init, a.isOnRecord = false := by
  cases made_of_make h with
  | nothing => exact .inl rfl
  | keeps s r k => exact .inl rfl
  | records r k => exact .inr ⟨[], _, rfl, rfl, by simp⟩
  | forgets s => exact .inr ⟨[], _, rfl, rfl, by simp⟩
  | overwrites r k =>
    exact .inr ⟨[_, _], _, rfl, rfl, by simp [Action.isOnRecord, overwriteWarning]⟩
  | merges s r k =>
    refine .inr ⟨_, _, rfl, rfl, fun a ha => ?_⟩
    rcases mem_preparations ha with rfl | rfl | rfl | rfl <;> rfl
  | _ => exact .inr ⟨[_], _, rfl, rfl, by simp [Action.isOnRecord]⟩

theorem Action.writesStore_of_calls {a : Action} {c : OperatorCall} (ha : a.isOnRecord = false)
    (h : a.Calls c) : c.writesStore = false := by
  cases a with
  | createKafkaTopic t => rcases h with rfl | rfl | ⟨ms, rfl⟩ <;> rfl
  | warn reason message => rcases h with rfl | ⟨w, rfl⟩ <;> rfl
  | createStored t => cases ha
  | updateStored t => cases ha
  | deleteStored name => cases ha
  | _ =>
    cases h
    rfl

namespace Task

variable {α σ : Type} {answer : (c : OperatorCall) → σ → c.Answer × σ}

@[simp] theorem moments_resource (c : ResourceCall) (f : c.Answer → Task α) (s : σ) :
    ((resource c).bind f).moments answer s = (.resource c, s) ::
      (f (answer (.resource c) s).1).moments answer (answer (.resource c) s).2 := rfl
@[simp] theorem run_broker (c : BrokerCall) (f : c.Answer → Task α) (s : σ) :
    ((broker c).bind f).run answer s =
      (f (answer (.broker c) s).1).run answer (answer (.broker c) s).2 := rfl
@[simp] theorem run_resource (c : ResourceCall) (f : c.Answer → Task α) (s : σ) :
    ((resource c).bind f).run answer s =
      (f (answer (.resource c) s).1).run answer (answer (.resource c) s).2 := rfl
@[simp] theorem run_store (c : StoreCall) (f : c.Answer → Task α) (s : σ) :
    ((store c).bind f).run answer s =
      (f (answer (.store c) s).1).run answer (answer (.store c) s).2 := rfl

end Task

section Course

variable {σ : Type} {answer : (c : OperatorCall) → σ → c.Answer × σ} {o : Operator}
  {topic : TopicName} {named : Option ResourceName} {s s' : σ} {subject : Subject} {a : Action}
  {ms : List (OperatorCall × σ)}

/-- The action is carried out by the calls: its own is among them and succeeds, and a topic that is
created is read after that, and found. -/
structure Action.CarriedOut (answer : (c : OperatorCall) → σ → c.Answer × σ) (subject : Subject)
    (a : Action) (ms : List (OperatorCall × σ)) : Prop where
  succeeds : ∃ s, (a.call subject, s) ∈ ms ∧
    (a.call subject).Succeeds (answer (a.call subject) s).1
  seen : ∀ t, a = .createKafkaTopic t → ∃ before s after s' u,
    ms = before ++ (.broker (.create t), s) :: after ∧
      (.broker (.read t.name), s') ∈ after ∧
      (answer (.broker (.read t.name)) s').1 = .ok (some u)

theorem Action.CarriedOut.extend (h : a.CarriedOut answer subject ms)
    (before after : List (OperatorCall × σ)) :
    a.CarriedOut answer subject (before ++ ms ++ after) := by
  refine ⟨?_, fun t ht => ?_⟩
  · obtain ⟨s, hm, hs⟩ := h.succeeds
    exact ⟨s, List.mem_append_left _ (List.mem_append_right _ hm), hs⟩
  · obtain ⟨xs, s, ys, s', u, rfl, hm, hu⟩ := h.seen t ht
    exact ⟨before ++ xs, s, ys ++ after, s', u, by simp, List.mem_append_left _ hm, hu⟩

namespace Operator

/-- An action on the record makes one call. -/
theorem moments_execute_of_isOnRecord (ha : a.isOnRecord = true) (s : σ) :
    (o.execute subject a).moments answer s = [(a.call subject, s)] := by
  cases a with
  | createStored t => rfl
  | updateStored t => rfl
  | deleteStored name => rfl
  | _ => cases ha

theorem ok_of_mapError {r : Except StoreError Unit} (h : r.mapError Failure.store = .ok ()) :
    ∃ u, r = .ok u := by
  cases r with
  | ok u => exact ⟨u, rfl⟩
  | error e => cases h

/-- Waiting until the brokers show a new topic. -/
def awaitTopic (o : Operator) (t : Topic) : Task (Except Failure Topic) :=
  Visibility.await o.retry t.name.text (Task.broker (.read t.name)) Task.wait

/-- A topic is created, and then waited for unless that has failed. -/
theorem execute_createKafkaTopic (o : Operator) (subject : Subject) (t : Topic) (s : σ) :
    (∃ e, (answer (.broker (.create t)) s).1 = .error e ∧
      ((o.execute subject (.createKafkaTopic t)).run answer s).1 = .error e ∧
      (o.execute subject (.createKafkaTopic t)).moments answer s = [(.broker (.create t), s)]) ∨
    ∃ s₁, (answer (.broker (.create t)) s).1 = .ok () ∧
      ((o.execute subject (.createKafkaTopic t)).run answer s).1 =
        ((o.awaitTopic t).run answer s₁).1.map (fun _ => ()) ∧
      (o.execute subject (.createKafkaTopic t)).moments answer s =
        (.broker (.create t), s) :: (o.awaitTopic t).moments answer s₁ := by
  rw [execute, Task.run_broker, Task.moments_broker]
  cases hcreate : (answer (.broker (.create t)) s).1 with
  | error e => exact .inl ⟨e, rfl, rfl, rfl⟩
  | ok u =>
    refine .inr ⟨(answer (.broker (.create t)) s).2, rfl, ?_, ?_⟩
    · refine (congrArg Prod.fst (Program.bind_run answer (o.awaitTopic t) _ _)).trans ?_
      cases ((o.awaitTopic t).run answer (answer (.broker (.create t)) s).2).1 <;> rfl
    · refine congrArg (_ :: ·) ((Program.moments_bind answer (o.awaitTopic t) _ _).trans ?_)
      cases ((o.awaitTopic t).run answer (answer (.broker (.create t)) s).2).1 <;> simp

/-- An action that ends well has been carried out. -/
theorem carriedOut_execute (h : ((o.execute subject a).run answer s).1 = .ok ()) :
    a.CarriedOut answer subject ((o.execute subject a).moments answer s) := by
  cases a with
  | createKafkaTopic t =>
    rcases execute_createKafkaTopic o subject t s with ⟨e, -, he, -⟩ | ⟨s₁, hcreate, hrun, hms⟩
    · rw [he] at h
      cases h
    · refine ⟨⟨s, by rw [hms]; exact .head _, _, hcreate⟩, fun t' ht => ?_⟩
      cases ht
      rw [hrun] at h
      cases hwait : ((o.awaitTopic t).run answer s₁).1 with
      | error e =>
        rw [hwait] at h
        cases h
      | ok found =>
        obtain ⟨before, s', hwaited, hfound⟩ := (Program.of_await hwait).resolve_left (by simp)
        refine ⟨[], s, _, s', found, hms, ?_, hfound⟩
        rw [awaitTopic, hwaited]
        exact List.mem_append_right _ (.head _)
  | warn reason message => exact ⟨⟨_, .tail _ (.head _), trivial⟩, by simp⟩
  | createStored t => exact ⟨⟨s, .head _, ok_of_mapError h⟩, by simp⟩
  | updateStored t => exact ⟨⟨s, .head _, ok_of_mapError h⟩, by simp⟩
  | deleteStored name => exact ⟨⟨s, .head _, ok_of_mapError h⟩, by simp⟩
  | _ => exact ⟨⟨s, .head _, ⟨_, h⟩⟩, by simp⟩

theorem carriedOut_forAll {actions : List Action}
    (h : ((Program.forAll (o.execute subject) actions).run answer s).1 = .ok ())
    (ha : a ∈ actions) :
    a.CarriedOut answer subject
      ((Program.forAll (o.execute subject) actions).moments answer s) := by
  obtain ⟨before, s', after, hms, hrun⟩ := Program.of_forAll_ok h ha
  rw [hms]
  exact (carriedOut_execute hrun).extend before after

theorem error_of_mapError {r : Except StoreError Unit} {e : Failure}
    (h : r.mapError Failure.store = .error e) : ∃ e', r = .error e' ∧ e = .store e' := by
  cases r with
  | ok u => cases h
  | error e' =>
    cases h
    exact ⟨e', rfl, rfl⟩

/-- An action that fails does so with the failure of one of its calls, or because a new topic does
not show in time. -/
theorem failure_execute {e : Failure} (h : ((o.execute subject a).run answer s).1 = .error e) :
    (∃ t, e = .metadataTimeout t o.retry.attempts) ∨
      ∃ m ∈ (o.execute subject a).moments answer s, m.1.FailsWith e (answer m.1 m.2).1 := by
  cases a with
  | createKafkaTopic t =>
    rcases execute_createKafkaTopic o subject t s with ⟨e', hcreate, he, hms⟩ | ⟨s₁, -, hrun, hms⟩
    · rw [he] at h
      cases h
      exact .inr ⟨(.broker (.create t), s), by rw [hms]; exact .head _, hcreate⟩
    · rw [hrun] at h
      cases hwait : ((o.awaitTopic t).run answer s₁).1 with
      | ok found =>
        rw [hwait] at h
        cases h
      | error e' =>
        rw [hwait] at h
        cases h
        rcases Program.of_await hwait with ht | ⟨before, s', hwaited, hfailed⟩
        · cases ht
          exact .inl ⟨_, rfl⟩
        · refine .inr ⟨(.broker (.read t.name), s'), ?_, hfailed⟩
          rw [hms, awaitTopic, hwaited]
          exact .tail _ (List.mem_append_right _ (.head _))
  | warn reason message => cases h
  | createStored t => exact .inr ⟨_, .head _, error_of_mapError h⟩
  | updateStored t => exact .inr ⟨_, .head _, error_of_mapError h⟩
  | deleteStored name => exact .inr ⟨_, .head _, error_of_mapError h⟩
  | _ => exact .inr ⟨_, .head _, h⟩

/-- What a run tells of the subject of its attempt: no other resource is read, and the object is
there just if it has been found and is managed. -/
structure ReadIn (answer : (c : OperatorCall) → σ → c.Answer × σ) (o : Operator)
    (ms : List (OperatorCall × σ)) (subject : Subject) : Prop where
  alone : ∀ n s, (.resource (.get n), s) ∈ ms → n = subject.resource
  live_iff : ∀ r, subject.live = some r ↔ r.isManaged o.managed = true ∧
    ∃ s, (.resource (.get subject.resource), s) ∈ ms ∧
      (answer (.resource (.get subject.resource)) s).1 = .ok (some r)

theorem ReadIn.extend (h : ReadIn answer o ms subject) (before after : List (OperatorCall × σ))
    (hb : ∀ m ∈ before, ∀ n, m.1 ≠ .resource (.get n))
    (ha : ∀ m ∈ after, ∀ n, m.1 ≠ .resource (.get n)) :
    ReadIn answer o (before ++ (ms ++ after)) subject := by
  have hmem : ∀ n s, (OperatorCall.resource (.get n), s) ∈ before ++ (ms ++ after) ↔
      (.resource (.get n), s) ∈ ms := by
    intro n s
    simp only [List.mem_append]
    constructor
    · rintro (hm | hm | hm)
      · exact absurd rfl (hb _ hm n)
      · exact hm
      · exact absurd rfl (ha _ hm n)
    · exact fun hm => .inr (.inl hm)
  constructor
  · exact fun n s hm => h.alone n s ((hmem n s).1 hm)
  · intro r
    simp only [hmem]
    exact h.live_iff r

/-- Without a read of a resource there is no object. -/
theorem readIn_of_none (h : ∀ m ∈ ms, ∀ n, m.1 ≠ .resource (.get n)) (resource : ResourceName) :
    ReadIn answer o ms ⟨resource, none⟩ where
  alone n _ hm := absurd rfl (h _ hm n)
  live_iff _ := iff_of_false nofun fun ⟨_, _, hm, _⟩ => absurd rfl (h _ hm resource)

theorem readIn_of_get {n : ResourceName} {found : Except Failure (Option Resource)}
    {live : Option Resource} (hfound : (answer (.resource (.get n)) s).1 = found)
    (hlive : ∀ r, live = some r ↔ r.isManaged o.managed = true ∧ found = .ok (some r)) :
    ReadIn answer o [(.resource (.get n), s)] ⟨n, live⟩ := by
  subst hfound
  constructor
  · intro n' s' hm
    cases List.mem_singleton.1 hm
    rfl
  · intro r
    rw [hlive r]
    refine and_congr_right fun _ => ⟨fun h => ⟨s, List.mem_singleton.2 rfl, h⟩, ?_⟩
    rintro ⟨s', hm, h⟩
    cases List.mem_singleton.1 hm
    exact h

/-- What an attempt has read by the time that it carries out a plan, and the plan that is made of
that. -/
inductive Planned (answer : (c : OperatorCall) → σ → c.Answer × σ) (o : Operator)
    (topic : TopicName) (named : Option ResourceName) (s : σ) :
    Subject → Plan → List (OperatorCall × σ) → σ → Prop where
  | intro {stored wanted kafka : Option Topic} {live : Option Resource} {p : Plan} {s₁ s₂ s₃ : σ}
      (hstored : answer (.store (.read topic)) s = (.ok stored, s₁))
      (hlive : answer (.resource (.get (resourceFor topic named stored))) s₁ = (.ok live, s₂))
      (hmanaged : ∀ r, live = some r → r.isManaged o.managed = true)
      (hwanted : described topic ⟨resourceFor topic named stored, live⟩ = .ok wanted)
      (hkafka : answer (.broker (.read topic)) s₂ = (.ok kafka, s₃))
      (hplan : Plan.make o.managed stored wanted kafka = .ok p) :
      Planned answer o topic named s ⟨resourceFor topic named stored, live⟩ p
        [(.store (.read topic), s), (.resource (.get (resourceFor topic named stored)), s₁),
          (.broker (.read topic), s₂)] s₃

/-- How an attempt goes: it gets no further than its reads, or carries out the plan made of them. -/
inductive Course (answer : (c : OperatorCall) → σ → c.Answer × σ) (o : Operator)
    (topic : TopicName) (named : Option ResourceName) (s : σ) :
    List (OperatorCall × σ) → Subject × Except Failure (Option Decision) → Prop where
  | stopped {ms : List (OperatorCall × σ)} {outcome : Subject × Except Failure (Option Decision)}
      (h : ∀ m ∈ ms, m.1.Inquires) (hread : ReadIn answer o ms outcome.1)
      (hundecided : ∀ d, outcome.2 ≠ .ok (some d)) : Course answer o topic named s ms outcome
  | planned {subject : Subject} {p : Plan} {reads : List (OperatorCall × σ)} {s' : σ}
      (h : Planned answer o topic named s subject p reads s') :
      Course answer o topic named s
        (reads ++ (Program.forAll (o.execute subject) p.actions).moments answer s')
        (subject, ((Program.forAll (o.execute subject) p.actions).run answer s').1.map
          fun _ => some p.decision)

/-- How an attempt goes once the resource has been read. -/
theorem course_settle (answer : (c : OperatorCall) → σ → c.Answer × σ) (o : Operator)
    (topic : TopicName) (stored : Option Topic) (subject : Subject) (s : σ) :
    ((∀ m ∈ (o.settle topic stored subject).moments answer s, m.1 = .broker (.read topic)) ∧
        ∃ e, ((o.settle topic stored subject).run answer s).1 = .error e) ∨
      ∃ wanted kafka p s', described topic subject = .ok wanted ∧
        answer (.broker (.read topic)) s = (.ok kafka, s') ∧
        Plan.make o.managed stored wanted kafka = .ok p ∧
        (o.settle topic stored subject).moments answer s = (.broker (.read topic), s) ::
          (Program.forAll (o.execute subject) p.actions).moments answer s' ∧
        ((o.settle topic stored subject).run answer s).1 =
          ((Program.forAll (o.execute subject) p.actions).run answer s').1.map
            fun _ => some p.decision := by
  rw [settle]
  cases hwanted : described topic subject with
  | error e => exact .inl ⟨by simp, e, rfl⟩
  | ok wanted =>
    dsimp only
    rw [Task.moments_broker, Task.run_broker]
    cases hk : answer (.broker (.read topic)) s with
    | mk found s' =>
      cases found with
      | error e => exact .inl ⟨by simp, e, rfl⟩
      | ok kafka =>
        cases hp : Plan.make o.managed stored wanted kafka with
        | error e =>
          simp only [hp]
          exact .inl ⟨by simp, e, rfl⟩
        | ok p =>
          simp only [hp]
          refine .inr ⟨wanted, kafka, p, s', rfl, rfl, hp, congrArg (_ :: ·) ?_, ?_⟩
          · refine (Program.moments_bind answer
              (Program.forAll (o.execute subject) p.actions) _ s').trans ?_
            cases ((Program.forAll (o.execute subject) p.actions).run answer s').1 <;> simp
          · refine (congrArg Prod.fst (Program.bind_run answer
              (Program.forAll (o.execute subject) p.actions) _ s')).trans ?_
            cases ((Program.forAll (o.execute subject) p.actions).run answer s').1 <;> rfl

theorem course_attempt {outcome : Subject × Except Failure (Option Decision)}
    (hms : (o.attempt topic named).moments answer s = ms)
    (hrun : ((o.attempt topic named).run answer s).1 = outcome) :
    Course answer o topic named s ms outcome := by
  have hstore : (OperatorCall.store (.read topic)).Inquires := .inl ⟨topic, rfl⟩
  have hget : ∀ n, (OperatorCall.resource (.get n)).Inquires := fun n => .inr (.inl ⟨n, rfl⟩)
  have hread : (OperatorCall.broker (.read topic)).Inquires := .inr (.inr ⟨topic, rfl⟩)
  rw [attempt, Task.moments_store] at hms
  rw [attempt, Task.run_store] at hrun
  cases hs : answer (.store (.read topic)) s with
  | mk found s₁ =>
    rw [hs] at hms hrun
    cases found with
    | error e =>
      subst hms hrun
      exact .stopped (by simpa using hstore) (readIn_of_none (by simp) _) (by simp)
    | ok stored =>
      dsimp only at hms hrun
      rw [Task.moments_resource] at hms
      rw [Task.run_resource] at hrun
      have hbefore : ∀ m ∈ [(OperatorCall.store (.read topic), s)], ∀ n,
          m.1 ≠ .resource (.get n) := by simp
      cases hr : answer (.resource (.get (resourceFor topic named stored))) s₁ with
      | mk got s₂ =>
        rw [hr] at hms hrun
        have hgot := congrArg Prod.fst hr
        cases got with
        | error e =>
          subst hms hrun
          exact .stopped (by simpa using ⟨hstore, hget _⟩)
            ((readIn_of_get hgot (by simp)).extend _ [] hbefore (by simp)) (by simp)
        | ok live =>
          dsimp only at hms hrun
          by_cases hm : (live.any fun r => !r.isManaged o.managed) = true
          · rw [if_pos hm] at hms hrun
            subst hms hrun
            have hnone : ∀ r, none = some r ↔
                r.isManaged o.managed = true ∧ Except.ok (ε := Failure) live = .ok (some r) := by
              refine fun r => iff_of_false (by simp) ?_
              rintro ⟨hmanaged, ⟨⟩⟩
              simp [hmanaged] at hm
            exact .stopped (by simpa using ⟨hstore, hget _⟩)
              ((readIn_of_get hgot hnone).extend _ [] hbefore (by simp)) (by simp)
          · rw [if_neg hm, Program.moments_bind] at hms
            rw [if_neg hm] at hrun
            have hresult := (congrArg Prod.fst (Program.bind_run answer
              (o.settle topic stored ⟨resourceFor topic named stored, live⟩) _ s₂)).symm.trans hrun
            rw [Program.moments_done, List.append_nil] at hms
            have hmanaged : ∀ r, live = some r → r.isManaged o.managed = true := by
              rintro r rfl
              simpa using hm
            rcases course_settle answer o topic stored ⟨resourceFor topic named stored, live⟩ s₂
              with ⟨hstop, e, he⟩ | ⟨wanted, kafka, p, s', hwanted, hkafka, hplan, hmoments, hend⟩
            · rw [he] at hresult
              subst hms hresult
              refine .stopped ?_ ((readIn_of_get hgot ?_).extend _ _ hbefore ?_) (by simp)
              · intro m hm
                rcases List.mem_cons.1 hm with rfl | hm
                · exact hstore
                rcases List.mem_cons.1 hm with rfl | hm
                · exact hget _
                · exact (hstop m hm).symm ▸ hread
              · exact fun r => ⟨fun h => ⟨hmanaged r h, congrArg Except.ok h⟩,
                  fun h => Except.ok.inj h.2⟩
              · intro m hm n
                simp [hstop m hm]
            · rw [hmoments] at hms
              rw [hend] at hresult
              subst hms hresult
              exact .planned (.intro hs hr hmanaged hwanted hkafka hplan)

theorem reports_of_conclusion {outcome : Subject × Except Failure (Option Decision)}
    (h : ∃ s', ms = (conclusion outcome).moments answer s') : ∀ m ∈ ms, m.1.Reports := by
  obtain ⟨s', rfl⟩ := h
  exact fun m hm => (reports_conclusion _).of_mem_moments hm

/-- What surrounds an attempt are counts and reports, which leave its result as it is. -/
theorem course_reconcile (answer : (c : OperatorCall) → σ → c.Answer × σ) (o : Operator)
    (topic : TopicName) (named : Option ResourceName) (s : σ) :
    ∃ ms outcome tail,
      (o.reconcile topic named).moments answer s =
          (.count .reconciliation, s) :: (ms ++ tail) ∧
        ((o.reconcile topic named).run answer s).1 = outcome.2 ∧
        Course answer o topic named (answer (.count .reconciliation) s).2 ms outcome ∧
        ∃ s', tail = (conclusion outcome).moments answer s' := by
  rw [reconcile_eq, Program.moments_ask, Program.run_ask]
  generalize hs : (answer (.count .reconciliation) s).2 = s₀
  generalize houtcome : ((o.attempt topic named).run answer s₀).1 = outcome
  refine ⟨_, outcome, _, congrArg (_ :: ·) (Program.moments_bind answer _ conclusion s₀), ?_,
    course_attempt rfl houtcome, _, by rw [houtcome]⟩
  have hrun := Program.bind_run answer (o.attempt topic named) conclusion s₀
  refine (congrArg Prod.fst hrun).trans ?_
  rw [houtcome]
  exact result_of_conclusion (Program.Yields.of_run (I := operatorInterface) answer _ _)

end Operator

end Course

end TopicSync
