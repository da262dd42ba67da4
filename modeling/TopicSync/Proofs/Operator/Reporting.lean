import TopicSync.Proofs.Memory.Indifference
import TopicSync.Proofs.Operator.RecordLast

/-!
How an attempt is reported. Its reports are true to its result: a failure is announced once, after
all else, and goes into the status of the resource that has been read; success is silent, but for
the warning about a resource that has been overwritten, and goes into the status unless it stands
there; and an attempt at a resource that is not managed reports nothing.
-/
namespace TopicSync

namespace OperatorCall

def warning? : OperatorCall → Option Warning
  | warn w => some w
  | _ => none

def statusWrite? : OperatorCall → Option (ResourceName × Report)
  | resource (.updateStatus name r) => some (name, r)
  | _ => none

/-- The warnings among some calls, in order. -/
def warnings (cs : List OperatorCall) : List Warning := cs.filterMap warning?

/-- The statuses that some calls write, in order. -/
def statusWrites (cs : List OperatorCall) : List (ResourceName × Report) :=
  cs.filterMap statusWrite?

@[simp] theorem warnings_append (cs ds : List OperatorCall) :
    warnings (cs ++ ds) = warnings cs ++ warnings ds := List.filterMap_append

@[simp] theorem statusWrites_append (cs ds : List OperatorCall) :
    statusWrites (cs ++ ds) = statusWrites cs ++ statusWrites ds := List.filterMap_append

@[simp] theorem warnings_count (m : Metric) (cs : List OperatorCall) :
    warnings (count m :: cs) = warnings cs := rfl

@[simp] theorem statusWrites_count (m : Metric) (cs : List OperatorCall) :
    statusWrites (count m :: cs) = statusWrites cs := rfl

@[simp] theorem warnings_nil : warnings [] = [] := rfl

@[simp] theorem statusWrites_nil : statusWrites [] = [] := rfl

theorem warnings_eq_nil {cs : List OperatorCall} (h : ∀ c ∈ cs, c.warning? = none) :
    warnings cs = [] :=
  List.filterMap_eq_nil_iff.2 h

theorem statusWrites_eq_nil {cs : List OperatorCall} (h : ∀ c ∈ cs, c.statusWrite? = none) :
    statusWrites cs = [] :=
  List.filterMap_eq_nil_iff.2 h

theorem Inquires.silent {c : OperatorCall} (h : c.Inquires) :
    c.warning? = none ∧ c.statusWrite? = none := by
  rcases h with ⟨_, rfl⟩ | ⟨_, rfl⟩ | ⟨_, rfl⟩ <;> exact ⟨rfl, rfl⟩

end OperatorCall

open OperatorCall (warnings statusWrites)

namespace Status

/-- A status that says of a generation that it is in order, as of the given time. -/
structure GivesReady (s : Status) (generation : Int) (now : String) : Prop where
  phase : s.phase = "Ready"
  message : s.message = "Topic is in sync with Kafka"
  observedGeneration : s.observedGeneration = generation
  conditions : s.conditions =
    [⟨"Ready", "True", "Reconciled", "Topic is in sync with Kafka", now⟩]
  lastSyncTime : s.lastSyncTime = some now

/-- A status that says of a generation what has failed, as of the given time. -/
structure GivesFailure (s : Status) (e : Failure) (generation : Int) (now : String) : Prop where
  phase : s.phase = "NotReady"
  message : s.message = e.message
  observedGeneration : s.observedGeneration = generation
  conditions : s.conditions = [⟨"Ready", "False", e.reason, e.message, now⟩]
  lastSyncTime : s.lastSyncTime = some now

end Status

namespace Report

theorem status_ready (generation : Int) (now : String) :
    ((ready generation).status now).GivesReady generation now :=
  ⟨rfl, rfl, rfl, rfl, rfl⟩

theorem status_failed (generation : Int) (e : Failure) (now : String) :
    ((failed generation e).status now).GivesFailure e generation now :=
  ⟨rfl, rfl, rfl, rfl, rfl⟩

end Report

/-- The warning that an action consists of. -/
def Action.warning? (subject : Subject) : Action → Option Warning
  | warn reason message => some (Operator.warning subject reason message)
  | _ => none

/-- A plan warns only if the brokers' topic overwrites the resource, and then once. -/
theorem Plan.warnings_of_make {managed : Selector} {stored wanted kafka : Option Topic} {p : Plan}
    (h : make managed stored wanted kafka = .ok p) (subject : Subject) :
    (p.decision = .kafkaWins ∧ ∃ message, p.actions.filterMap (Action.warning? subject) =
        [Operator.warning subject "ResourceOverwritten" message]) ∨
      (p.decision ≠ .kafkaWins ∧ p.actions.filterMap (Action.warning? subject) = []) := by
  cases made_of_make h with
  | overwrites r k hd => exact .inl ⟨rfl, _, rfl⟩
  | merges s r k hc hd hp =>
    refine .inr ⟨nofun, List.filterMap_eq_nil_iff.2 fun a ha => ?_⟩
    rcases List.mem_append.1 ha with ha | ha
    · rcases mem_preparations ha with rfl | rfl | rfl | rfl <;> rfl
    · rw [List.mem_singleton.1 ha]
      rfl
  | _ => exact .inr ⟨nofun, rfl⟩

theorem Action.statusWrite?_of_calls {a : Action} {c : OperatorCall} (h : a.Calls c) :
    c.statusWrite? = none := by
  cases c with
  | resource rc =>
    rcases h.of_resource with ⟨_, _, rfl⟩ | ⟨_, _, rfl⟩ | ⟨_, _, rfl⟩ <;> rfl
  | _ => rfl

theorem Action.warning?_of_calls {a : Action} {c : OperatorCall} {subject : Subject}
    (ha : a.warning? subject = none) (h : a.Calls c) : c.warning? = none := by
  cases a with
  | createKafkaTopic t => rcases h with rfl | rfl | ⟨ms, rfl⟩ <;> rfl
  | warn reason message => cases ha
  | _ =>
    cases h
    rfl

theorem Failure.reason_ne (e : Failure) : e.reason ≠ "ResourceOverwritten" := by
  cases e with
  | broker b => cases b <;> simp [reason]
  | _ => simp [reason]

namespace Operator

variable {σ : Type} {answer : (c : OperatorCall) → σ → c.Answer × σ} {o : Operator}
  {topic : TopicName} {named : Option ResourceName} {s s' : σ} {subject : Subject} {p : Plan}
  {ms reads : List (OperatorCall × σ)}

section Actions

theorem warnings_execute (a : Action) (s : σ) :
    warnings (((o.execute subject a).moments answer s).map Prod.fst) =
      (a.warning? subject).toList := by
  cases ha : a.warning? subject with
  | none =>
    refine OperatorCall.warnings_eq_nil fun c hc => ?_
    obtain ⟨m, hm, rfl⟩ := List.mem_map.1 hc
    exact Action.warning?_of_calls ha ((o.calls_execute subject a).of_mem_moments hm)
  | some w =>
    cases a with
    | warn reason message =>
      cases ha
      rfl
    | _ => cases ha

/-- The warnings of the actions that are carried out come in turn, and all of them if nothing
fails. -/
theorem warnings_forAll (answer : (c : OperatorCall) → σ → c.Answer × σ) (o : Operator)
    (subject : Subject) (actions : List Action) (s : σ) :
    warnings (((Program.forAll (o.execute subject) actions).moments answer s).map Prod.fst) <+:
        actions.filterMap (Action.warning? subject) ∧
      (((Program.forAll (o.execute subject) actions).run answer s).1 = .ok () →
        warnings (((Program.forAll (o.execute subject) actions).moments answer s).map Prod.fst) =
          actions.filterMap (Action.warning? subject)) := by
  induction actions generalizing s with
  | nil => exact ⟨List.nil_prefix, fun _ => rfl⟩
  | cons a as ih =>
    have hcons : (a :: as).filterMap (Action.warning? subject) =
        (a.warning? subject).toList ++ as.filterMap (Action.warning? subject) := by
      rw [List.filterMap_cons]
      cases a.warning? subject <;> rfl
    rw [Program.run_forAll_cons, Program.moments_forAll_cons, List.map_append,
      OperatorCall.warnings_append, warnings_execute, hcons]
    cases ((o.execute subject a).run answer s).1 with
    | error e => exact ⟨by simp [warnings], nofun⟩
    | ok _ =>
      obtain ⟨hstart, hall⟩ := ih ((o.execute subject a).run answer s).2
      exact ⟨(List.prefix_append_right_inj _).2 hstart, fun h => congrArg _ (hall h)⟩

end Actions

section Attempt

variable {outcome : Subject × Except Failure (Option Decision)}

theorem Planned.readIn (h : Planned answer o topic named s subject p reads s') :
    ReadIn answer o reads subject := by
  cases h with
  | intro hstored hlive hmanaged _ _ _ =>
    refine (readIn_of_get (congrArg Prod.fst hlive) fun r => ?_).extend
      [(.store (.read topic), s)] [_] (by simp) (by simp)
    exact ⟨fun h => ⟨hmanaged r h, congrArg Except.ok h⟩, fun h => Except.ok.inj h.2⟩

theorem calls_forAll {actions : List Action} {c : OperatorCall}
    (hc : c ∈ ((Program.forAll (o.execute subject) actions).moments answer s).map Prod.fst) :
    ∃ a ∈ actions, a.Calls c := by
  have honly : (Program.forAll (o.execute subject) actions).Only
      fun c : OperatorCall => ∃ a ∈ actions, a.Calls c :=
    .forAll fun a ha => (o.calls_execute subject a).mono fun _ hc => ⟨a, ha, hc⟩
  obtain ⟨m, hm, rfl⟩ := List.mem_map.1 hc
  exact honly.of_mem_moments hm

theorem Course.readIn (h : Course answer o topic named s ms outcome) :
    ReadIn answer o ms outcome.1 := by
  cases h with
  | stopped _ hread => exact hread
  | planned hplanned =>
    refine hplanned.readIn.extend [] _ (by simp) fun m hm n hn => ?_
    obtain ⟨a, -, ha⟩ := calls_forAll (List.mem_map_of_mem hm)
    rw [hn] at ha
    rcases ha.of_resource with ⟨_, _, ⟨⟩⟩ | ⟨_, _, ⟨⟩⟩ | ⟨_, _, ⟨⟩⟩

/-- The statuses are all written after the attempt. -/
theorem Course.statusWrites_eq_nil (h : Course answer o topic named s ms outcome) :
    statusWrites (ms.map Prod.fst) = [] := by
  refine OperatorCall.statusWrites_eq_nil fun c hc => ?_
  cases h with
  | stopped hinquires =>
    obtain ⟨m, hm, rfl⟩ := List.mem_map.1 hc
    exact (hinquires m hm).silent.2
  | planned hplanned =>
    rw [List.map_append] at hc
    rcases List.mem_append.1 hc with hc | hc
    · obtain ⟨m, hm, rfl⟩ := List.mem_map.1 hc
      exact (hplanned.inquires m hm).silent.2
    · obtain ⟨a, -, ha⟩ := calls_forAll hc
      exact Action.statusWrite?_of_calls ha

/-- The warning about a resource that the brokers' topic has overwritten, and no other. -/
def TellsOverwriting (subject : Subject) (ws : List Warning) : Prop :=
  ∃ message, ws = [⟨subject.resource, subject.live, "ResourceOverwritten", message⟩]

theorem warnings_of_inquires (h : ∀ m ∈ ms, m.1.Inquires) : warnings (ms.map Prod.fst) = [] := by
  refine OperatorCall.warnings_eq_nil fun c hc => ?_
  obtain ⟨m, hm, rfl⟩ := List.mem_map.1 hc
  exact (h m hm).silent.1

theorem decided_of_map {r : Except Failure Unit} {d d' : Decision}
    (h : r.map (fun _ => some d') = .ok (some d)) : r = .ok () ∧ d = d' := by
  cases r with
  | error e => cases h
  | ok _ =>
    cases h
    exact ⟨rfl, rfl⟩

/-- What is told in the course of an attempt: nothing but that a resource was overwritten, and that
whenever the attempt ends with the decision to do so. -/
theorem Course.warnings_cases (h : Course answer o topic named s ms outcome) :
    (warnings (ms.map Prod.fst) = [] ∧ outcome.2 ≠ .ok (some .kafkaWins)) ∨
      (TellsOverwriting outcome.1 (warnings (ms.map Prod.fst)) ∧
        ∀ d, outcome.2 = .ok (some d) → d = .kafkaWins) := by
  cases h with
  | stopped hinquires _ hundecided =>
    exact .inl ⟨warnings_of_inquires hinquires, hundecided _⟩
  | @planned subject p reads s' hplanned =>
    rw [List.map_append, OperatorCall.warnings_append, warnings_of_inquires hplanned.inquires,
      List.nil_append]
    obtain ⟨hstart, hall⟩ := warnings_forAll answer o subject p.actions s'
    cases hplanned with
    | intro _ _ _ _ _ hplan =>
      rcases Plan.warnings_of_make hplan _ with ⟨hwins, message, hws⟩ | ⟨hne, hws⟩
      · rw [hws] at hstart hall
        rcases List.prefix_cons_iff.1 hstart with hnone | ⟨rest, hfull, hrest⟩
        · refine .inl ⟨hnone, fun hd => ?_⟩
          rw [hall (decided_of_map hd).1] at hnone
          cases hnone
        · rw [List.prefix_nil.1 hrest] at hfull
          exact .inr ⟨⟨message, hfull⟩, fun d hd => (decided_of_map hd).2.trans hwins⟩
      · rw [hws, List.prefix_nil] at hstart
        exact .inl ⟨hstart, fun hd => hne (decided_of_map hd).2.symm⟩

/-- An attempt without a decision has done no more than to inquire. -/
theorem Course.inquires_of_none (h : Course answer o topic named s ms outcome)
    (hnone : outcome.2 = .ok none) : ∀ m ∈ ms, m.1.Inquires := by
  cases h with
  | stopped hinquires => exact hinquires
  | @planned subject p reads s' hplanned =>
    cases hrun : ((Program.forAll (o.execute subject) p.actions).run answer s').1 <;>
      simp [hrun, Except.map] at hnone

end Attempt

section Conclusion

/-- The status of the resource says already that its generation is in order. -/
def SaysReady (r : Resource) : Prop :=
  ∃ status, r.status = some status ∧ status.phase = "Ready" ∧
    status.observedGeneration = r.metadata.generation.getD 0

theorem saysReady_iff {r : Resource} :
    SaysReady r ↔ r.status.any (·.isReadyFor r.generation) = true := by
  have hgeneration : r.metadata.generation.getD 0 = r.generation := rfl
  cases hs : r.status <;> simp [SaysReady, hs, hgeneration, Status.isReadyFor]

/-- The statuses that a success calls for: one that says, as of the time of writing, that the
generation is in order, unless that is said already, or nothing has been read, or the resource has
been deleted. -/
inductive StatusesDue (subject : Subject) (d : Decision) : List (ResourceName × Report) → Prop where
  | unread (h : subject.live = none) : StatusesDue subject d []
  | deleted (h : d = .deleteResource) : StatusesDue subject d []
  | said (r : Resource) (h : subject.live = some r) (hr : SaysReady r) : StatusesDue subject d []
  | due (r : Resource) (h : subject.live = some r) (hd : d ≠ .deleteResource)
      (hr : ¬ SaysReady r)
      (hs : ∀ now, ((Report.ready r.generation).status now).GivesReady
        (r.metadata.generation.getD 0) now) :
      StatusesDue subject d [(subject.resource, .ready r.generation)]

/-- How an attempt is reported that ends with a result, told from its subject and its calls. A
warning names the resource, with its object if that has been read. -/
def Reported (subject : Subject) (cs : List OperatorCall) :
    Except Failure (Option Decision) → Prop
  | .error e => ∃ before,
      cs = before ++ .warn ⟨subject.resource, subject.live, e.reason, e.message⟩ ::
        (subject.live.map fun r =>
          .resource (.updateStatus subject.resource (.failed r.generation e))).toList ∧
      (∀ r, subject.live = some r → ∀ now,
        ((Report.failed r.generation e).status now).GivesFailure e
          (r.metadata.generation.getD 0) now) ∧
      statusWrites before = [] ∧
      (warnings before = [] ∨ TellsOverwriting subject (warnings before)) ∧
      ∀ w ∈ warnings before, w.reason ≠ e.reason
  | .ok (some d) =>
      (d = .kafkaWins ∧ TellsOverwriting subject (warnings cs) ∨
        d ≠ .kafkaWins ∧ warnings cs = []) ∧
      StatusesDue subject d (statusWrites cs)
  | .ok none => ∀ c ∈ cs, c.Inquires ∨ ∃ m, c = .count m

/-- The calls of a report on a failure are the same whatever they are answered. -/
theorem calls_of_failure (subject : Subject) (e : Failure) (s : σ) :
    ((conclusion (subject, .error e)).moments answer s).map Prod.fst =
      [.count .duration, .count .error, .count .warningEvent] ++
        .warn ⟨subject.resource, subject.live, e.reason, e.message⟩ ::
          (subject.live.map fun r =>
            .resource (.updateStatus subject.resource (.failed r.generation e))).toList := by
  obtain ⟨resource, live⟩ := subject
  cases live <;> rfl

theorem calls_of_decision (answer : (c : OperatorCall) → σ → c.Answer × σ) (subject : Subject)
    (d : Decision) (s : σ) :
    ∃ cs, ((conclusion (subject, .ok (some d))).moments answer s).map Prod.fst =
        .count .duration :: cs ∧ warnings cs = [] ∧ StatusesDue subject d (statusWrites cs) := by
  obtain ⟨resource, live⟩ := subject
  cases live with
  | none => exact ⟨[], rfl, rfl, .unread rfl⟩
  | some r =>
    by_cases hsilent : d = .deleteResource ∨ r.status.any (·.isReadyFor r.generation) = true
    · refine ⟨[], by simp [conclusion, reportReady, hsilent, Task.count, Program.bind], rfl, ?_⟩
      rcases hsilent with hd | hr
      · exact .deleted hd
      · exact .said r rfl (saysReady_iff.2 hr)
    · refine ⟨[.resource (.updateStatus resource (.ready r.generation))], ?_, rfl, ?_⟩
      · simp [conclusion, reportReady, hsilent, report, Task.count, Task.resource, Program.bind]
      · rw [not_or, ← saysReady_iff] at hsilent
        exact .due r rfl hsilent.1 hsilent.2 (Report.status_ready r.generation)

variable {e : Failure} {d : Decision}

/-- All calls of an attempt with its reports, where those of its course are given. -/
def callsAround (outcome : Subject × Except Failure (Option Decision))
    (answer : (c : OperatorCall) → σ → c.Answer × σ) (ms : List (OperatorCall × σ)) (s' : σ) :
    List OperatorCall :=
  .count .reconciliation ::
    (ms.map Prod.fst ++ ((conclusion outcome).moments answer s').map Prod.fst)

theorem Course.reported_of_error
    (h : Course answer o topic named s ms (subject, .error e)) (s' : σ) :
    Reported subject (callsAround (subject, .error e) answer ms s') (.error e) := by
  refine ⟨.count .reconciliation :: (ms.map Prod.fst ++
    [.count .duration, .count .error, .count .warningEvent]), ?_, ?_, ?_, ?_⟩
  · rw [callsAround, calls_of_failure]
    simp
  · exact fun r _ => Report.status_failed r.generation e
  · simp [h.statusWrites_eq_nil]
  · simp only [OperatorCall.warnings_count, OperatorCall.warnings_append,
      OperatorCall.warnings_nil, List.append_nil]
    rcases h.warnings_cases with ⟨hnone, -⟩ | ⟨⟨message, hws⟩, -⟩
    · exact ⟨.inl hnone, by simp [hnone]⟩
    · refine ⟨.inr ⟨message, hws⟩, fun w hw => ?_⟩
      rw [hws, List.mem_singleton] at hw
      rw [hw]
      exact e.reason_ne.symm

theorem Course.reported_of_none (h : Course answer o topic named s ms (subject, .ok none))
    (s' : σ) : Reported subject (callsAround (subject, .ok none) answer ms s') (.ok none) := by
  intro c hc
  rcases List.mem_cons.1 hc with rfl | hc
  · exact .inr ⟨_, rfl⟩
  rcases List.mem_append.1 hc with hc | hc
  · obtain ⟨m, hm, rfl⟩ := List.mem_map.1 hc
    exact .inl (h.inquires_of_none rfl m hm)
  · exact .inr ⟨.duration, List.mem_singleton.1 hc⟩

theorem Course.reported_of_decision
    (h : Course answer o topic named s ms (subject, .ok (some d))) (s' : σ) :
    Reported subject (callsAround (subject, .ok (some d)) answer ms s') (.ok (some d)) := by
  obtain ⟨cs, hcs, hquiet, hdue⟩ := calls_of_decision answer subject d s'
  rw [callsAround, hcs]
  constructor
  · simp only [OperatorCall.warnings_count, OperatorCall.warnings_append, hquiet, List.append_nil]
    rcases h.warnings_cases with ⟨hnone, hd⟩ | ⟨htells, hd⟩
    · exact .inr ⟨fun hwins => hd (by rw [hwins]), hnone⟩
    · exact .inl ⟨hd d rfl, htells⟩
  · simpa [h.statusWrites_eq_nil] using hdue

theorem reported_reconcile (answer : (c : OperatorCall) → σ → c.Answer × σ) (o : Operator)
    (topic : TopicName) (named : Option ResourceName) (s : σ) :
    ∃ subject, ReadIn answer o ((o.reconcile topic named).moments answer s) subject ∧
      Reported subject (((o.reconcile topic named).moments answer s).map Prod.fst)
        ((o.reconcile topic named).run answer s).1 := by
  obtain ⟨ms, ⟨subject, result⟩, tail, hmoments, hresult, hcourse, hconclusion⟩ :=
    course_reconcile answer o topic named s
  have hreports := reports_of_conclusion hconclusion
  obtain ⟨s', rfl⟩ := hconclusion
  rw [hmoments, hresult]
  refine ⟨subject, hcourse.readIn.extend [_] _ (by simp) ?_, ?_⟩
  · intro m hm n hn
    rcases hreports m hm with ⟨_, hc⟩ | ⟨_, hc⟩ | ⟨_, _, hc⟩ <;> rw [hc] at hn <;> cases hn
  rw [List.map_cons, List.map_append]
  match result with
  | .error e => exact hcourse.reported_of_error s'
  | .ok none => exact hcourse.reported_of_none s'
  | .ok (some d) => exact hcourse.reported_of_decision s'

end Conclusion

/-- Attempts are reported truthfully, in every world and whatever fails. An attempt that fails ends
with one warning that gives the failure and, if the managed resource had been read, with a status
for the generation that was read which is not ready and gives it too, in its message and in its
condition; one that comes to a decision warns of nothing but an overwritten resource, and writes
just the status that is due, which is ready; one at a resource that is not managed inquires and is
silent. And in a world that makes something else of the reports it has the same result and leaves
the same content. -/
theorem truthfully_reported (answer : (c : OperatorCall) → σ → c.Answer × σ) (o : Operator)
    (topic : TopicName) (named : Option ResourceName) (s : σ) :
    (∃ subject, ReadIn answer o ((o.reconcile topic named).moments answer s) subject ∧
      Reported subject (((o.reconcile topic named).moments answer s).map Prod.fst)
        ((o.reconcile topic named).run answer s).1) ∧
    ∀ (κ : Type) (answer' : (c : OperatorCall) → σ → c.Answer × σ) (content : σ → κ),
      DifferInReports answer answer' content →
        ((o.reconcile topic named).run answer s).1 = ((o.reconcile topic named).run answer' s).1 ∧
          content ((o.reconcile topic named).run answer s).2 =
            content ((o.reconcile topic named).run answer' s).2 := by
  refine ⟨reported_reconcile answer o topic named s, ?_⟩
  intro κ answer' content hdiffer
  exact alike_reconcile hdiffer o topic named s

end Operator

namespace Memory.World

open Operator (ReadIn Reported)

/-- Brokers and a resource that differ, without a record, while the store is down for writing. -/
def unrecorded : World :=
  { storeDown with
    brokers := Brokers.empty.put Plan.ordersKafka
    resources := Resources.empty.create Plan.ordersResource 1 }

/-- The resource has been overwritten by the time that the attempt fails, so that there are two
warnings. Its status is about the generation that was read, which is the one before. -/
theorem truthfully_reported_unrecorded :
    (∃ subject, ReadIn answer ordersOperator
        ((ordersOperator.reconcile Plan.ordersStored.name none).moments answer unrecorded) subject ∧
      Reported subject (((ordersOperator.reconcile Plan.ordersStored.name none).moments answer
        unrecorded).map Prod.fst) (.error (.store (.backend "down")))) ∧
    (OperatorCall.warnings (((ordersOperator.reconcile Plan.ordersStored.name none).moments answer
      unrecorded).map Prod.fst)).map Warning.reason = ["ResourceOverwritten", "StoreError"] ∧
    (((ordersOperator.reconcile Plan.ordersStored.name none).run answer
      unrecorded).2.resources.byName.get? "orders").map
        (fun r => (r.metadata.generation, r.status)) = some (some 2, some
          { phase := "NotReady"
            message := "store backend error: down"
            observedGeneration := 1
            conditions := [⟨"Ready", "False", "StoreError", "store backend error: down",
              Resources.epoch⟩]
            lastSyncTime := some Resources.epoch }) ∧
    ((ordersOperator.reconcile Plan.ordersStored.name none).run deaf unrecorded).1 =
      .error (.store (.backend "down")) ∧
    ((ordersOperator.reconcile Plan.ordersStored.name none).run answer unrecorded).2.content =
      ((ordersOperator.reconcile Plan.ordersStored.name none).run deaf unrecorded).2.content := by
  obtain ⟨hreported, halike⟩ :=
    Operator.truthfully_reported answer ordersOperator Plan.ordersStored.name none unrecorded
  have hfails : ((ordersOperator.reconcile Plan.ordersStored.name none).run answer unrecorded).1 =
      .error (.store (.backend "down")) := by
    decide +kernel
  obtain ⟨hresult, hcontent⟩ := halike World deaf content differInReports
  rw [hfails] at hreported hresult
  exact ⟨hreported, by decide +kernel, by decide +kernel, hresult.symm, hcontent⟩

end Memory.World

end TopicSync
