import TopicSync.Operator.Loop
import TopicSync.Proofs.Plan.Cases
import TopicSync.Proofs.Program

/-!
Which calls the parts of an attempt make, whatever is answered: those of the actions that its plan
consists of, and reports at the end. A plan writes the specification of one resource at most.
-/
namespace TopicSync

/-- The action is about the resource. -/
def Action.isOnResource : Action → Bool
  | createResource _ | updateResource _ | deleteResource _ => true
  | _ => false

/-- How a plan writes the specification of a resource: it creates the resource of a topic that is
known to the brokers alone, or updates one that was read, or writes none. -/
inductive Plan.Writes (stored wanted kafka : Option Topic) (actions : List Action) : Prop where
  | creates (k t : Topic) (hs : stored = none) (hw : wanted = none) (hk : kafka = some k)
      (ht : t.name = k.name) (ha : actions = [.createResource t, .createStored t])
  | updates (w u t : Topic) (early late : List Action) (hw : wanted = some w)
      (hu : stored = some u ∨ kafka = some u) (hn : t.name = u.name)
      (ht : t.resourceName = w.resourceName) (ha : actions = early ++ .updateResource t :: late)
      (he : ∀ a ∈ early, a = .changeReplicationFactor t)
      (hl : ∀ a ∈ late, a.isOnResource = false)
  | spares (h : ∀ a ∈ actions, ∀ t, a ≠ .createResource t ∧ a ≠ .updateResource t)

theorem Plan.writes_steps (stored resource kafka : Topic) :
    Writes (some stored) (some resource) (some kafka)
      (steps kafka (merged stored resource kafka)) := by
  have hsteps : ∀ result : Topic, steps kafka result =
      (if kafka.replicationFactor ≠ result.replicationFactor
        then [.changeReplicationFactor result] else []) ++
      .updateResource result ::
        ((if kafka.config ≠ result.config then [.updateKafkaConfig result] else []) ++
        (if kafka.partitions ≠ result.partitions
          then [.increaseKafkaPartitions result] else []) ++
        [.updateStored result]) := by
    intro result
    simp [steps, preparations]
  refine .updates resource stored (merged stored resource kafka) _ _ rfl (.inl rfl) rfl rfl
    (hsteps _) ?_ ?_
  · intro a ha
    exact (List.mem_ite_nil_right.1 ha).2 |> List.mem_singleton.1
  · intro a ha
    simp only [List.mem_append, List.mem_ite_nil_right, List.mem_singleton] at ha
    rcases ha with (⟨-, rfl⟩ | ⟨-, rfl⟩) | rfl <;> rfl

theorem Plan.writes_of_make {managed : Selector} {stored wanted kafka : Option Topic} {p : Plan}
    (h : make managed stored wanted kafka = .ok p) : Writes stored wanted kafka p.actions := by
  cases made_of_make h with
  | createsResource k t ht =>
    exact .creates k t rfl rfl rfl (by rw [ht]) rfl
  | overwrites r k =>
    refine .updates r k (overwritten r k) [] _ rfl (.inr rfl) rfl rfl rfl (by simp) fun a ha => ?_
    simp only [List.mem_cons, List.not_mem_nil, or_false] at ha
    rcases ha with rfl | rfl <;> rfl
  | merges s r k => exact writes_steps s r k
  | _ => exact .spares (by simp)

/-- The calls of an action. -/
def Action.Calls : Action → OperatorCall → Prop
  | .createKafkaTopic t, c =>
    c = .broker (.create t) ∨ c = .broker (.read t.name) ∨ ∃ ms, c = .wait ms
  | .deleteKafkaTopic name, c => c = .broker (.delete name)
  | .changeReplicationFactor t, c => c = .broker (.changeReplicationFactor t)
  | .updateKafkaConfig t, c => c = .broker (.updateConfig t)
  | .increaseKafkaPartitions t, c => c = .broker (.increasePartitions t)
  | .createResource t, c => c = .resource (.create t)
  | .updateResource t, c => c = .resource (.update t)
  | .deleteResource name, c => c = .resource (.delete name)
  | .createStored t, c => c = .store (.create t)
  | .updateStored t, c => c = .store (.update t)
  | .deleteStored name, c => c = .store (.delete name)
  | .warn .., c => c = .count .warningEvent ∨ ∃ w, c = .warn w

/-- The calls on resources are those of the actions on them. -/
theorem Action.Calls.of_resource {a : Action} {rc : ResourceCall} (h : a.Calls (.resource rc)) :
    (∃ t, a = .createResource t ∧ rc = .create t) ∨
      (∃ t, a = .updateResource t ∧ rc = .update t) ∨
      ∃ name, a = .deleteResource name ∧ rc = .delete name := by
  cases a with
  | createKafkaTopic t => simp [Calls] at h
  | createResource t =>
    cases h
    exact .inl ⟨t, rfl, rfl⟩
  | updateResource t =>
    cases h
    exact .inr (.inl ⟨t, rfl, rfl⟩)
  | deleteResource name =>
    cases h
    exact .inr (.inr ⟨name, rfl, rfl⟩)
  | warn reason message => simp [Calls] at h
  | _ => cases h

theorem Action.ne_update_of_calls {a : Action} {c : OperatorCall}
    (ha : ∀ t, a ≠ .updateResource t) (h : a.Calls c) : ∀ t, c ≠ .resource (.update t) := by
  rintro t rfl
  rcases h.of_resource with ⟨_, _, ⟨⟩⟩ | ⟨u, hu, _⟩ | ⟨_, _, ⟨⟩⟩
  exact ha u hu

theorem Action.ne_resource_of_calls {a : Action} {c : OperatorCall}
    (ha : a.isOnResource = false) (h : a.Calls c) : ∀ rc, c ≠ .resource rc := by
  rintro rc rfl
  rcases h.of_resource with ⟨_, rfl, _⟩ | ⟨_, rfl, _⟩ | ⟨_, rfl, _⟩ <;> cases ha

/-- The call counts, warns or writes a status. -/
def OperatorCall.Reports (c : OperatorCall) : Prop :=
  (∃ m, c = .count m) ∨ (∃ w, c = .warn w) ∨ ∃ name r, c = .resource (.updateStatus name r)

/-- The call reports on a subject: it counts, warns, or writes the status of the resource, the
object of which has been read. -/
def OperatorCall.ReportsOn (s : Subject) (c : OperatorCall) : Prop :=
  (∃ m, c = .count m) ∨ (∃ w, c = .warn w) ∨
    ∃ live r, s.live = some live ∧ c = .resource (.updateStatus s.resource r)

theorem OperatorCall.ReportsOn.reports {s : Subject} {c : OperatorCall} (h : c.ReportsOn s) :
    c.Reports :=
  h.imp_right fun h => h.imp_right fun ⟨_, r, _, hc⟩ => ⟨s.resource, r, hc⟩

namespace Operator

open OperatorCall (Reports ReportsOn)

theorem calls_execute (o : Operator) (s : Subject) (a : Action) : (o.execute s a).Only a.Calls := by
  cases a with
  | createKafkaTopic t =>
    refine .ask (.inl rfl) fun created => ?_
    cases created with
    | error e => exact .done _
    | ok _ =>
      have hread : (Task.broker (.read t.name)).Only (Action.createKafkaTopic t).Calls :=
        .ask (.inr (.inl rfl)) fun _ => .done _
      have hwait : ∀ ms, (Task.wait ms).Only (Action.createKafkaTopic t).Calls :=
        fun ms => .ask (.inr (.inr ⟨ms, rfl⟩)) fun _ => .done _
      refine (Program.Only.await hread hwait _ _).bind fun seen => ?_
      cases seen <;> exact .done _
  | warn reason message => exact .ask (.inl rfl) fun _ => .ask (.inr ⟨_, rfl⟩) fun _ => .done _
  | _ => exact .ask rfl fun _ => .done _

/-- What follows an attempt: counts, and reports about its result. -/
def conclusion (outcome : Subject × Except Failure (Option Decision)) :
    Task (Except Failure (Option Decision)) :=
  (Task.count .duration).bind fun _ =>
    match outcome.2 with
    | .ok none => .done outcome.2
    | .ok (some d) => (reportReady outcome.1 d).bind fun _ => .done outcome.2
    | .error e =>
      (Task.count .error).bind fun _ =>
      (Task.warn (warning outcome.1 e.reason e.message)).bind fun _ =>
      (reportFailure outcome.1 e).bind fun _ => .done outcome.2

theorem reconcile_eq (o : Operator) (topic : TopicName) (named : Option ResourceName) :
    o.reconcile topic named =
      .ask (OperatorCall.count .reconciliation) fun _ => (o.attempt topic named).bind conclusion :=
  rfl

theorem reportsOn_report {s : Subject} {live : Resource} (h : s.live = some live) (r : Report) :
    (report s.resource r).Only (ReportsOn s) :=
  .ask (.inr (.inr ⟨live, r, h, rfl⟩)) fun _ => .done _

theorem reportsOn_reportFailure (s : Subject) (e : Failure) :
    (reportFailure s e).Only (ReportsOn s) := by
  rw [reportFailure]
  split
  · exact .done _
  next r hlive => exact reportsOn_report hlive _

theorem reportsOn_reportReady (s : Subject) (d : Decision) :
    (reportReady s d).Only (ReportsOn s) := by
  rw [reportReady]
  split
  · exact .done _
  next r hlive =>
    split
    · exact .done _
    · exact reportsOn_report hlive _

theorem reportsOn_count (s : Subject) (m : Metric) : (Task.count m).Only (ReportsOn s) :=
  .ask (.inl ⟨m, rfl⟩) fun _ => .done _

theorem reportsOn_warn (s : Subject) (w : Warning) : (Task.warn w).Only (ReportsOn s) :=
  .ask (.inl ⟨_, rfl⟩) fun _ => .ask (.inr (.inl ⟨w, rfl⟩)) fun _ => .done _

theorem reportsOn_conclusion (outcome : Subject × Except Failure (Option Decision)) :
    (conclusion outcome).Only (ReportsOn outcome.1) := by
  obtain ⟨s, result⟩ := outcome
  refine (reportsOn_count s _).bind fun _ => ?_
  match result with
  | .ok none => exact .done _
  | .ok (some d) => exact (reportsOn_reportReady s d).bind fun _ => .done _
  | .error e =>
    exact (reportsOn_count s _).bind fun _ => (reportsOn_warn s _).bind fun _ =>
      (reportsOn_reportFailure s e).bind fun _ => .done _

/-- The subject of a rejection, whose object is not known if it could not be read. -/
def rejected (resource : ResourceName) : Except Failure (Option Resource) → Subject
  | .ok live => ⟨resource, live⟩
  | .error _ => ⟨resource, none⟩

/-- The reports about a resource that is rejected. -/
def rejection (s : Subject) (reason : String) : Task Unit :=
  (Task.warn (warning s "InvalidTopicName" reason)).bind fun _ =>
    reportFailure s (.invalidResource s.resource.text reason)

theorem reject_eq (resource : ResourceName) (reason : String) :
    reject resource reason = .ask (OperatorCall.resource (.get resource)) fun found =>
      rejection (rejected resource found) reason := by
  refine congrArg (Program.ask _) (funext fun found => ?_)
  cases found <;> rfl

theorem reportsOn_rejection (s : Subject) (reason : String) :
    (rejection s reason).Only (ReportsOn s) :=
  (reportsOn_warn s _).bind fun _ => reportsOn_reportFailure s _

theorem reports_count (m : Metric) : (Task.count m).Only Reports :=
  .ask (.inl ⟨m, rfl⟩) fun _ => .done _

theorem reports_conclusion (outcome : Subject × Except Failure (Option Decision)) :
    (conclusion outcome).Only Reports :=
  (reportsOn_conclusion outcome).mono fun _ hc => hc.reports

/-- The reports at the end leave the result as it is. -/
theorem result_of_conclusion {outcome : Subject × Except Failure (Option Decision)}
    {r : Except Failure (Option Decision)} (h : (conclusion outcome).Yields r) : r = outcome.2 := by
  obtain ⟨subject, result⟩ := outcome
  obtain ⟨-, -, h⟩ := h.of_bind
  match result with
  | .ok none =>
    cases h
    rfl
  | .ok (some d) =>
    obtain ⟨-, -, h⟩ := h.of_bind
    cases h
    rfl
  | .error e =>
    obtain ⟨-, -, h⟩ := h.of_bind
    obtain ⟨-, -, h⟩ := h.of_bind
    obtain ⟨-, -, h⟩ := h.of_bind
    cases h
    rfl

end Operator

end TopicSync
