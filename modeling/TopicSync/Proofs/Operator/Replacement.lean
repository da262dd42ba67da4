import TopicSync.Proofs.Api.Server
import TopicSync.Proofs.Operator.Calls

/-!
What becomes of edits that others make to a resource while an attempt is under way. The attempt
replaces one object at most, which it reads just before. If the object has changed since that read,
the server refuses the replacement, the attempt fails, and the record stays as it is; and once the
object has been replaced, the attempt changes no specification or label any more. An edit made
before that read is not noticed, though, even if the attempt had read the object earlier.
-/
namespace TopicSync

section Runs

variable {α : Type} {σ : Type} {answer : (c : WiredCall) → σ → wiredInterface.Answer c × σ}
  {meanwhile : σ → σ → Prop} {g : Gateway} {o : Operator} {s s' : σ} {ms : List (WiredCall × σ)}
  {a : α} {failed failed' : Prop} {topic : TopicName}

/-- The call neither updates a resource nor writes the store. -/
structure OperatorCall.Prepares (c : OperatorCall) : Prop where
  noUpdate : c.isUpdate = false
  spares : c.writesStore = false

/-- The call changes nothing that matters after an update: no specification, and not the store. -/
structure WiredCall.Concludes (c : WiredCall) : Prop where
  prepares : c.origin.Prepares
  keepsSpec : KeepsSpec c

/-- What a run updates: nothing, or one resource. If the update does not get as far as a
replacement, or if that is not confirmed, the run fails, without anything written to the store.
Otherwise the update replaces what it has read just before. -/
inductive Updates (answer : (c : WiredCall) → σ → wiredInterface.Answer c × σ)
    (ms : List (WiredCall × σ)) (failed : Prop) : Prop where
  | never (h : ∀ m ∈ ms, m.1.origin.isUpdate = false)
  | unread (before after : List (WiredCall × σ)) {get : Request} {w : σ} {t : Topic}
      (hms : ms = before ++ (.inr (.update t, get), w) :: after) (hget : get.method = .get)
      (hbefore : ∀ m ∈ before, m.1.origin.Prepares) (hafter : ∀ m ∈ after, m.1.Concludes)
      (hfailed : failed)
  | once (before after : List (WiredCall × σ)) {get put : Request} {w₁ w₂ : σ} {current : Resource}
      {t : Topic}
      (hms : ms = before ++ (.inr (.update t, get), w₁) :: (.inr (.update t, put), w₂) :: after)
      (hreplace : ReadAndReplace answer get put w₁ current t)
      (hbefore : ∀ m ∈ before, m.1.origin.Prepares) (hafter : ∀ m ∈ after, KeepsSpec m.1)
      (hrefused : ∀ e,
        Reply.value Resource.ofJson? (answer (.inr (.update t, put)) w₂).1 = .error e →
        failed ∧ ∀ m ∈ after, m.1.origin.writesStore = false)

namespace Updates

variable {others : List (WiredCall × σ)}

theorem prepend (hp : ∀ m ∈ others, m.1.origin.Prepares) (h : Updates answer ms failed) :
    Updates answer (others ++ ms) failed := by
  cases h with
  | never h =>
    exact .never (List.forall_mem_append.2 ⟨fun m hm => (hp m hm).noUpdate, h⟩)
  | unread before after hms hget hbefore hafter hfailed =>
    exact .unread (others ++ before) after (by rw [hms, List.append_assoc]) hget
      (List.forall_mem_append.2 ⟨hp, hbefore⟩) hafter hfailed
  | once before after hms hreplace hbefore hafter hrefused =>
    exact .once (others ++ before) after (by rw [hms, List.append_assoc]) hreplace
      (List.forall_mem_append.2 ⟨hp, hbefore⟩) hafter hrefused

theorem append (h : Updates answer ms failed) (hp : ∀ m ∈ others, m.1.Concludes)
    (hf : failed → failed') : Updates answer (ms ++ others) failed' := by
  cases h with
  | never h =>
    exact .never (List.forall_mem_append.2 ⟨h, fun m hm => (hp m hm).prepares.noUpdate⟩)
  | unread before after hms hget hbefore hafter hfailed =>
    exact .unread before (after ++ others) (by rw [hms, List.append_assoc]; rfl) hget hbefore
      (List.forall_mem_append.2 ⟨hafter, hp⟩) (hf hfailed)
  | once before after hms hreplace hbefore hafter hrefused =>
    refine .once before (after ++ others) (by rw [hms, List.append_assoc]; rfl) hreplace hbefore
      (List.forall_mem_append.2 ⟨hafter, fun m hm => (hp m hm).keepsSpec⟩) fun e he => ?_
    obtain ⟨hfailed, hspares⟩ := hrefused e he
    exact ⟨hf hfailed, List.forall_mem_append.2 ⟨hspares, fun m hm => (hp m hm).prepares.spares⟩⟩

end Updates

/-- The calls of a wired task are parts of those of the task. -/
theorem origin_of_only {P : OperatorCall → Prop} {p : Task α} (hp : p.Only P)
    (h : Program.Amid answer meanwhile (g.wired p) s ms a s') : ∀ m ∈ ms, P m.1.origin := by
  refine h.calls (P := fun d : WiredCall => P d.origin) (hp.translate fun c hc => ?_)
  refine (g.only_carryOut c).mono fun d hd => ?_
  rw [hd]
  exact hc

theorem keepsSpec_of_only {p : Task α}
    (hp : p.Only fun c : OperatorCall => ∀ rc, c ≠ .resource rc)
    (h : Program.Amid answer meanwhile (g.wired p) s ms a s') : ∀ m ∈ ms, KeepsSpec m.1 :=
  h.calls (hp.translate fun _ hc => g.keepsSpec_carryOut (.inl hc))

theorem concludes_of_reports {p : Task α} (hp : p.Only OperatorCall.Reports)
    (h : Program.Amid answer meanwhile (g.wired p) s ms a s') : ∀ m ∈ ms, m.1.Concludes := by
  have hprepares : p.Only OperatorCall.Prepares := by
    refine hp.mono fun c hc => ?_
    rcases hc with ⟨m, rfl⟩ | ⟨w, rfl⟩ | ⟨name, r, rfl⟩ <;> exact ⟨rfl, rfl⟩
  have hkeeps : (g.wired p).Only KeepsSpec := by
    refine hp.translate fun c hc => g.keepsSpec_carryOut ?_
    rcases hc with ⟨m, rfl⟩ | ⟨w, rfl⟩ | ⟨name, r, rfl⟩
    · exact .inl (by simp)
    · exact .inl (by simp)
    · exact .inr ⟨name, r, rfl⟩
  exact fun m hm => ⟨origin_of_only hprepares h m hm, h.calls hkeeps m hm⟩

namespace Operator

/-- The steps of a plan that updates a resource. -/
theorem updates_steps {subject : Subject} {t : Topic} {early late : List Action}
    {r : Except Failure Unit} (he : ∀ a ∈ early, a = .changeReplicationFactor t)
    (hl : ∀ a ∈ late, a.isOnResource = false)
    (h : Program.Amid answer meanwhile
      (g.wired (Program.forAll (o.execute subject) (early ++ .updateResource t :: late))) s ms r
      s') :
    Updates answer ms (∃ e, r = .error e) := by
  have hearly : (Program.forAll (o.execute subject) early).Only OperatorCall.Prepares := by
    refine .forAll fun a ha => (o.calls_execute subject a).mono fun c hc => ?_
    obtain rfl := he a ha
    cases hc
    exact ⟨rfl, rfl⟩
  have hlate : (Program.forAll (o.execute subject) late).Only
      fun c : OperatorCall => ∀ rc, c ≠ .resource rc :=
    .forAll fun a ha => (o.calls_execute subject a).mono fun c hc =>
      Action.ne_resource_of_calls (hl a ha) hc
  rw [Program.forAll_append, Gateway.wired_bind] at h
  obtain ⟨ms₁, r₁, s₁, rest, h₁, hrest, rfl⟩ := h.of_bind
  refine .prepend (origin_of_only hearly h₁) ?_
  cases r₁ with
  | error e =>
    cases hrest
    exact .never (by simp)
  | ok _ =>
    change Program.Amid answer meanwhile (g.wired ((o.execute subject (.updateResource t)).bind _))
      s₁ rest r s' at hrest
    rw [Gateway.wired_bind] at hrest
    obtain ⟨ms₂, r₂, s₂, ms₃, h₂, h₃, rfl⟩ := hrest.of_bind
    cases Gateway.run_update h₂ with
    | silent e =>
      cases h₃
      exact .never (by simp)
    | unread e hget =>
      cases h₃
      exact .unread [] [] rfl hget (by simp) (by simp) ⟨e, rfl⟩
    | replaced hreplace hfail =>
      cases r₂ with
      | error e =>
        cases h₃
        exact .once [] [] rfl hreplace (by simp) (by simp) fun _ _ => ⟨⟨e, rfl⟩, by simp⟩
      | ok _ =>
        refine .once [] ms₃ rfl hreplace (by simp) (keepsSpec_of_only hlate h₃) ?_
        intro e he
        obtain ⟨e', ⟨⟩⟩ := hfail e he

theorem updates_actions {stored wanted kafka : Option Topic} {actions : List Action}
    {subject : Subject} {r : Except Failure Unit} (hw : Plan.Writes stored wanted kafka actions)
    (h : Program.Amid answer meanwhile (g.wired (Program.forAll (o.execute subject) actions)) s ms
      r s') :
    Updates answer ms (∃ e, r = .error e) := by
  have hnever : (∀ a ∈ actions, ∀ t, a ≠ .updateResource t) →
      Updates answer ms (∃ e, r = .error e) := by
    intro hno
    have honly : (Program.forAll (o.execute subject) actions).Only
        fun c : OperatorCall => c.isUpdate = false :=
      .forAll fun a ha => (o.calls_execute subject a).mono fun c hc =>
        OperatorCall.isUpdate_eq_false (Action.ne_update_of_calls (hno a ha) hc)
    exact .never (origin_of_only honly h)
  cases hw with
  | creates k t _ _ _ _ ha =>
    refine hnever fun a hmem t' => ?_
    rw [ha] at hmem
    simp only [List.mem_cons, List.not_mem_nil, or_false] at hmem
    rcases hmem with rfl | rfl <;> simp
  | updates w u t early late _ _ _ _ ha he hl =>
    rw [ha] at h
    exact updates_steps he hl h
  | spares hno => exact hnever fun a ha t => (hno a ha t).2

theorem updates_settle {stored : Option Topic} {subject : Subject}
    {r : Except Failure (Option Decision)}
    (h : Program.Amid answer meanwhile (g.wired (o.settle topic stored subject)) s ms r s') :
    Updates answer ms (∃ e, r = .error e) := by
  rw [settle] at h
  cases hd : described topic subject with
  | error e =>
    rw [hd] at h
    cases h
    exact .never (by simp)
  | ok wanted =>
    simp only [hd, Gateway.wired_bind] at h
    obtain ⟨ms₁, found, s₁, rest, h₁, hrest, rfl⟩ := h.of_bind
    have hread : (Task.broker (.read topic)).Only OperatorCall.Prepares :=
      .ask ⟨rfl, rfl⟩ fun _ => .done _
    refine .prepend (origin_of_only hread h₁) ?_
    cases found with
    | error e =>
      cases hrest
      exact .never (by simp)
    | ok kafka =>
      cases hp : Plan.make o.managed stored wanted kafka with
      | error e =>
        simp only [hp] at hrest
        cases hrest
        exact .never (by simp)
      | ok p =>
        simp only [hp, Gateway.wired_bind] at hrest
        obtain ⟨ms₂, r₂, s₂, last, h₂, hlast, rfl⟩ := hrest.of_bind
        have hactions := updates_actions (Plan.writes_of_make hp) h₂
        cases r₂ with
        | error e =>
          cases hlast
          exact hactions.append (by simp) fun _ => ⟨e, rfl⟩
        | ok _ =>
          cases hlast
          exact hactions.append (by simp) fun hfailed => by simp at hfailed

theorem updates_attempt {named : Option ResourceName}
    {outcome : Subject × Except Failure (Option Decision)}
    (h : Program.Amid answer meanwhile (g.wired (o.attempt topic named)) s ms outcome s') :
    Updates answer ms (∃ e, outcome.2 = .error e) := by
  rw [attempt, Gateway.wired_bind] at h
  obtain ⟨ms₁, found, s₁, rest, h₁, hrest, rfl⟩ := h.of_bind
  have hread : (Task.store (.read topic)).Only OperatorCall.Prepares :=
    .ask ⟨rfl, rfl⟩ fun _ => .done _
  refine .prepend (origin_of_only hread h₁) ?_
  cases found with
  | error e =>
    cases hrest
    exact .never (by simp)
  | ok stored =>
    simp only [Gateway.wired_bind] at hrest
    obtain ⟨ms₂, got, s₂, last, h₂, hlast, rfl⟩ := hrest.of_bind
    have hget : (Task.resource (.get (resourceFor topic named stored))).Only
        OperatorCall.Prepares := .ask ⟨rfl, rfl⟩ fun _ => .done _
    refine .prepend (origin_of_only hget h₂) ?_
    cases got with
    | error e =>
      cases hlast
      exact .never (by simp)
    | ok live =>
      dsimp only at hlast
      split at hlast
      · cases hlast
        exact .never (by simp)
      · rw [Gateway.wired_bind] at hlast
        obtain ⟨ms₃, r, s₃, none, h₃, hdone, rfl⟩ := hlast.of_bind
        cases hdone
        exact (updates_settle h₃).append (by simp) id

theorem updates_reconcile {named : Option ResourceName} {r : Except Failure (Option Decision)}
    (h : Program.Amid answer meanwhile (g.wired (o.reconcile topic named)) s ms r s') :
    Updates answer ms (∃ e, r = .error e) := by
  have hbind : o.reconcile topic named =
      (Task.count .reconciliation).bind fun _ => (o.attempt topic named).bind conclusion := rfl
  rw [hbind, Gateway.wired_bind] at h
  obtain ⟨ms₁, u, s₁, rest, h₁, hrest, rfl⟩ := h.of_bind
  refine .prepend (fun m hm => (concludes_of_reports (reports_count _) h₁ m hm).prepares) ?_
  rw [Gateway.wired_bind] at hrest
  obtain ⟨ms₂, outcome, s₂, ms₃, h₂, h₃, rfl⟩ := hrest.of_bind
  have hresult : r = outcome.2 := result_of_conclusion h₃.yields
  rw [hresult]
  exact (updates_attempt h₂).append (concludes_of_reports (reports_conclusion outcome) h₃) id

end Operator

/-- Whatever others do while an attempt is under way, it makes no update, or one, which begins with
a read. Either the attempt fails then and has written nothing to the store, and no later call of it
overwrites an edit; or the update replaces the object in just the state that it has read, and no
call after that overwrites an edit. -/
theorem Gateway.edit_survives {object : σ → String → Option Resource} {named : Option ResourceName}
    {result : Except Failure (Option Decision)} (hserver : ApiServer answer object)
    (hrun : Program.Amid answer meanwhile (g.wired (o.reconcile topic named)) s ms result s')
    (hversions : Versioned answer object ms) :
    (∀ m ∈ ms, m.1.origin.isUpdate = false) ∨
    ∃ before get w₁ t after,
      ms = before ++ (.inr (.update t, get), w₁) :: after ∧ get.method = .get ∧
      (∀ m ∈ before, m.1.origin.isUpdate = false) ∧
      (((∃ e, result = .error e) ∧ (∀ m ∈ ms, m.1.origin.writesStore = false) ∧
          ∀ m ∈ after, LeavesEdits answer object m) ∨
        ∃ put w₂ current rest, after = (.inr (.update t, put), w₂) :: rest ∧
          ReadAndReplace answer get put w₁ current t ∧ object w₂ put.path = some current ∧
          ∀ m ∈ rest, LeavesEdits answer object m) := by
  have hleaves : ∀ m : WiredCall × σ, KeepsSpec m.1 → LeavesEdits answer object m :=
    fun m hm => hserver.keeps m.2 hm
  cases Operator.updates_reconcile hrun with
  | never h => exact .inl h
  | @unread before after get w t hms hget hbefore hafter hfailed =>
    refine .inr ⟨before, get, w, t, after, hms, hget, fun m hm => (hbefore m hm).noUpdate,
      .inl ⟨hfailed, ?_, fun m hm => hleaves m (hafter m hm).keepsSpec⟩⟩
    rw [hms, List.forall_mem_append, List.forall_mem_cons]
    exact ⟨fun m hm => (hbefore m hm).spares, rfl, fun m hm => (hafter m hm).prepares.spares⟩
  | @once before rest get put w₁ w₂ current t hms hreplace hbefore hafter hrefused =>
    refine .inr ⟨before, get, w₁, t, _, hms, hreplace.reads,
      fun m hm => (hbefore m hm).noUpdate, ?_⟩
    have hrest : ∀ m ∈ rest, LeavesEdits answer object m := fun m hm => hleaves m (hafter m hm)
    by_cases hsame : object w₂ put.path = some current
    · exact .inr ⟨put, w₂, current, rest, rfl, hreplace, hsame, hrest⟩
    · -- The version that the replacement states is not that of the object any more.
      have hread : (.inr (.update t, get), w₁) ∈ ms := by simp [hms]
      have hput : (.inr (.update t, put), w₂) ∈ ms := by simp [hms]
      have hseen : SeenObject answer object ms put.path current :=
        hreplace.path ▸ .served hread hreplace.reads hreplace.read
      obtain ⟨v, hv⟩ := hversions.numbered hseen
      have hstated : Api.statedVersion? (current.withTopic t).toJson = some v := by
        rw [Resource.statedVersion?_toJson]
        exact hv
      have houtdated : ∀ r, object w₂ put.path = some r → r.metadata.resourceVersion ≠ some v := by
        intro r hr he
        have hcurrent : r = current := hversions.unique (.kept hput hr) hseen (he.trans hv.symm)
        exact hsame (hcurrent ▸ hr)
      obtain ⟨⟨e, he⟩, hobject⟩ :=
        hserver.refuses hreplace.replaces hreplace.body hstated houtdated
      obtain ⟨hfailed, hspares⟩ := hrefused e (Reply.value_of_text he)
      have hleft : LeavesEdits answer object (.inr (.update t, put), w₂) := by
        intro path
        rw [hobject]
      refine .inl ⟨hfailed, ?_, List.forall_mem_cons.2 ⟨hleft, hrest⟩⟩
      rw [hms, List.forall_mem_append, List.forall_mem_cons, List.forall_mem_cons]
      exact ⟨fun m hm => (hbefore m hm).spares, rfl, rfl, hspares⟩

end Runs

namespace OneResource

/-- The brokers show the topic with an entry that the resource lacks; the store has no record. -/
def ordersAnswers : (c : OperatorCall) → c.Answer
  | .broker (.read _) => .ok (some Plan.ordersKafka)
  | .broker _ => .error (.broker (.unsupported ""))
  | .store (.read _) => .ok none
  | .store (.create _) => .ok ()
  | .store _ => .error (.backend "")
  | .resource _ => .error (.api .broken)
  | .warn _ | .wait _ | .count _ => ()

def orders : OneResource where
  live :=
    let r := Resource.ofTopic Plan.ordersStored "kafka"
    { r with metadata := { r.metadata with resourceVersion := some "1" } }
  versions := 1

/-- Someone adds an entry to the resource. -/
def edit (s : OneResource) : OneResource :=
  s.change { s.live with spec := { s.live.spec with config := s.live.spec.config.insert "b" "2" } }

/-- Others leave the resource as it is, or add the entry. -/
def Edits (s s' : OneResource) : Prop := s' = s ∨ s' = s.edit

/-- A run of a task of the operator while others edit the resource. -/
abbrev Runs {α : Type} (p : Task α) (s : OneResource)
    (ms : List (WiredCall × OneResource)) (a : α) (s' : OneResource) : Prop :=
  Program.Amid (answer ordersAnswers) Edits (gateway.wired p) s ms a s'

def operator : Operator := ⟨.managed, .default⟩

def subject : Subject := ⟨⟨"orders"⟩, some orders.live⟩

/-- What the attempt wants the resource to describe; it knows of no added entry. -/
def overwriting : Topic := { Plan.ordersKafka with labels := some orders.live.labels }

def actions : List Action :=
  [.updateResource overwriting,
    Plan.overwriteWarning Plan.ordersStored Plan.ordersKafka
      (TopicDiff.between Plan.ordersStored Plan.ordersKafka),
    .createStored overwriting]

/-- The resource once the added entry has been written over. -/
def overwritten : OneResource := orders.edit.change (orders.edit.live.withTopic overwriting)

theorem readsBack_orders : ReadsBack orders.live := readsBack_of_symbols (by decide +kernel)

theorem readsBack_edit : ReadsBack orders.edit.live := readsBack_of_symbols (by decide +kernel)

theorem readsBack_overwritten : ReadsBack overwritten.live :=
  readsBack_of_symbols (by decide +kernel)

theorem versioned_orders {ms : List (WiredCall × OneResource)}
    (hms : ∀ m ∈ ms, m.2 ∈ [orders, orders.edit, overwritten]) :
    Versioned (answer ordersAnswers) object ms := by
  have hversions : ([orders, orders.edit, overwritten].map fun s =>
      s.live.metadata.resourceVersion) = ["1", "2", "3"].map some := rfl
  refine versioned_of_states hms ?_ hversions (by decide)
  simp [readsBack_orders, readsBack_edit, readsBack_overwritten]

theorem runs_count (m : Metric) (s : OneResource) :
    Runs (Task.count m) s [(.inl (.count m), s)] () s :=
  .ask (.inl rfl) (.done _ _)

/-- The attempt up to its plan, which it carries out in the way given. -/
theorem runs_reconcile {s s' : OneResource} {ms ms' : List (WiredCall × OneResource)}
    {r : Except Failure Unit} {result : Except Failure (Option Decision)}
    (hr : result = r.map fun _ => some .kafkaWins)
    (hplan : Runs (Program.forAll (operator.execute subject) actions) orders ms r s)
    (hrest : Runs (Operator.conclusion (subject, result)) s ms' result s') :
    Runs (operator.reconcile Plan.ordersKafka.name (some ⟨"orders"⟩)) orders
      ((.inl (.count .reconciliation), orders) ::
        (.inl (.store (.read Plan.ordersKafka.name)), orders) ::
        (.inr (.get ⟨"orders"⟩, getRequest), orders) ::
        (.inl (.broker (.read Plan.ordersKafka.name)), orders) :: (ms ++ ms'))
      result s' := by
  have hdescribed : Operator.described Plan.ordersKafka.name subject =
      .ok (some Plan.ordersStored) := rfl
  have hmake : Plan.make operator.managed none (some Plan.ordersStored) (some Plan.ordersKafka) =
      .ok ⟨.kafkaWins, actions⟩ := rfl
  have hmanaged : ((some orders.live).any fun r => !r.isManaged operator.managed) = false := by
    decide +kernel
  have hsettle : Runs (operator.settle Plan.ordersKafka.name none subject) orders
      ((.inl (.broker (.read Plan.ordersKafka.name)), orders) :: ms) result s := by
    have hread : Runs (Task.broker (.read Plan.ordersKafka.name)) orders
        [(.inl (.broker (.read Plan.ordersKafka.name)), orders)] (.ok (some Plan.ordersKafka))
        orders :=
      .ask (.inl rfl) (.done _ _)
    rw [Operator.settle, hdescribed, ← List.append_nil ms]
    refine amid_bind hread ?_
    simp only [hmake]
    refine amid_bind hplan ?_
    rw [hr]
    cases r <;> exact .done _ _
  have hattempt : Runs (operator.attempt Plan.ordersKafka.name (some ⟨"orders"⟩)) orders
      ((.inl (.store (.read Plan.ordersKafka.name)), orders) ::
        (.inr (.get ⟨"orders"⟩, getRequest), orders) ::
        (.inl (.broker (.read Plan.ordersKafka.name)), orders) :: ms) (subject, result) s := by
    have hstored : Runs (Task.store (.read Plan.ordersKafka.name)) orders
        [(.inl (.store (.read Plan.ordersKafka.name)), orders)] (.ok none) orders :=
      .ask (.inl rfl) (.done _ _)
    have hget : Runs (Task.resource (.get ⟨"orders"⟩)) orders
        [(.inr (.get ⟨"orders"⟩, getRequest), orders)] (.ok (some orders.live)) orders :=
      amid_get (.inl rfl) readsBack_orders
    rw [Operator.attempt]
    refine amid_bind hstored (amid_bind hget ?_)
    dsimp only
    rw [hmanaged, ← List.append_nil ms]
    exact amid_bind hsettle (.done _ _)
  rw [Operator.reconcile_eq]
  exact amid_bind (runs_count _ orders) (amid_bind hattempt hrest)

/-- A report leaves the specification as it is. -/
theorem spec_patch (r : Report) (s : OneResource) :
    (s.serve (patchRequest r)).2.live.spec = s.live.spec := by
  have hkeeps : KeepsSpec (.inr (.updateStatus ⟨"orders"⟩ r, patchRequest r)) :=
    .inr ⟨_, _, _, rfl, rfl, rfl⟩
  have hserver : ApiServer (answer ordersAnswers) object := apiServer
  have hedited := hserver.keeps s hkeeps path
  exact congrArg Prod.snd (Option.some.inj hedited)

theorem runs_report (r : Report) (s : OneResource) :
    Runs (Operator.report ⟨"orders"⟩ r) s
      [(.inr (.updateStatus ⟨"orders"⟩ r, patchRequest r), s)] ()
      (s.serve (patchRequest r)).2 :=
  amid_bind (amid_updateStatus (.inl rfl) r) (.done _ _)

theorem runs_warn (w : Warning) (s : OneResource) :
    Runs (Task.warn w) s [(.inl (.count .warningEvent), s), (.inl (.warn w), s)] () s :=
  .ask (.inl rfl) (.ask (.inl rfl) (.done _ _))

theorem runs_success (s : OneResource) :
    Runs (Operator.conclusion (subject, .ok (some .kafkaWins))) s
      [(.inl (.count .duration), s),
        (.inr (.updateStatus ⟨"orders"⟩ (.ready 0), patchRequest (.ready 0)), s)]
      (.ok (some .kafkaWins)) (s.serve (patchRequest (.ready 0))).2 := by
  have hready : Operator.reportReady subject .kafkaWins =
      Operator.report ⟨"orders"⟩ (.ready 0) := rfl
  have hreport := runs_report (.ready 0) s
  rw [← hready] at hreport
  exact amid_bind (runs_count _ s) (amid_bind hreport (.done _ _))

theorem runs_failure (e : Failure) (s : OneResource) :
    Runs (Operator.conclusion (subject, .error e)) s
      [(.inl (.count .duration), s), (.inl (.count .error), s), (.inl (.count .warningEvent), s),
        (.inl (.warn (Operator.warning subject e.reason e.message)), s),
        (.inr (.updateStatus ⟨"orders"⟩ (.failed 0 e), patchRequest (.failed 0 e)), s)]
      (.error e) (s.serve (patchRequest (.failed 0 e))).2 := by
  have hfailed : Operator.reportFailure subject e = Operator.report ⟨"orders"⟩ (.failed 0 e) := rfl
  have hreport := runs_report (.failed 0 e) s
  rw [← hfailed] at hreport
  exact amid_bind (runs_count _ s) <| amid_bind (runs_count _ s) <| amid_bind (runs_warn _ s) <|
    amid_bind hreport (.done _ _)

/-- An edit made after the attempt has read the resource, but before the update reads it again, is
lost, though the server refuses replacements of outdated versions and the attempt succeeds. -/
theorem edit_overwritten :
    ∃ ms s', ApiServer (answer ordersAnswers) object ∧ Versioned (answer ordersAnswers) object ms ∧
      Runs (operator.reconcile Plan.ordersKafka.name (some ⟨"orders"⟩)) orders ms
        (.ok (some .kafkaWins)) s' ∧
      (∃ before between after t put,
        ms = before ++ (.inr (.get ⟨"orders"⟩, getRequest), orders) :: between ++
          (.inr (.update t, put), orders.edit) :: after ∧ put.method = .put) ∧
      orders.live.spec.config.get? "b" = none ∧ orders.edit.live.spec.config.get? "b" = some "2" ∧
      s'.live.spec.config.get? "b" = none := by
  have hreplaced : orders.edit.serve (putRequest (orders.edit.live.withTopic overwriting)) =
      (found overwritten.live, overwritten) := by
    have hdocument : Resource.ofJson? (orders.edit.live.withTopic overwriting).toJson =
        some (orders.edit.live.withTopic overwriting) := by
      decide +kernel
    have hversion : Api.statedVersion? (orders.edit.live.withTopic overwriting).toJson =
        orders.edit.live.metadata.resourceVersion := Resource.statedVersion?_toJson _
    rw [serve_put rfl rfl rfl, replace, if_pos hversion, hdocument]
    rfl
  have hconfirmed : Gateway.answer (fun _ => ())
      (Reply.value Resource.ofJson? (found overwritten.live)) = .ok () := by
    rw [readsBack_overwritten]
    rfl
  have hupdate : Runs (Task.resource (.update overwriting)) orders _ _ _ :=
    amid_update rfl (.inr rfl) readsBack_edit (.inl rfl) hreplaced hconfirmed
  have hrecord : Runs (operator.execute subject (.createStored overwriting)) overwritten
      [(.inl (.store (.create overwriting)), overwritten)] (.ok ()) overwritten :=
    .ask (.inl rfl) (.done _ _)
  have hplan : Runs (Program.forAll (operator.execute subject) actions) orders _ (.ok ())
      overwritten :=
    amid_bind hupdate <| amid_bind (amid_bind (runs_warn _ _) (.done _ _)) <|
      amid_bind hrecord (.done _ _)
  have hrun := runs_reconcile rfl hplan (runs_success overwritten)
  refine ⟨_, _, apiServer, ?_, hrun, ?_, rfl, ?_, ?_⟩
  · refine versioned_orders ?_
    simp
  · exact ⟨[_, _], [_, _], _, _, _, rfl, rfl⟩
  · rfl
  · rw [spec_patch]
    rfl

/-- The calls of the attempt if the entry is added after the update has read the resource. -/
def refusedCalls (e : Failure) : List (WiredCall × OneResource) :=
  [(.inl (.count .reconciliation), orders), (.inl (.store (.read Plan.ordersKafka.name)), orders),
    (.inr (.get ⟨"orders"⟩, getRequest), orders),
    (.inl (.broker (.read Plan.ordersKafka.name)), orders),
    (.inr (.update overwriting, getRequest), orders),
    (.inr (.update overwriting, putRequest (orders.live.withTopic overwriting)), orders.edit),
    (.inl (.count .duration), orders.edit), (.inl (.count .error), orders.edit),
    (.inl (.count .warningEvent), orders.edit),
    (.inl (.warn (Operator.warning subject e.reason e.message)), orders.edit),
    (.inr (.updateStatus ⟨"orders"⟩ (.failed 0 e), patchRequest (.failed 0 e)), orders.edit)]

theorem runs_refused : ∃ e s', s'.live.spec = orders.edit.live.spec ∧
    Runs (operator.reconcile Plan.ordersKafka.name (some ⟨"orders"⟩)) orders (refusedCalls e)
      (.error e) s' := by
  have hrefused : orders.edit.serve (putRequest (orders.live.withTopic overwriting)) =
      (refusal 409 "Conflict", orders.edit) := by
    have hversion : Api.statedVersion? (orders.live.withTopic overwriting).toJson ≠
        orders.edit.live.metadata.resourceVersion := by
      rw [Resource.statedVersion?_toJson]
      decide +kernel
    rw [serve_put rfl rfl rfl, replace, if_neg hversion]
  obtain ⟨e, he⟩ := text_refusal 409 (by decide) "Conflict"
  have hfailed : Gateway.answer (fun _ => ())
      (Reply.value Resource.ofJson? (refusal 409 "Conflict")) = .error (.api e) := by
    rw [Reply.value_of_text he]
    rfl
  have hupdate : Runs (Task.resource (.update overwriting)) orders _ _ _ :=
    amid_update rfl (.inl rfl) readsBack_orders (.inr rfl) hrefused hfailed
  have hplan : Runs (Program.forAll (operator.execute subject) actions) orders _ (.error (.api e))
      orders.edit :=
    amid_bind hupdate (.done _ _)
  exact ⟨.api e, _, spec_patch _ _, runs_reconcile rfl hplan (runs_failure (.api e) orders.edit)⟩

/-- If the entry is added after the update has read the resource, the replacement is refused. -/
theorem edit_survives_refused :
    ∃ e s', Runs (operator.reconcile Plan.ordersKafka.name (some ⟨"orders"⟩)) orders
        (refusedCalls e) (.error e) s' ∧
      (∃ m ∈ refusedCalls e, m.1.origin.isUpdate = true) ∧
      (∀ m ∈ refusedCalls e, m.1.origin.writesStore = false) ∧
      s'.live.spec.config.get? "b" = some "2" := by
  obtain ⟨e, s', hspec, hrun⟩ := runs_refused
  have hversions : Versioned (answer ordersAnswers) object (refusedCalls e) :=
    versioned_orders (by simp [refusedCalls])
  have hput : (.inr (.update overwriting, putRequest (orders.live.withTopic overwriting)),
      orders.edit) ∈ refusedCalls e := by
    simp [refusedCalls]
  refine ⟨e, s', hrun, ⟨_, hput, rfl⟩, ?_, by rw [hspec]; rfl⟩
  rcases Gateway.edit_survives apiServer hrun hversions with
    hnever | ⟨before, get, w₁, t, after, hms, hget, -, ⟨-, hspares, -⟩ |
      ⟨put, w₂, current, rest, rfl, hreplace, hsame, -⟩⟩
  · cases hnever _ hput
  · exact hspares
  · have hrequests : ∀ q w, (.inr (.update t, q), w) ∈ refusedCalls e → t = overwriting ∧
        (q = getRequest ∧ w = orders ∨
          q = putRequest (orders.live.withTopic overwriting) ∧ w = orders.edit) := by
      intro q w hmem
      simpa [refusedCalls, and_assoc, ← and_or_left] using hmem
    obtain ⟨rfl, ⟨rfl, rfl⟩ | ⟨rfl, -⟩⟩ := hrequests get w₁ (by simp [hms])
    · obtain ⟨-, ⟨rfl, -⟩ | ⟨rfl, rfl⟩⟩ := hrequests put w₂ (by simp [hms])
      · cases hreplace.replaces
      · have hread : Reply.value Resource.ofJson? (orders.serve getRequest).1 = .ok current :=
          hreplace.read
        rw [serve_getRequest, readsBack_orders] at hread
        cases hread
        exact absurd hsame (by decide +kernel)
    · cases hget

end OneResource

end TopicSync
