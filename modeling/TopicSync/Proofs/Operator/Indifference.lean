import TopicSync.Proofs.Operator.Calls

/-!
That an attempt does not depend on what becomes of its reports. It reads the resource, and with it a
status, before it reports anything; from then on it looks at nothing that a report could change.
So in two worlds that differ only in what they make of reports it has the same result and the same
effects.
-/
namespace TopicSync

namespace OperatorCall

/-- The call announces something: it publishes an event or writes a status. -/
def announces : OperatorCall → Bool
  | warn _ | resource (.updateStatus ..) => true
  | _ => false

/-- The answer shows resources with their statuses. -/
def showsStatus : OperatorCall → Bool
  | resource (.get _) | resource .list => true
  | _ => false

end OperatorCall

/-- Two worlds that differ at most in what they make of announcements. Neither changes its content
for one; and what a call that shows no status is answered, and what content it leaves, depends on
the content alone. -/
structure DifferInReports {σ κ : Type} (answer answer' : (c : OperatorCall) → σ → c.Answer × σ)
    (content : σ → κ) : Prop where
  same : ∀ {c : OperatorCall}, c.announces = false → ∀ s, answer' c s = answer c s
  kept : ∀ {c : OperatorCall}, c.announces = true → ∀ s,
    content (answer c s).2 = content s ∧ content (answer' c s).2 = content s
  settled : ∀ {c : OperatorCall}, c.announces = false → c.showsStatus = false →
    ∀ s s', content s = content s' →
      (answer c s).1 = (answer c s').1 ∧ content (answer c s).2 = content (answer c s').2

/-- Run from a state in each of two worlds, a program ends with the same value and content. -/
def Alike {α σ κ : Type} (answer answer' : (c : OperatorCall) → σ → c.Answer × σ)
    (content : σ → κ) (p : Task α) (s s' : σ) : Prop :=
  (p.run answer s).1 = (p.run answer' s').1 ∧
    content (p.run answer s).2 = content (p.run answer' s').2

/-- Wherever two worlds have the same content, the program ends alike in both. -/
def Indifferent {α σ κ : Type} (answer answer' : (c : OperatorCall) → σ → c.Answer × σ)
    (content : σ → κ) (p : Task α) : Prop :=
  ∀ s s', content s = content s' → Alike answer answer' content p s s'

section Programs

variable {α β σ κ : Type} {answer answer' : (c : OperatorCall) → σ → c.Answer × σ}
  {content : σ → κ} {s s' : σ}

theorem Indifferent.done (a : α) : Indifferent answer answer' content (.done a) :=
  fun _ _ hs => ⟨rfl, hs⟩

theorem Alike.bind {p : Task α} {f : α → Task β} (hp : Alike answer answer' content p s s')
    (hf : ∀ a, Indifferent answer answer' content (f a)) :
    Alike answer answer' content (p.bind f) s s' := by
  obtain ⟨hvalue, hcontent⟩ := hp
  rw [Alike, Program.bind_run, Program.bind_run, hvalue]
  exact hf _ _ _ hcontent

theorem Indifferent.bind {p : Task α} {f : α → Task β} (hp : Indifferent answer answer' content p)
    (hf : ∀ a, Indifferent answer answer' content (f a)) :
    Indifferent answer answer' content (p.bind f) :=
  fun s s' hs => (hp s s' hs).bind hf

theorem Indifferent.forAll {f : α → Task (Except β Unit)} {as : List α}
    (h : ∀ a ∈ as, Indifferent answer answer' content (f a)) :
    Indifferent answer answer' content (Program.forAll f as) := by
  induction as with
  | nil => exact .done _
  | cons a as ih =>
    refine (h a (.head _)).bind fun r => ?_
    cases r with
    | error e => exact .done _
    | ok _ => exact ih fun b hb => h b (.tail _ hb)

namespace DifferInReports

variable (h : DifferInReports answer answer' content)

include h

theorem ask {c : OperatorCall} {k : c.Answer → Task α} (hc : c.announces = false)
    (hs : c.showsStatus = false) (hk : ∀ r, Indifferent answer answer' content (k r)) :
    Indifferent answer answer' content (.ask c k) := by
  intro s s' hsame
  obtain ⟨hanswer, hcontent⟩ := h.settled hc hs s s' hsame
  rw [Alike, Program.run_ask, Program.run_ask, h.same hc, hanswer]
  exact hk _ _ _ hcontent

/-- What is announced may be answered in two ways, so the program must not look at the answer. -/
theorem announce {c : OperatorCall} (hc : c.announces = true) (p : Task α)
    (hp : Indifferent answer answer' content p) :
    Indifferent answer answer' content (.ask c fun _ => p) := by
  intro s s' hsame
  refine hp _ _ ?_
  rw [(h.kept hc s).1, (h.kept hc s').2, hsame]

/-- From one and the same state, also what shows statuses is answered alike. -/
theorem ask_same {c : OperatorCall} {k : c.Answer → Task α} (hc : c.announces = false)
    (hk : ∀ r s, Alike answer answer' content (k r) s s) (s : σ) :
    Alike answer answer' content (.ask c k) s s := by
  rw [Alike, Program.run_ask, Program.run_ask, h.same hc]
  exact hk _ _

theorem of_only {p : Task α}
    (hp : p.Only fun c : OperatorCall => c.announces = false ∧ c.showsStatus = false) :
    Indifferent answer answer' content p := by
  induction hp with
  | done a => exact .done a
  | ask hc _ ih => exact h.ask hc.1 hc.2 ih

theorem count (m : Metric) : Indifferent answer answer' content (Task.count m) :=
  h.ask rfl rfl .done

theorem warn (w : Warning) : Indifferent answer answer' content (Task.warn w) :=
  h.ask rfl rfl fun _ => h.announce (c := .warn w) rfl (.done ()) (.done ())

theorem report (resource : ResourceName) (r : Report) :
    Indifferent answer answer' content (Operator.report resource r) :=
  h.announce (c := .resource (.updateStatus resource r)) rfl (.done ()) (.done ())

end DifferInReports

end Programs

/-- Of the calls of actions only those of a warning announce anything. -/
theorem Action.not_announces_of_calls {a : Action} {c : OperatorCall}
    (ha : ∀ reason message, a ≠ .warn reason message) (h : a.Calls c) :
    c.announces = false ∧ c.showsStatus = false := by
  cases a with
  | createKafkaTopic t => rcases h with rfl | rfl | ⟨ms, rfl⟩ <;> exact ⟨rfl, rfl⟩
  | warn reason message => exact absurd rfl (ha reason message)
  | _ =>
    cases h
    exact ⟨rfl, rfl⟩

namespace Operator

variable {σ κ : Type} {answer answer' : (c : OperatorCall) → σ → c.Answer × σ} {content : σ → κ}

theorem indifferent_execute (h : DifferInReports answer answer' content) (o : Operator)
    (subject : Subject) (a : Action) :
    Indifferent answer answer' content (o.execute subject a) := by
  by_cases ha : ∃ reason message, a = .warn reason message
  · obtain ⟨reason, message, rfl⟩ := ha
    exact (h.warn _).bind fun _ => .done _
  · refine h.of_only ((o.calls_execute subject a).mono fun c hc => ?_)
    exact Action.not_announces_of_calls (fun reason message he => ha ⟨reason, message, he⟩) hc

theorem indifferent_settle (h : DifferInReports answer answer' content) (o : Operator)
    (topic : TopicName) (stored : Option Topic) (subject : Subject) :
    Indifferent answer answer' content (o.settle topic stored subject) := by
  rw [settle]
  split
  · exact .done _
  · refine h.ask rfl rfl fun kafka => ?_
    cases kafka with
    | error e => exact .done _
    | ok kafka =>
      dsimp only [Program.bind]
      split
      · exact .done _
      · refine (Indifferent.forAll fun a _ => indifferent_execute h o subject a).bind fun r => ?_
        cases r <;> exact .done _

theorem indifferent_conclusion (h : DifferInReports answer answer' content)
    (outcome : Subject × Except Failure (Option Decision)) :
    Indifferent answer answer' content (conclusion outcome) := by
  obtain ⟨subject, result⟩ := outcome
  refine (h.count _).bind fun _ => ?_
  match result with
  | .ok none => exact .done _
  | .ok (some d) =>
    refine Indifferent.bind ?_ fun _ => .done _
    rw [reportReady]
    split
    · exact .done _
    · split
      · exact .done _
      · exact h.report _ _
  | .error e =>
    refine (h.count _).bind fun _ => (h.warn _).bind fun _ => Indifferent.bind ?_ fun _ => .done _
    rw [reportFailure]
    split
    · exact .done _
    · exact h.report _ _

theorem alike_attempt (h : DifferInReports answer answer' content) (o : Operator)
    (topic : TopicName) (named : Option ResourceName) (s : σ) :
    Alike answer answer' content (o.attempt topic named) s s := by
  refine h.ask_same rfl (fun stored s => ?_) s
  cases stored with
  | error e => exact Indifferent.done _ _ _ rfl
  | ok stored =>
    refine h.ask_same rfl (fun live s => ?_) s
    cases live with
    | error e => exact Indifferent.done _ _ _ rfl
    | ok live =>
      dsimp only [Program.bind]
      split
      · exact Indifferent.done _ _ _ rfl
      · exact (indifferent_settle h o topic stored _ s s rfl).bind fun _ => .done _

/-- An attempt ends alike in worlds that differ in what they make of its reports. -/
theorem alike_reconcile (h : DifferInReports answer answer' content) (o : Operator)
    (topic : TopicName) (named : Option ResourceName) (s : σ) :
    Alike answer answer' content (o.reconcile topic named) s s := by
  rw [reconcile_eq]
  exact h.ask_same rfl
    (fun _ s => (alike_attempt h o topic named s).bind (indifferent_conclusion h)) s

end Operator

end TopicSync
