import Mathlib.Tactic.Push
import TopicSync.Proofs.Balance
import TopicSync.Proofs.Operator.Calls

/-!
What work counts by the time it ends, whatever is answered: an attempt counts itself once, and its
failure once more if it fails; other work counts neither; none counts a drop; and each warning is
counted just when it is published.
-/
namespace TopicSync

/-- Weights for the calls that count: attempts, failures, drops, and warnings, which publishing
takes back. -/
def OperatorCall.weight (attempt failure warning drop : ℤ) : OperatorCall → ℤ
  | count .reconciliation => attempt
  | count .error => failure
  | count .warningEvent => warning
  | count .droppedTrigger => drop
  | warn _ => -warning
  | _ => 0

/-- What work has counted by its end. -/
def Completion.charge (attempt failure : ℤ) : Completion → ℤ
  | reconciled _ (.ok _) => attempt
  | reconciled _ (.error _) => attempt + failure
  | swept _ | rejected => 0

namespace Operator

open OperatorCall (weight)
open Program (AddsUp Neutral)

variable {attempt failure warning drop : ℤ}

section Calls

theorem neutral_broker (c : BrokerCall) :
    Neutral (weight attempt failure warning drop) (Task.broker c) :=
  .of_only (.ask rfl fun _ => .done _)

theorem neutral_resource (c : ResourceCall) :
    Neutral (weight attempt failure warning drop) (Task.resource c) :=
  .of_only (.ask rfl fun _ => .done _)

theorem neutral_store (c : StoreCall) :
    Neutral (weight attempt failure warning drop) (Task.store c) :=
  .of_only (.ask rfl fun _ => .done _)

/-- A warning is counted and published. -/
theorem neutral_warn (x : Warning) :
    Neutral (weight attempt failure warning drop) (Task.warn x) := by
  refine fun n => .ask fun _ => .ask fun _ => ?_
  have hback : n + weight attempt failure warning drop (.count .warningEvent) +
      weight attempt failure warning drop (.warn x) = n := add_neg_cancel_right n warning
  rw [hback]
  exact .done ()

theorem addsUp_count (m : Metric) (n : ℤ) :
    AddsUp (weight attempt failure warning drop)
      (fun _ => n + weight attempt failure warning drop (.count m)) n (Task.count m) :=
  .ask fun r => .done r

end Calls

theorem weight_of_calls {a : Action} {c : OperatorCall} (ha : ∀ reason message,
    a ≠ .warn reason message) (h : a.Calls c) : weight attempt failure warning drop c = 0 := by
  cases a with
  | createKafkaTopic t => rcases h with rfl | rfl | ⟨ms, rfl⟩ <;> rfl
  | warn reason message => exact absurd rfl (ha reason message)
  | _ =>
    cases h
    rfl

theorem neutral_execute (o : Operator) (s : Subject) (a : Action) :
    Neutral (weight attempt failure warning drop) (o.execute s a) := by
  by_cases ha : ∃ reason message, a = .warn reason message
  · obtain ⟨reason, message, rfl⟩ := ha
    exact (neutral_warn _).bind fun _ => .done _
  · push Not at ha
    exact .of_only ((o.calls_execute s a).mono fun c => weight_of_calls ha)

theorem neutral_settle (o : Operator) (topic : TopicName) (stored : Option Topic) (s : Subject) :
    Neutral (weight attempt failure warning drop) (o.settle topic stored s) := by
  rw [settle]
  split
  · exact .done _
  · refine (neutral_broker _).bind fun found => ?_
    cases found with
    | error e => exact .done _
    | ok kafka =>
      dsimp only
      split
      · exact .done _
      · refine Neutral.bind (.forAll fun a _ => neutral_execute o s a) fun r => ?_
        cases r <;> exact .done _

/-- An attempt counts nothing but its warnings. -/
theorem neutral_attempt (o : Operator) (topic : TopicName) (named : Option ResourceName) :
    Neutral (weight attempt failure warning drop) (o.attempt topic named) := by
  refine (neutral_store _).bind fun found => ?_
  cases found with
  | error e => exact .done _
  | ok stored =>
    refine (neutral_resource _).bind fun live => ?_
    cases live with
    | error e => exact .done _
    | ok live =>
      dsimp only
      split
      · exact .done _
      · exact (neutral_settle o topic stored _).bind fun r => .done _

theorem neutral_report (resource : ResourceName) (r : Report) :
    Neutral (weight attempt failure warning drop) (report resource r) :=
  (neutral_resource _).bind fun _ => .done _

theorem neutral_reportReady (s : Subject) (d : Decision) :
    Neutral (weight attempt failure warning drop) (reportReady s d) := by
  rw [reportReady]
  split
  · exact .done _
  · split
    · exact .done _
    · exact neutral_report _ _

theorem neutral_reportFailure (s : Subject) (e : Failure) :
    Neutral (weight attempt failure warning drop) (reportFailure s e) := by
  rw [reportFailure]
  split
  · exact .done _
  · exact neutral_report _ _

/-- What an attempt counts beyond itself depends on how it ended. -/
theorem addsUp_conclusion (outcome : Subject × Except Failure (Option Decision))
    (topic : TopicName) :
    AddsUp (weight attempt failure warning drop)
      (fun r => (Completion.reconciled topic r).charge attempt failure) attempt
      (conclusion outcome) := by
  obtain ⟨s, result⟩ := outcome
  refine (addsUp_count .duration attempt).bind fun _ => ?_
  have hduration : attempt + weight attempt failure warning drop (.count .duration) = attempt :=
    add_zero attempt
  rw [hduration]
  match result with
  | .ok none => exact AddsUp.done_iff.2 rfl
  | .ok (some d) => exact .bind_neutral (neutral_reportReady s d) fun _ => AddsUp.done_iff.2 rfl
  | .error e =>
    refine (addsUp_count .error attempt).bind fun _ => ?_
    refine .bind_neutral (neutral_warn _) fun _ => ?_
    exact .bind_neutral (neutral_reportFailure s e) fun _ => AddsUp.done_iff.2 rfl

theorem addsUp_reconcile (o : Operator) (topic : TopicName) (named : Option ResourceName) :
    AddsUp (weight attempt failure warning drop)
      (fun r => (Completion.reconciled topic r).charge attempt failure) 0
      (o.reconcile topic named) := by
  rw [reconcile_eq]
  refine .ask fun _ => ?_
  rw [zero_add]
  exact .bind_neutral (neutral_attempt o topic named) fun outcome => addsUp_conclusion outcome topic

theorem neutral_sweep (o : Operator) : Neutral (weight attempt failure warning drop) o.sweep :=
  (neutral_broker _).bind fun _ => (neutral_store _).bind fun _ =>
    (neutral_resource _).bind fun _ => .done _

theorem neutral_reject (resource : ResourceName) (reason : String) :
    Neutral (weight attempt failure warning drop) (reject resource reason) :=
  (neutral_resource _).bind fun _ => (neutral_warn _).bind fun _ => neutral_reportFailure _ _

end Operator

/-- All that work counts is what is due for the way it ends. -/
theorem Work.addsUp_task (attempt failure warning drop : ℤ) (o : Operator) (work : Work) :
    Program.AddsUp (OperatorCall.weight attempt failure warning drop)
      (Completion.charge attempt failure) 0 (work.task o) := by
  cases work with
  | attempt topic resource cause =>
    exact (o.addsUp_reconcile topic resource).bind fun r => .done _
  | sweep => exact .bind_neutral o.neutral_sweep fun _ => Program.AddsUp.done_iff.2 rfl
  | reject resource reason =>
    exact .bind_neutral (Operator.neutral_reject resource reason) fun _ =>
      Program.AddsUp.done_iff.2 rfl

end TopicSync
