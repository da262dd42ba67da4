import TopicSync.Broker.Admin
import TopicSync.Proofs.Api.Server
import TopicSync.Proofs.Operator.Calls

/-!
What a world keeps while the operator works on it: topics, resources and records change only by the
calls that are there to change them. Any call may fail, but no gateway fails with what the planner
alone can say.
-/
namespace TopicSync

/-- The failure is the planner's verdict on the three sides. -/
def Failure.isVerdict : Failure → Bool
  | conflict .. | partitionDecrease .. => true
  | _ => false

section Gateways

theorem Program.Yields.eq_of_done {I : Interface} {α : Type} {a b : α}
    (h : (Program.done a : Program I α).Yields b) : b = a := by
  cases h
  rfl

theorem Admin.failure_of_outcome {name : String}
    {r : Except BrokerError (Option (Except BrokerCode Unit))} {e : Failure}
    (h : outcome name r = .error e) : ∃ b, e = .broker b := by
  match r with
  | .error b =>
    cases h
    exact ⟨_, rfl⟩
  | .ok none =>
    cases h
    exact ⟨_, rfl⟩
  | .ok (some (.ok _)) => cases h
  | .ok (some (.error c)) =>
    cases h
    exact ⟨_, rfl⟩

/-- Whatever the brokers answer, the failures of their gateway are about them. -/
theorem Admin.failure_of_yields {c : BrokerCall} {e : Failure}
    (h : (perform c).Yields (.error e)) : ∃ b, e = .broker b := by
  have hchange : ∀ {w : WireCall} {name : String}
      {f : w.Answer → Except BrokerError (Option (Except BrokerCode Unit))},
      ((send w).bind fun r => .done (outcome name (f r))).Yields (.error e) →
        ∃ b, e = .broker b := by
    intro w name f h
    obtain ⟨r, -, h⟩ := h.of_bind
    exact failure_of_outcome h.eq_of_done.symm
  cases c with
  | read name =>
    obtain ⟨listed, -, h⟩ := h.of_bind
    cases listed with
    | error b => exact ⟨b, Except.error.inj h.eq_of_done⟩
    | ok metadata =>
      dsimp only at h
      split at h
      next b _ => exact ⟨b, Except.error.inj h.eq_of_done⟩
      next => cases h.eq_of_done
      next =>
        obtain ⟨configs, -, h⟩ := h.of_bind
        cases configs with
        | error b => exact ⟨b, Except.error.inj h.eq_of_done⟩
        | ok configs => cases h.eq_of_done
  | create t => exact hchange h
  | delete name => exact hchange h
  | updateConfig t => exact hchange h
  | increasePartitions t => exact hchange h
  | changeReplicationFactor t => exact ⟨_, Except.error.inj h.eq_of_done⟩
  | describe =>
    obtain ⟨listed, -, h⟩ := h.of_bind
    cases listed with
    | error b => exact ⟨b, Except.error.inj h.eq_of_done⟩
    | ok metadata =>
      obtain ⟨configs, -, h⟩ := h.of_bind
      cases configs with
      | error b => exact ⟨b, Except.error.inj h.eq_of_done⟩
      | ok configs => cases h.eq_of_done
  | list =>
    obtain ⟨listed, -, h⟩ := h.of_bind
    cases listed with
    | error b => exact ⟨b, Except.error.inj h.eq_of_done⟩
    | ok metadata => cases h.eq_of_done

theorem Gateway.failure_of_answer {α β : Type} {f : α → β} {r : Except ApiError α} {e : Failure}
    (h : answer f r = .error e) : ∃ a, e = .api a := by
  cases r with
  | ok a => cases h
  | error a => exact ⟨a, (Except.error.inj h).symm⟩

/-- Whatever the API server replies, the failures of its gateway are about it. -/
theorem Gateway.failure_of_yields {g : Gateway} {c : ResourceCall} {e : Failure}
    (h : (g.perform c).Yields (.error e)) : ∃ a, e = .api a := by
  cases c with
  | get name =>
    obtain ⟨r, -, h⟩ := h.of_bind
    exact failure_of_answer h.eq_of_done.symm
  | list =>
    obtain ⟨r, -, h⟩ := h.of_bind
    exact failure_of_answer h.eq_of_done.symm
  | create t =>
    obtain ⟨r, -, h⟩ := h.of_bind
    exact failure_of_answer h.eq_of_done.symm
  | update t =>
    obtain ⟨r, -, h⟩ := h.of_bind
    dsimp only at h
    split at h
    next a _ => exact ⟨a, Except.error.inj h.eq_of_done⟩
    next =>
      obtain ⟨r, -, h⟩ := h.of_bind
      exact failure_of_answer h.eq_of_done.symm
  | delete name =>
    obtain ⟨r, -, h⟩ := h.of_bind
    split at h
    next => cases h.eq_of_done
    next a _ =>
      have hdone := h.eq_of_done
      split at hdone
      · cases hdone
      · exact ⟨a, Except.error.inj hdone⟩
  | updateStatus name report =>
    obtain ⟨r, -, h⟩ := h.of_bind
    exact failure_of_answer h.eq_of_done.symm

end Gateways

namespace OperatorCall

/-- The answer tells of no failure. -/
def Succeeds : (c : OperatorCall) → c.Answer → Prop
  | broker _, r => ∃ a, r = .ok a
  | resource _, r => ∃ a, r = .ok a
  | store _, r => ∃ a, r = .ok a
  | warn _, _ | wait _, _ | count _, _ => True

/-- The answer is a failure, which an attempt fails with in its turn. -/
def FailsWith (e : Failure) : (c : OperatorCall) → c.Answer → Prop
  | broker _, r => r = .error e
  | resource _, r => r = .error e
  | store _, r => ∃ e', r = .error e' ∧ e = .store e'
  | warn _, _ | wait _, _ | count _, _ => False

/-- The call may change what topics the brokers hold. -/
def changesTopics : OperatorCall → Bool
  | broker (.read _) | broker .describe | broker .list => false
  | broker _ => true
  | _ => false

/-- The call may change the specification or the labels of a resource. -/
def changesResources : OperatorCall → Bool
  | resource (.create _) | resource (.update _) | resource (.delete _) => true
  | _ => false

end OperatorCall

/-- The topics, the resources and the texts of the records of a world, and the states that it can
be in. -/
structure Inventory (σ : Type) where
  valid : σ → Prop
  topics : σ → TextMap Topic
  resources : σ → TextMap Resource
  record : σ → TopicName → Option String

/-- What a world keeps. Any call may fail, with or without an effect, but a call on the store that
fails has none; and no call fails with a verdict of the planner, as none of the gateways does
(`Admin.failure_of_yields`, `Gateway.failure_of_yields`). -/
structure Steady {σ : Type} (answer : (c : OperatorCall) → σ → c.Answer × σ) (v : Inventory σ) :
    Prop where
  valid : ∀ (c : OperatorCall) (s : σ), v.valid s → v.valid (answer c s).2
  topics : ∀ {c : OperatorCall} {s : σ}, v.valid s → c.changesTopics = false →
    v.topics (answer c s).2 = v.topics s
  resources : ∀ {c : OperatorCall} {s : σ} (key : String), v.valid s →
    c.changesResources = false →
    ((v.resources (answer c s).2).get? key).map Resource.edited =
      ((v.resources s).get? key).map Resource.edited
  records : ∀ {c : OperatorCall} {s : σ}, v.valid s → c.writesStore = false →
    v.record (answer c s).2 = v.record s
  refused : ∀ {c : StoreCall} {s : σ} {e : StoreError}, v.valid s →
    (answer (.store c) s).1 = .error e → v.record (answer (.store c) s).2 = v.record s
  verdicts : ∀ {c : OperatorCall} {s : σ} {e : Failure}, v.valid s →
    c.FailsWith e (answer c s).1 → e.isVerdict = false

end TopicSync
