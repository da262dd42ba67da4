import TopicSync.Api.Gateway
import TopicSync.Proofs.Interleaving

/-!
The requests that the gateway makes for the calls on resources. An update reads the resource and
puts back what it has read, with another specification, to the same path; a report patches the
status alone.
-/
namespace TopicSync

theorem Reply.value_of_text {α : Type} {f : Json → Option α} {r : Reply} {e : ApiError}
    (h : r.text = .error e) : r.value f = .error e := by
  rw [value, h]

namespace Api

theorem only_send (method : Method) (path : String) (parameters : Option (List (String × String)))
    (body : Option Json) :
    (send method path parameters body).Only fun r : Request =>
      r.method = method ∧ r.body = body := by
  rw [send]
  split
  · exact .ask ⟨rfl, rfl⟩ fun _ => .done _
  · exact .done _

theorem only_sendAbout (name : String) (method : Method) (path : String)
    (parameters : Option (List (String × String))) (body : Option Json) :
    (sendAbout name method path parameters body).Only fun r : Request =>
      r.method = method ∧ r.body = body := by
  rw [sendAbout]
  split
  · exact .done _
  · exact only_send method path parameters body

/-- A target has the same path with parameters as without. -/
theorem Target.path_eq {path : String} {parameters : List (String × String)} {t u : Target}
    (ht : ofText? (text path none) = some t) (hu : ofText? (text path (some parameters)) = some u) :
    u.path = t.path := by
  have hcut : ∀ cs ds : List Char, ((cs ++ '?' :: ds).takeWhile (· ≠ '#')).takeWhile (· ≠ '?') =
      (cs.takeWhile (· ≠ '#')).takeWhile (· ≠ '?') := by
    intro cs ds
    induction cs with
    | nil => simp
    | cons c cs ih =>
      by_cases hc : c = '#'
      · simp [hc]
      · by_cases hq : c = '?'
        · simp [hq]
        · simpa [hc, hq] using ih
  rw [ofText?] at ht hu
  split at ht
  · split at hu
    · cases ht
      cases hu
      simp only [text, String.toList_append, String.toList_ofList]
      exact congrArg String.ofList (hcut _ _)
    · cases hu
  · cases ht

end Api

/-- The calls of the operator, where those on resources are the requests that they amount to. -/
abbrev WiredCall : Type := OperatorCall ⊕ ResourceCall × Request

abbrev wiredInterface : Interface := ⟨WiredCall, Sum.elim OperatorCall.Answer fun _ => Reply⟩

/-- The call of the operator that a call is part of. -/
def WiredCall.origin : WiredCall → OperatorCall
  | .inl c => c
  | .inr (c, _) => .resource c

/-- A session with the API server as the carrying out of a call. -/
def Api.Session.wired (c : ResourceCall) (p : Api.Session α) : Program wiredInterface α :=
  Program.translate (I := httpInterface) (fun q => .ask (.inr (c, q)) .done) p

theorem Api.Session.wired_bind (c : ResourceCall) (p : Api.Session α) (f : α → Api.Session β) :
    Api.Session.wired c (p.bind f) =
      (Api.Session.wired c p).bind fun a => Api.Session.wired c (f a) :=
  Program.translate_bind p f

theorem Api.Session.only_wired {P : Request → Prop} {p : Api.Session α} (hp : p.Only P)
    (c : ResourceCall) :
    (Api.Session.wired c p).Only fun d : WiredCall => ∃ q, d = .inr (c, q) ∧ P q :=
  hp.translate fun q hq => .ask ⟨q, rfl, hq⟩ fun _ => .done _

namespace Gateway

/-- Carry out a call: one on resources by requests, any other as it is. -/
def carryOut (g : Gateway) : (c : OperatorCall) → Program wiredInterface c.Answer
  | .resource c => Api.Session.wired c (g.perform c)
  | .broker c => .ask (.inl (.broker c)) .done
  | .store c => .ask (.inl (.store c)) .done
  | .warn w => .ask (.inl (.warn w)) .done
  | .wait ms => .ask (.inl (.wait ms)) .done
  | .count m => .ask (.inl (.count m)) .done

/-- A task whose calls on resources are carried out by requests. -/
def wired (g : Gateway) (p : Task α) : Program wiredInterface α := p.translate g.carryOut

theorem wired_bind (g : Gateway) (p : Task α) (f : α → Task β) :
    g.wired (p.bind f) = (g.wired p).bind fun a => g.wired (f a) :=
  Program.translate_bind p f

theorem wired_resource (g : Gateway) (c : ResourceCall) :
    g.wired (Task.resource c) = Api.Session.wired c (g.perform c) :=
  Program.bind_done (Api.Session.wired c (g.perform c))

theorem only_carryOut (g : Gateway) (c : OperatorCall) :
    (g.carryOut c).Only fun d : WiredCall => d.origin = c := by
  cases c with
  | resource c =>
    refine (Api.Session.only_wired (.of_forall fun _ => trivial) c).mono ?_
    rintro d ⟨q, rfl, -⟩
    rfl
  | _ => exact .ask rfl fun _ => .done _

end Gateway

namespace OperatorCall

/-- The call updates a resource. -/
def isUpdate : OperatorCall → Bool
  | resource (.update _) => true
  | _ => false

def writesStore : OperatorCall → Bool
  | store (.create _) | store (.update _) | store (.delete _) => true
  | _ => false

theorem isUpdate_eq_false {c : OperatorCall} (h : ∀ t, c ≠ resource (.update t)) :
    c.isUpdate = false := by
  unfold isUpdate
  split
  · exact absurd rfl (h _)
  · rfl

end OperatorCall

/-- The call is not on resources, or patches nothing but a status. -/
def KeepsSpec (c : WiredCall) : Prop :=
  (∃ oc, c = .inl oc ∧ ∀ rc, oc ≠ .resource rc) ∨
    ∃ rc q j, c = .inr (rc, q) ∧ q.method = .patch ∧ q.body = some (.object [("status", j)])

/-- Neither calls that are not on resources nor reports of a status write a specification. -/
theorem Gateway.keepsSpec_carryOut (g : Gateway) {c : OperatorCall}
    (hc : (∀ rc, c ≠ .resource rc) ∨ ∃ name r, c = .resource (.updateStatus name r)) :
    (g.carryOut c).Only KeepsSpec := by
  cases c with
  | resource c =>
    obtain ⟨name, r, ⟨⟩⟩ : ∃ name r, OperatorCall.resource c = .resource (.updateStatus name r) :=
      hc.resolve_left fun h => h c rfl
    have hpatch : (g.perform (.updateStatus name r)).Only fun q : Request =>
        q.method = .patch ∧ q.body = some (.object [("status", (r.status g.moment.time).toJson)]) :=
      (Api.only_sendAbout _ .patch _ _ _).bind fun _ => .done _
    refine (Api.Session.only_wired hpatch _).mono ?_
    rintro d ⟨q, rfl, hq⟩
    exact .inr ⟨_, q, _, rfl, hq⟩
  | _ => exact .ask (.inl ⟨_, rfl, by simp⟩) fun _ => .done _

section Runs

variable {σ : Type} {answer : (c : WiredCall) → σ → wiredInterface.Answer c × σ}
  {meanwhile : σ → σ → Prop} {g : Gateway} {s s' : σ} {ms : List (WiredCall × σ)}

theorem Api.run_sendAbout {c : ResourceCall} {name : String} {method : Method} {path : String}
    {parameters : Option (List (String × String))} {body : Option Json} {r : Reply}
    (h : Program.Amid (I := wiredInterface) answer meanwhile
      (Api.Session.wired c (sendAbout name method path parameters body)) s ms r s') :
    (ms = [] ∧ r = .dropped) ∨ ∃ target w,
      Target.ofText? (Target.text path parameters) = some target ∧
      ms = [(.inr (c, ⟨method, target.path, target.query, body⟩), w)] ∧
      r = (answer (.inr (c, ⟨method, target.path, target.query, body⟩)) w).1 := by
  rw [sendAbout] at h
  split at h
  · cases h
    exact .inl ⟨rfl, rfl⟩
  · rw [send] at h
    split at h
    next target ht =>
      cases h with
      | ask hm hk =>
        cases hk
        exact .inr ⟨target, _, ht, rfl, rfl⟩
    next =>
      cases h
      exact .inl ⟨rfl, rfl⟩

/-- A replacement and the read before it: what was read is put back to the same path, with the
specification of a snapshot. -/
structure ReadAndReplace (answer : (c : WiredCall) → σ → wiredInterface.Answer c × σ)
    (get put : Request) (w : σ) (current : Resource) (t : Topic) : Prop where
  reads : get.method = .get
  read : Reply.value Resource.ofJson? (answer (.inr (.update t, get)) w).1 = .ok current
  replaces : put.method = .put
  path : put.path = get.path
  body : put.body = some (current.withTopic t).toJson

/-- The run of an update: it fails without a request or after a read, or makes a replacement after a
read. -/
inductive UpdateRun (answer : (c : WiredCall) → σ → wiredInterface.Answer c × σ) (t : Topic) :
    List (WiredCall × σ) → Except Failure Unit → Prop where
  | silent (e : Failure) : UpdateRun answer t [] (.error e)
  | unread (e : Failure) {get : Request} {w : σ} (reads : get.method = .get) :
      UpdateRun answer t [(.inr (.update t, get), w)] (.error e)
  | replaced {get put : Request} {w₁ w₂ : σ} {current : Resource} {r : Except Failure Unit}
      (hreplace : ReadAndReplace answer get put w₁ current t)
      (hfail : ∀ e, Reply.value Resource.ofJson? (answer (.inr (.update t, put)) w₂).1 = .error e →
        ∃ e, r = .error e) :
      UpdateRun answer t [(.inr (.update t, get), w₁), (.inr (.update t, put), w₂)] r

theorem Gateway.run_update {t : Topic} {r : Except Failure Unit}
    (h : Program.Amid (I := wiredInterface) answer meanwhile
      (g.wired (Task.resource (.update t))) s ms r s') :
    UpdateRun answer t ms r := by
  rw [wired_resource] at h
  change Program.Amid (I := wiredInterface) answer meanwhile
    (Api.Session.wired (.update t) (g.update t)) s ms r s' at h
  rw [update, Api.Session.wired_bind] at h
  obtain ⟨ms₁, found, s₁, ms₂, hget, hrest, rfl⟩ := h.of_bind
  rcases Api.run_sendAbout hget with ⟨rfl, rfl⟩ | ⟨target, w₁, htarget, rfl, hfound⟩
  · -- Nothing was asked, so that there is nothing to put back.
    cases hrest
    exact .silent _
  · cases hread : Reply.value Resource.ofJson? found with
    | error e =>
      simp only [hread] at hrest
      cases hrest
      exact .unread _ rfl
    | ok current =>
      simp only [hread, Api.Session.wired_bind] at hrest
      obtain ⟨ms₃, replied, s₃, ms₄, hput, hlast, rfl⟩ := hrest.of_bind
      cases hlast
      rcases Api.run_sendAbout hput with ⟨rfl, rfl⟩ | ⟨target', w₂, htarget', rfl, hreplied⟩
      · exact .unread _ rfl
      · refine .replaced ⟨rfl, hfound ▸ hread, rfl, ?_, rfl⟩ fun e he => ?_
        · exact Api.Target.path_eq htarget htarget'
        · rw [hreplied]
          exact ⟨.api e, by rw [he]; rfl⟩

end Runs

end TopicSync
