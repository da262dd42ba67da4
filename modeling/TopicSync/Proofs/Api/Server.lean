import Mathlib.Data.List.Nodup
import TopicSync.Json.Printer
import TopicSync.Proofs.Api.Gateway
import TopicSync.Proofs.Json.Fields

/-!
The API server as the gateway relies on it: a replacement that states another version than the
object has is refused, and nothing but replacements changes what clients write. A server with one
resource is such a server.
-/
namespace TopicSync

/-- The version of an object that a document states. -/
def Api.statedVersion? (j : Json) : Option String :=
  ((j.get? "metadata").bind (·.get? "resourceVersion")).bind Json.asString?

theorem Resource.statedVersion?_toJson (r : Resource) :
    Api.statedVersion? r.toJson = r.metadata.resourceVersion := by
  have hmetadata : r.toJson.get? "metadata" = some r.metadata.toJson := by
    cases hs : r.status <;>
      simp [toJson, toJsonWith, hs, Json.get?, Json.memberOf, Json.lastOf]
  have hversion : r.metadata.toJson.get? "resourceVersion" =
      r.metadata.resourceVersion.map .string := by
    simp [Metadata.toJson, Json.get?, Json.lastOf_append, Json.lastOf_memberOf]
  rw [Api.statedVersion?, hmetadata, Option.bind_some, hversion]
  cases r.metadata.resourceVersion <;> rfl

/-- What clients write of a resource. -/
def Resource.edited (r : Resource) : TextMap String × Spec := (r.labels, r.spec)

section Laws

variable {σ : Type} (answer : (c : WiredCall) → σ → wiredInterface.Answer c × σ)
  (object : σ → String → Option Resource)

/-- A call in a state leaves what clients write of the objects as it is. -/
def LeavesEdits (m : WiredCall × σ) : Prop :=
  ∀ path, (object (answer m.1 m.2).2 path).map Resource.edited =
    (object m.2 path).map Resource.edited

/-- The server guards replacements by versions, and keeps apart what clients and operators write. -/
structure ApiServer : Prop where
  /-- A replacement that states another version than the object has is not carried out. -/
  refuses : ∀ {c : ResourceCall} {put : Request} {w : σ} {j : Json} {v : String},
    put.method = .put → put.body = some j → Api.statedVersion? j = some v →
    (∀ r, object w put.path = some r → r.metadata.resourceVersion ≠ some v) →
    (∃ e, Reply.text (answer (.inr (c, put)) w).1 = .error e) ∧
      object (answer (.inr (c, put)) w).2 = object w
  /-- Neither a new status nor calls that are not on resources change specifications or labels. -/
  keeps : ∀ {c : WiredCall} (w : σ), KeepsSpec c → LeavesEdits answer object (c, w)

/-- The objects that there are at the calls of a run, and those that reads are answered with. -/
inductive SeenObject (ms : List (WiredCall × σ)) : String → Resource → Prop where
  | kept {m : WiredCall × σ} {path : String} {r : Resource} (hm : m ∈ ms)
      (hr : object m.2 path = some r) : SeenObject ms path r
  | served {c : ResourceCall} {get : Request} {w : σ} {r : Resource} (hm : (.inr (c, get), w) ∈ ms)
      (hg : get.method = .get)
      (hr : Reply.value Resource.ofJson? (answer (.inr (c, get)) w).1 = .ok r) :
      SeenObject ms get.path r

/-- Every object of a run has a version, and a version stands for one state of an object. -/
structure Versioned (ms : List (WiredCall × σ)) : Prop where
  numbered : ∀ {path r}, SeenObject answer object ms path r →
    ∃ v, r.metadata.resourceVersion = some v
  unique : ∀ {path r r'}, SeenObject answer object ms path r → SeenObject answer object ms path r' →
    r.metadata.resourceVersion = r'.metadata.resourceVersion → r = r'

end Laws

/-- A server with one resource. -/
structure OneResource where
  live : Resource
  /-- How many versions there have been. -/
  versions : Nat

namespace OneResource

def path : String := Gateway.collection "kafka" ++ "/orders"

def object (s : OneResource) (p : String) : Option Resource :=
  if p = path then some s.live else none

/-- Every change makes a new version. -/
def change (s : OneResource) (r : Resource) : OneResource where
  live := { r with
    metadata := { r.metadata with resourceVersion := some (toString (s.versions + 1)) } }
  versions := s.versions + 1

def refusal (code : Nat) (reason : String) : Reply :=
  .answer code (Json.compact (.object [("kind", .string "Status"), ("status", .string "Failure"),
    ("message", .string ""), ("reason", .string reason), ("code", .ofNat code)]))

def found (r : Resource) : Reply := .answer 200 r.toJson.compact

/-- Replace the resource, if the document states the version that it has. -/
def replace (s : OneResource) (j : Json) : Reply × OneResource :=
  if Api.statedVersion? j = s.live.metadata.resourceVersion then
    match Resource.ofJson? j with
    | some r => (found (s.change r).live, s.change r)
    | none => (refusal 400 "BadRequest", s)
  else (refusal 409 "Conflict", s)

/-- Patch the status, and nothing else. -/
def patch (s : OneResource) (j : Json) : Reply × OneResource :=
  match (j.get? "status").bind Status.ofJson? with
  | some status =>
    let s := s.change { s.live with status := some status }
    (found s.live, s)
  | none => (refusal 400 "BadRequest", s)

def serve (q : Request) (s : OneResource) : Reply × OneResource :=
  match q.method, q.body with
  | .get, _ => if q.path = path then (found s.live, s) else (refusal 404 "NotFound", s)
  | .put, some j => if q.path = path then s.replace j else (refusal 404 "NotFound", s)
  | .patch, some j =>
    if q.path = path ++ "/status" then s.patch j else (refusal 404 "NotFound", s)
  | _, _ => (refusal 405 "MethodNotAllowed", s)

/-- The server among brokers and a store whose answers are given. -/
def answer (others : (c : OperatorCall) → c.Answer) :
    (c : WiredCall) → OneResource → wiredInterface.Answer c × OneResource
  | .inl c, s => (others c, s)
  | .inr (_, q), s => s.serve q

theorem text_refusal (code : Nat) (h : 400 ≤ code ∧ code < 600) (reason : String) :
    ∃ e, (refusal code reason).text = .error e := ⟨_, if_pos h⟩

variable {others : (c : OperatorCall) → c.Answer}

theorem apiServer : ApiServer (answer others) object where
  refuses {c put w j v} hmethod hbody hstated hversion := by
    have hserve : answer others (.inr (c, put)) w = w.serve put := rfl
    rw [hserve, serve, hmethod, hbody]
    dsimp only
    by_cases hp : put.path = path
    · have hlive : Api.statedVersion? j ≠ w.live.metadata.resourceVersion := by
        rw [hstated]
        exact (hversion w.live (if_pos hp)).symm
      rw [if_pos hp, replace, if_neg hlive]
      exact ⟨text_refusal _ (by decide) _, rfl⟩
    · rw [if_neg hp]
      exact ⟨text_refusal _ (by decide) _, rfl⟩
  keeps {c} w hc p := by
    have hchange : ∀ r : Resource, r.edited = w.live.edited →
        ((w.change r).object p).map Resource.edited = (w.object p).map Resource.edited := by
      intro r hr
      by_cases hp : p = path
      · simp only [object, if_pos hp, Option.map_some]
        exact congrArg some hr
      · simp [object, hp]
    rcases hc with ⟨oc, rfl, -⟩ | ⟨rc, q, j, rfl, hmethod, hbody⟩
    · rfl
    · have hserve : answer others (.inr (rc, q)) w = w.serve q := rfl
      rw [hserve, serve, hmethod, hbody]
      dsimp only
      split
      · rw [patch]
        split
        · exact hchange _ rfl
        · rfl
      · rfl

/-- The resource is read as it was written. -/
def ReadsBack (r : Resource) : Prop := Reply.value Resource.ofJson? (found r) = .ok r

theorem readsBack_of_symbols {r : Resource}
    (h : ((Json.ofSymbols? ((Json.text false r.toJson).map some)).bind Resource.ofJson?) = some r) :
    ReadsBack r := by
  have hparse : (Json.parse? r.toJson.compact).bind Resource.ofJson? = some r := by
    rw [Json.parse?, Json.compact, String.toList_ofList]
    exact h
  have htext : (found r).text = .ok r.toJson.compact := by simp [found, Reply.text]
  rw [ReadsBack, Reply.value, htext]
  simp only [hparse]

theorem serve_get {q : Request} (hq : q.method = .get) (s : OneResource) :
    s.serve q = if q.path = path then (found s.live, s) else (refusal 404 "NotFound", s) := by
  rw [serve, hq]

theorem serve_put {q : Request} {j : Json} (hq : q.method = .put) (hj : q.body = some j)
    (hp : q.path = path) (s : OneResource) : s.serve q = s.replace j := by
  rw [serve, hq, hj]
  exact if_pos hp

section Sessions

/-- The gateway to the server. -/
def gateway : Gateway := ⟨"kafka", .managed, ⟨"1970-01-01T00:00:00Z", "0"⟩⟩

def getRequest : Request := ⟨.get, path, [], none⟩

def putRequest (r : Resource) : Request :=
  ⟨.put, path, [("fieldManager", "kafka-topic-operator")], some r.toJson⟩

def patchRequest (r : Report) : Request :=
  ⟨.patch, path ++ "/status", [],
    some (.object [("status", (r.status gateway.moment.time).toJson)])⟩

theorem serve_getRequest (s : OneResource) : s.serve getRequest = (found s.live, s) := by
  rw [serve_get rfl]
  exact if_pos rfl

variable {meanwhile : OneResource → OneResource → Prop} {s s₁ s₂ s₃ : OneResource}

theorem amid_bind {α β : Type} {p : Task α} {f : α → Task β} {a : α} {b : β}
    {ms ms' : List (WiredCall × OneResource)}
    (hp : Program.Amid (answer others) meanwhile (gateway.wired p) s ms a s₁)
    (hf : Program.Amid (answer others) meanwhile (gateway.wired (f a)) s₁ ms' b s₂) :
    Program.Amid (answer others) meanwhile (gateway.wired (p.bind f)) s (ms ++ ms') b s₂ := by
  rw [Gateway.wired_bind]
  exact hp.bind hf

variable (others) in
/-- The one request of a session, and the reply to it. -/
theorem amid_sendAbout (c : ResourceCall) {method : Method} {p : String}
    {parameters : Option (List (String × String))} {body : Option Json} {q : Request}
    (ht : Api.Target.ofText? (Api.Target.text p parameters) = some ⟨q.path, q.query⟩)
    (hmethod : q.method = method) (hbody : q.body = body) (hm : meanwhile s s₁) :
    Program.Amid (answer others) meanwhile
      (Api.Session.wired c (Api.sendAbout "orders" method p parameters body)) s
      [(.inr (c, q), s₁)] (s₁.serve q).1 (s₁.serve q).2 := by
  have hsend : Api.sendAbout "orders" method p parameters body = .ask q .done := by
    have hnamed : "orders".isEmpty = false := by decide
    rw [Api.sendAbout, hnamed, Api.send, ht, ← hmethod, ← hbody]
    rfl
  rw [hsend]
  exact .ask hm (.done _ _)

theorem amid_read {c : ResourceCall} (hm : meanwhile s s₁) :
    Program.Amid (answer others) meanwhile
      (Api.Session.wired c (Api.sendAbout "orders" .get (gateway.path "orders") none none)) s
      [(.inr (c, getRequest), s₁)] (found s₁.live) s₁ := by
  have htarget : Api.Target.ofText? (Api.Target.text (gateway.path "orders") none) =
      some ⟨getRequest.path, getRequest.query⟩ := by
    decide +kernel
  have hrun := amid_sendAbout others c htarget rfl rfl hm
  rwa [serve_getRequest] at hrun

theorem amid_get (hm : meanwhile s s₁) (hr : ReadsBack s₁.live) :
    Program.Amid (answer others) meanwhile (gateway.wired (Task.resource (.get ⟨"orders"⟩))) s
      [(.inr (.get ⟨"orders"⟩, getRequest), s₁)] (.ok (some s₁.live)) s₁ := by
  have hvalue : Gateway.answer id (Reply.valueIfFound Resource.ofJson? (found s₁.live)) =
      .ok (some s₁.live) := by
    rw [Reply.valueIfFound, hr]
    rfl
  rw [Gateway.wired_resource]
  change Program.Amid _ _ (Api.Session.wired _ (gateway.get ⟨"orders"⟩)) _ _ _ _
  rw [Gateway.get, Api.Session.wired_bind]
  refine (amid_read hm).bind ?_
  rw [hvalue]
  exact .done _ _

/-- An update, before whose read and before whose replacement others may act. -/
theorem amid_update {t : Topic} {reply : Reply} {r : Except Failure Unit}
    (ht : t.resourceName = ⟨"orders"⟩) (hm : meanwhile s s₁) (hr : ReadsBack s₁.live)
    (hm' : meanwhile s₁ s₂) (hput : s₂.serve (putRequest (s₁.live.withTopic t)) = (reply, s₃))
    (hreply : Gateway.answer (fun _ => ()) (reply.value Resource.ofJson?) = r) :
    Program.Amid (answer others) meanwhile (gateway.wired (Task.resource (.update t))) s
      [(.inr (.update t, getRequest), s₁),
        (.inr (.update t, putRequest (s₁.live.withTopic t)), s₂)] r s₃ := by
  have htarget : Api.Target.ofText? (Api.Target.text (gateway.path "orders")
      (some [("fieldManager", Gateway.fieldManager)])) =
      some ⟨(putRequest (s₁.live.withTopic t)).path, (putRequest (s₁.live.withTopic t)).query⟩ := by
    change _ = some (⟨path, [("fieldManager", "kafka-topic-operator")]⟩ : Api.Target)
    decide +kernel
  have hreplace := amid_sendAbout others (.update t) htarget rfl rfl hm'
  rw [hput] at hreplace
  rw [Gateway.wired_resource]
  change Program.Amid _ _ (Api.Session.wired _ (gateway.update t)) _ _ _ _
  rw [Gateway.update, ht, Api.Session.wired_bind]
  refine (amid_read hm).bind ?_
  rw [ReadsBack] at hr
  simp only [hr, Api.Session.wired_bind]
  rw [← hreply]
  exact hreplace.bind (.done _ _)

theorem amid_updateStatus (hm : meanwhile s s₁) (r : Report) :
    Program.Amid (answer others) meanwhile
      (gateway.wired (Task.resource (.updateStatus ⟨"orders"⟩ r))) s
      [(.inr (.updateStatus ⟨"orders"⟩ r, patchRequest r), s₁)]
      (Gateway.answer (fun _ => ()) ((s₁.serve (patchRequest r)).1.value Resource.ofJson?))
      (s₁.serve (patchRequest r)).2 := by
  have htarget : Api.Target.ofText? (Api.Target.text (gateway.path "orders" ++ "/status")
      (some [])) = some ⟨(patchRequest r).path, (patchRequest r).query⟩ := by
    change _ = some (⟨path ++ "/status", []⟩ : Api.Target)
    decide +kernel
  have hsend := amid_sendAbout others (.updateStatus ⟨"orders"⟩ r) htarget rfl rfl hm
  rw [Gateway.wired_resource]
  change Program.Amid _ _ (Api.Session.wired _ (gateway.updateStatus ⟨"orders"⟩ r)) _ _ _ _
  rw [Gateway.updateStatus, Api.Session.wired_bind]
  exact hsend.bind (.done _ _)

end Sessions

/-- A run among states of different versions. -/
theorem versioned_of_states {ms : List (WiredCall × OneResource)}
    {states : List OneResource} {versions : List String} (hms : ∀ m ∈ ms, m.2 ∈ states)
    (hreads : ∀ s ∈ states, ReadsBack s.live)
    (hversions : (states.map fun s => s.live.metadata.resourceVersion) = versions.map some)
    (hdistinct : versions.Nodup) : Versioned (answer others) object ms := by
  have hseen : ∀ {p r}, SeenObject (answer others) object ms p r → ∃ s ∈ states, r = s.live := by
    intro p r h
    cases h with
    | @kept m _ _ hm hr =>
      refine ⟨m.2, hms m hm, ?_⟩
      rw [object] at hr
      split at hr
      · exact (Option.some.inj hr).symm
      · cases hr
    | @served c get w _ hm hg hr =>
      have hw : w ∈ states := hms _ hm
      refine ⟨w, hw, ?_⟩
      have hserve : (answer others (.inr (c, get)) w).1 = (w.serve get).1 := rfl
      rw [hserve, serve_get hg] at hr
      split at hr
      · exact Except.ok.inj (hr.symm.trans (hreads w hw))
      · obtain ⟨e, he⟩ := text_refusal 404 (by decide) "NotFound"
        rw [Reply.value_of_text he] at hr
        cases hr
  constructor
  · intro p r h
    obtain ⟨s, hs, rfl⟩ := hseen h
    have hversion : s.live.metadata.resourceVersion ∈ versions.map some :=
      hversions ▸ List.mem_map_of_mem hs
    obtain ⟨v, -, hv⟩ := List.mem_map.1 hversion
    exact ⟨v, hv.symm⟩
  · intro p r r' h h' hv
    obtain ⟨s, hs, rfl⟩ := hseen h
    obtain ⟨s', hs', rfl⟩ := hseen h'
    have hnodup : (states.map fun s => s.live.metadata.resourceVersion).Nodup :=
      hversions ▸ hdistinct.map fun _ _ => Option.some.inj
    exact congrArg live (List.inj_on_of_nodup_map hnodup hs hs' hv)

end OneResource

end TopicSync
