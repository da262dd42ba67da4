import TopicSync.Proofs.Api.Server
import TopicSync.Proofs.Store.MapDocument
import TopicSync.Proofs.Store.Root
import TopicSync.Proofs.Text.Form

/-!
An API server that keeps ConfigMaps by name. A name that is taken cannot be given again, and one
that is missing can neither be read nor replaced nor deleted; a replacement that states another
version than the object has is refused; a list has the objects with the label that it asks for. A
table of contents and versions is such a server.
-/
namespace TopicSync

namespace Reply

/-- A reply refuses, with this code. -/
def Refuses (r : Reply) (code : Nat) : Prop := ∃ x, r.text = .error (.refused x) ∧ x.code = code

/-- A reply says that there is no such object. -/
def Misses (r : Reply) : Prop :=
  ∃ x, r.text = .error (.refused x) ∧ x.code = 404 ∧ x.reason = "NotFound"

variable {α : Type} {r : Reply} {code : Nat}

theorem Refuses.value (h : r.Refuses code) (f : Json → Option α) :
    ∃ e : ApiError, r.value f = .error e ∧ e.code? = some code := by
  obtain ⟨x, htext, rfl⟩ := h
  exact ⟨.refused x, value_of_text htext, rfl⟩

theorem Misses.refuses (h : r.Misses) : r.Refuses 404 := by
  obtain ⟨x, htext, hcode, -⟩ := h
  exact ⟨x, htext, hcode⟩

theorem Misses.valueIfFound (h : r.Misses) (f : Json → Option α) :
    r.valueIfFound f = .ok none := by
  obtain ⟨x, htext, -, hreason⟩ := h
  rw [Reply.valueIfFound, value_of_text htext]
  exact if_pos hreason

theorem valueIfFound_of_value {f : Json → Option α} {a : α} (h : r.value f = .ok a) :
    r.valueIfFound f = .ok (some a) := by
  rw [Reply.valueIfFound, h]

end Reply

section Requests

variable (collection : String)

def getMap (name : String) : Request := ⟨.get, collection ++ "/" ++ name, [], none⟩

def postMap (j : Json) : Request := ⟨.post, collection, [], some j⟩

def putMap (name : String) (j : Json) : Request := ⟨.put, collection ++ "/" ++ name, [], some j⟩

def deleteMap (name : String) : Request :=
  ⟨.delete, collection ++ "/" ++ name, [], some (.object [])⟩

def listMaps (selector : String) : Request :=
  ⟨.get, collection, [("labelSelector", selector)], none⟩

end Requests

/-- A character that the keys and values of labels may have. -/
def isLabelChar (c : Char) : Bool := c.isAlphanum || c = '-' || c = '_' || c = '.' || c = '/'

/-- Whether a ConfigMap has a label. -/
def ConfigMap.hasLabel (key value : String) (m : ConfigMap) : Bool :=
  m.metadata.labels.bind (·.get? key) = some value

section Laws

variable {σ : Type} (answer : Request → σ → Reply × σ) (maps : σ → TextMap ConfigMap)

/-- A request leaves the ConfigMaps as they are. -/
def LeavesMaps (q : Request) (w : σ) : Prop := maps (answer q w).2 = maps w

/-- A request stores a content under a name; the server may add to it what it keeps about
objects. -/
def StoresMap (q : Request) (w : σ) (name : String) (c : MapContent) : Prop :=
  ∃ m : ConfigMap, m.content = c ∧ maps (answer q w).2 = (maps w).insert name m

/-- The server keeps the ConfigMaps of a collection by name. -/
structure MapServer (collection : String) : Prop where
  get : ∀ w name, LeavesMaps answer maps (getMap collection name) w ∧
    match (maps w).get? name with
    | some m => (answer (getMap collection name) w).1.value ConfigMap.ofJson? = .ok m
    | none => (answer (getMap collection name) w).1.Misses
  post : ∀ w j m name, ConfigMap.ofJson? j = some m → m.metadata.name = some name →
    match (maps w).get? name with
    | some _ => (answer (postMap collection j) w).1.Refuses 409 ∧
      LeavesMaps answer maps (postMap collection j) w
    | none => (∃ m', (answer (postMap collection j) w).1.value ConfigMap.ofJson? = .ok m') ∧
      StoresMap answer maps (postMap collection j) w name m.content
  put : ∀ w j m name, ConfigMap.ofJson? j = some m → m.metadata.name = some name →
    match (maps w).get? name with
    | some old =>
      if m.metadata.resourceVersion = none ∨
          m.metadata.resourceVersion = old.metadata.resourceVersion then
        (∃ m', (answer (putMap collection name j) w).1.value ConfigMap.ofJson? = .ok m') ∧
          StoresMap answer maps (putMap collection name j) w name m.content
      else (answer (putMap collection name j) w).1.Refuses 409 ∧
        LeavesMaps answer maps (putMap collection name j) w
    | none => (answer (putMap collection name j) w).1.Misses ∧
      LeavesMaps answer maps (putMap collection name j) w
  delete : ∀ w name,
    match (maps w).get? name with
    | some _ =>
      (∃ u, (answer (deleteMap collection name) w).1.value
        (Api.deletion? ConfigMap.ofJson?) = .ok u) ∧
      maps (answer (deleteMap collection name) w).2 = (maps w).erase name
    | none => (answer (deleteMap collection name) w).1.Misses ∧
      LeavesMaps answer maps (deleteMap collection name) w
  list : ∀ w key value, (∀ c ∈ key.toList, isLabelChar c = true) →
    (∀ c ∈ value.toList, isLabelChar c = true) →
    LeavesMaps answer maps (listMaps collection (key ++ "=" ++ value)) w ∧
      ∃ l, (answer (listMaps collection (key ++ "=" ++ value)) w).1.value
        (Api.Listing.ofJson? ConfigMap.ofJson?) = .ok l ∧
        l.items.Perm ((maps w).values.filter (·.hasLabel key value))

end Laws

/-- ConfigMaps by name, each with its version, and how many versions there have been. -/
structure MapTable where
  kept : TextMap (MapContent × Nat)
  versions : Nat

namespace MapTable

def empty : MapTable := ⟨.empty, 0⟩

/-- The ConfigMaps as they are shown. -/
def maps (t : MapTable) : TextMap ConfigMap :=
  t.kept.filterMap fun name e => some (e.1.named name (some (toString e.2)))

/-- Every change makes a new version. -/
def write (t : MapTable) (name : String) (c : MapContent) : MapTable :=
  ⟨t.kept.insert name (c, t.versions + 1), t.versions + 1⟩

def erase (t : MapTable) (name : String) : MapTable := { t with kept := t.kept.erase name }

def document (j : Json) : Reply := .answer 200 j.compact

def refusal (code : Nat) (reason : String) : Reply := OneResource.refusal code reason

def read (t : MapTable) (name : String) : Reply :=
  match t.maps.get? name with
  | some m => document m.toJson
  | none => refusal 404 "NotFound"

def create (t : MapTable) (m : ConfigMap) : Reply × MapTable :=
  match m.metadata.name with
  | none => (refusal 422 "Invalid", t)
  | some name =>
    if t.kept.contains name then (refusal 409 "AlreadyExists", t)
    else ((t.write name m.content).read name, t.write name m.content)

def replace (t : MapTable) (name : String) (m : ConfigMap) : Reply × MapTable :=
  match t.maps.get? name with
  | none => (refusal 404 "NotFound", t)
  | some old =>
    if m.metadata.resourceVersion = none ∨
        m.metadata.resourceVersion = old.metadata.resourceVersion then
      ((t.write name m.content).read name, t.write name m.content)
    else (refusal 409 "Conflict", t)

def delete (t : MapTable) (name : String) : Reply × MapTable :=
  if t.kept.contains name then
    (document (.object [("kind", .string "Status"), ("status", .string "Success")]), t.erase name)
  else (refusal 404 "NotFound", t)

/-- The ConfigMaps with a label. -/
def list (t : MapTable) (selector : String) : Reply :=
  let key := String.ofList (selector.toList.takeWhile (· ≠ '='))
  let value := String.ofList ((selector.toList.dropWhile (· ≠ '=')).drop 1)
  let selected := t.maps.values.filter (·.hasLabel key value)
  document (.object [("kind", .string "ConfigMapList"), ("metadata", .object []),
    ("items", .array (selected.map ConfigMap.toJson))])

/-- Serve a request on the ConfigMaps of a collection. -/
def serve (collection : String) (q : Request) (t : MapTable) : Reply × MapTable :=
  match q.method, Text.after? (collection ++ "/") q.path, q.body.bind ConfigMap.ofJson? with
  | .get, some name, _ => (t.read name, t)
  | .post, none, some m => t.create m
  | .put, some name, some m => t.replace name m
  | .delete, some name, _ => t.delete name
  | .get, none, _ =>
    match q.query with
    | [("labelSelector", selector)] => (t.list selector, t)
    | _ => (refusal 400 "BadRequest", t)
  | _, _, _ => (refusal 400 "BadRequest", t)

section Replies

theorem value_document {α : Type} {j : Json} (h : Json.Plain Json.maxDepth j)
    (f : Json → Option α) {a : α} (hf : f j = some a) : (document j).value f = .ok a := by
  have htext : (document j).text = .ok j.compact := by simp [document, Reply.text]
  rw [Reply.value, htext]
  simp only [Json.parse?_compact h, Option.bind_some, hf]

theorem text_refusal {code : Nat} (h : 400 ≤ code ∧ code < 600) (reason : String) :
    (refusal code reason).text = .error (.refused ⟨"Failure", "", reason, code⟩) := by
  have hplain : Json.Plain Json.maxDepth (.object [("kind", .string "Status"),
      ("status", .string "Failure"), ("message", .string ""), ("reason", .string reason),
      ("code", .ofNat code)]) := by
    refine .object fun m hm => ?_
    simp only [List.mem_cons, List.not_mem_nil, or_false] at hm
    rcases hm with rfl | rfl | rfl | rfl | rfl
    iterate 4 exact .string _
    exact .integer (by simp [Json.maxNegated]) (by simp [Json.maxInteger]; omega)
  have hcode : Json.asNat? 65535 (.integer code) = some code := by
    simp [Json.asNat?, Json.asInt?]
    omega
  have hread : Reply.refusal? (.object [("kind", .string "Status"), ("status", .string "Failure"),
      ("message", .string ""), ("reason", .string reason), ("code", .ofNat code)]) =
      some ⟨"Failure", "", reason, code⟩ := by
    simp [Reply.refusal?, Json.fields?, Json.count, Json.required?, Json.defaulted?, Json.lastOf,
      Json.asString?, Json.ofNat, hcode]
  rw [refusal, OneResource.refusal, Reply.text, if_pos h, Reply.refusal, Json.parse?_compact hplain,
    Option.bind_some, hread]

theorem refuses_refusal {code : Nat} (h : 400 ≤ code ∧ code < 600) (reason : String) :
    (refusal code reason).Refuses code := ⟨_, text_refusal h reason, rfl⟩

theorem misses_refusal : (refusal 404 "NotFound").Misses :=
  ⟨_, text_refusal (by decide) "NotFound", rfl, rfl⟩

theorem value_map (c : MapContent) (name : String) (version : Option String) :
    (document (c.named name version).toJson).value ConfigMap.ofJson? =
      .ok (c.named name version) :=
  value_document (c.plain_named name version 124) _ (c.ofJson?_named name version)

theorem value_success : (document (.object [("kind", .string "Status"),
    ("status", .string "Success")])).value (Api.deletion? ConfigMap.ofJson?) = .ok () := by
  refine value_document (.object fun m hm => ?_) _ (by decide)
  simp only [List.mem_cons, List.not_mem_nil, or_false] at hm
  rcases hm with rfl | rfl <;> exact .string _

/-- A list is read with the items that it was written with. -/
theorem value_list {ms : List ConfigMap}
    (h : ∀ m ∈ ms, ∃ c name version, m = MapContent.named c name version) :
    (document (.object [("kind", .string "ConfigMapList"), ("metadata", .object []),
      ("items", .array (ms.map ConfigMap.toJson))])).value
        (Api.Listing.ofJson? ConfigMap.ofJson?) = .ok ⟨ms, none, none⟩ := by
  have hitems : (ms.map ConfigMap.toJson).mapM ConfigMap.ofJson? = some ms := by
    induction ms with
    | nil => rfl
    | cons m ms ih =>
      obtain ⟨⟨c, name, version, rfl⟩, hrest⟩ := List.forall_mem_cons.1 h
      rw [List.map_cons, List.mapM_cons, ih hrest, MapContent.ofJson?_named]
      rfl
  refine value_document (.object fun m hm => ?_) _ ?_
  · simp only [List.mem_cons, List.not_mem_nil, or_false] at hm
    rcases hm with rfl | rfl | rfl
    · exact .string _
    · exact .object fun _ h => nomatch h
    · refine .array fun j hj => ?_
      obtain ⟨m, hm, rfl⟩ := List.mem_map.1 hj
      obtain ⟨c, name, version, rfl⟩ := h m hm
      exact c.plain_named name version 122
  · have hlist : Json.asOption? (Json.asListOf? ConfigMap.ofJson?)
        (.array (ms.map ConfigMap.toJson)) = some (some ms) := by
      rw [Json.asOption?, Json.asListOf?, Json.asArray?, Option.bind_eq_bind, Option.bind_some,
        hitems]
      · rfl
      · rintro ⟨⟩
    have hmetadata : Api.Listing.metadata? (.object []) = some (none, none) := rfl
    simp [Api.Listing.ofJson?, Json.asObject?, Json.fields?, Json.count, Json.required?,
      Json.defaulted?, Json.lastOf, Json.haveSound, Json.isSound, guard, hlist, hmetadata]

end Replies

section Requests

variable (t : MapTable) (collection : String)

theorem get?_maps (name : String) :
    t.maps.get? name = (t.kept.get? name).map fun e => e.1.named name (some (toString e.2)) := by
  rw [maps, TextMap.get?_filterMap]
  cases t.kept.get? name <;> rfl

theorem maps_write (name : String) (c : MapContent) : (t.write name c).maps =
    t.maps.insert name (c.named name (some (toString (t.versions + 1)))) := by
  refine TextMap.ext fun k => ?_
  rw [get?_maps, TextMap.get?_insert, get?_maps, write, TextMap.get?_insert]
  by_cases hk : k = name
  · simp [hk]
  · simp [hk]

theorem stored_write (name : String) (c : MapContent) :
    ∃ m : ConfigMap, m.content = c ∧ (t.write name c).maps = t.maps.insert name m :=
  ⟨_, c.content_named name _, t.maps_write name c⟩

theorem maps_erase (name : String) : (t.erase name).maps = t.maps.erase name := by
  refine TextMap.ext fun k => ?_
  rw [get?_maps, TextMap.get?_erase, get?_maps, erase, TextMap.get?_erase]
  by_cases hk : k = name
  · simp [hk]
  · simp [hk]

theorem value_read {name : String} {m : ConfigMap} (h : t.maps.get? name = some m) :
    (t.read name).value ConfigMap.ofJson? = .ok m := by
  rw [read, h]
  rw [get?_maps, Option.map_eq_some_iff] at h
  obtain ⟨e, -, rfl⟩ := h
  exact value_map e.1 name _

theorem read_eq_of_none {name : String} (h : t.maps.get? name = none) :
    t.read name = refusal 404 "NotFound" := by
  rw [read, h]

theorem value_read_write (name : String) (c : MapContent) :
    ∃ m, ((t.write name c).read name).value ConfigMap.ofJson? = .ok m := by
  refine ⟨c.named name (some (toString (t.versions + 1))), value_read _ ?_⟩
  rw [maps_write, TextMap.get?_insert, if_pos rfl]

theorem contains_kept (name : String) : t.kept.contains name = (t.maps.get? name).isSome := by
  rw [get?_maps, Option.isSome_map, TextMap.contains]

theorem after?_path (name : String) :
    Text.after? (collection ++ "/") (collection ++ "/" ++ name) = some name :=
  Text.after?_eq_some_iff.2 rfl

theorem after?_collection : Text.after? (collection ++ "/") collection = none := by
  cases h : Text.after? (collection ++ "/") collection with
  | none => rfl
  | some rest =>
    have hlength := congrArg String.length (Text.after?_eq_some_iff.1 h)
    have hone : "/".length = 1 := rfl
    rw [String.length_append, String.length_append, hone] at hlength
    omega

theorem serve_get (name : String) :
    t.serve collection (getMap collection name) = (t.read name, t) := by
  rw [serve, getMap]
  simp only [after?_path]

theorem serve_post {j : Json} {m : ConfigMap} (hj : ConfigMap.ofJson? j = some m) :
    t.serve collection (postMap collection j) = t.create m := by
  rw [serve, postMap]
  simp only [after?_collection, Option.bind_some, hj]

theorem serve_put {j : Json} {m : ConfigMap} (hj : ConfigMap.ofJson? j = some m) (name : String) :
    t.serve collection (putMap collection name j) = t.replace name m := by
  rw [serve, putMap]
  simp only [after?_path, Option.bind_some, hj]

theorem serve_delete (name : String) :
    t.serve collection (deleteMap collection name) = t.delete name := by
  rw [serve, deleteMap]
  simp only [after?_path]

theorem serve_list (selector : String) :
    t.serve collection (listMaps collection selector) = (t.list selector, t) := by
  rw [serve, listMaps]
  simp only [after?_collection]

end Requests

section Laws

theorem equals_not_mem {key : String} (h : ∀ c ∈ key.toList, isLabelChar c = true) :
    '=' ∉ key.toList :=
  fun hc => absurd (h '=' hc) (by decide)

/-- A selector is taken apart as it was put together. -/
theorem list_eq (t : MapTable) {key : String} (hkey : ∀ c ∈ key.toList, isLabelChar c = true)
    (value : String) : t.list (key ++ "=" ++ value) =
      document (.object [("kind", .string "ConfigMapList"), ("metadata", .object []),
        ("items", .array ((t.maps.values.filter (·.hasLabel key value)).map
          ConfigMap.toJson))]) := by
  have htext : (key ++ "=" ++ value).toList = key.toList ++ '=' :: value.toList := by
    simp [String.toList_append]
  have hequals := equals_not_mem hkey
  rw [list, htext, Text.takeWhile_append_cons_of_not_mem hequals,
    Text.dropWhile_append_cons_of_not_mem hequals]
  simp only [List.drop_one, List.tail_cons, String.ofList_toList]

variable (collection : String)

/-- A table serves requests as a server does that keeps ConfigMaps by name. -/
theorem mapServer : MapServer (fun q t => serve collection q t) maps collection where
  get t name := by
    rw [LeavesMaps, serve_get]
    cases h : t.maps.get? name with
    | some m => exact ⟨rfl, t.value_read h⟩
    | none => exact ⟨rfl, t.read_eq_of_none h ▸ misses_refusal⟩
  post t j m name hj hname := by
    rw [LeavesMaps, StoresMap, serve_post _ _ hj, create, hname]
    dsimp only
    rw [contains_kept]
    cases t.maps.get? name with
    | some old => exact ⟨refuses_refusal (by decide) _, rfl⟩
    | none => exact ⟨t.value_read_write name _, t.stored_write name _⟩
  put t j m name hj hname := by
    rw [LeavesMaps, StoresMap, serve_put _ _ hj, replace]
    cases t.maps.get? name with
    | some old =>
      dsimp only
      split
      · exact ⟨t.value_read_write name _, t.stored_write name _⟩
      · exact ⟨refuses_refusal (by decide) _, rfl⟩
    | none => exact ⟨misses_refusal, rfl⟩
  delete t name := by
    rw [LeavesMaps, serve_delete, delete, contains_kept]
    cases t.maps.get? name with
    | some old => exact ⟨⟨(), value_success⟩, t.maps_erase name⟩
    | none => exact ⟨misses_refusal, rfl⟩
  list t key value hkey hvalue := by
    rw [LeavesMaps, serve_list, t.list_eq hkey]
    refine ⟨rfl, _, value_list fun m hm => ?_, .refl _⟩
    obtain ⟨name, hm⟩ := TextMap.mem_values.1 (List.mem_of_mem_filter hm)
    rw [get?_maps, Option.map_eq_some_iff] at hm
    obtain ⟨e, -, rfl⟩ := hm
    exact ⟨e.1, name, _, rfl⟩

end Laws

end MapTable

end TopicSync
