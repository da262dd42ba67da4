import TopicSync.Proofs.Store.MapNames
import TopicSync.Proofs.Store.MapRecords

/-!
What the store's calls come to on a server that keeps ConfigMaps by name. With a namespace and a
prefix that may be part of names, all requests about single ConfigMaps can be made; the list cannot
if its selector is too long. Each call that can be made is answered from the map of snapshots that
the ConfigMaps keep, and carried out on it.
-/
namespace TopicSync

namespace Api

variable {σ : Type} {answer : Request → σ → Reply × σ}

/-- A request whose target is written like this is made as it is. -/
theorem run_send_of_target {q : Request} {parameters : Option (List (String × String))}
    (h : Target.ofText? (Target.text q.path parameters) = some ⟨q.path, q.query⟩) (w : σ) :
    (send q.method q.path parameters q.body).run answer w = answer q w := by
  rw [send, h]
  rfl

theorem run_send_of_none {path : String} {parameters : Option (List (String × String))}
    (h : Target.ofText? (Target.text path parameters) = none) (method : Method)
    (body : Option Json) (w : σ) :
    (send method path parameters body).run answer w = (.dropped, w) := by
  rw [send, h]
  rfl

theorem run_sendAbout_of_target {name : String} (hname : name ≠ "") {q : Request}
    {parameters : Option (List (String × String))}
    (h : Target.ofText? (Target.text q.path parameters) = some ⟨q.path, q.query⟩) (w : σ) :
    (sendAbout name q.method q.path parameters q.body).run answer w = answer q w := by
  have hnamed : ¬ name.isEmpty = true := fun hempty => hname (String.isEmpty_iff.1 hempty)
  rw [sendAbout, if_neg hnamed]
  exact run_send_of_target h w

end Api

namespace ConfigMapStore

/-- The namespace and the prefix of a store may be part of names. -/
structure WellNamed (s : ConfigMapStore) : Prop where
  chars : OfObjectChars s.namespace
  short : s.namespace.utf8ByteSize ≤ maxObjectNameLength
  chosen : Settings.isStorePrefix s.storePrefix = true

def listParameters (s : ConfigMapStore) : List (String × String) :=
  [("labelSelector", storeLabel ++ "=" ++ s.storePrefix)]

/-- The target of the list is short enough to be asked for. -/
def CanList (s : ConfigMapStore) : Prop :=
  (Api.Target.text s.collection (some s.listParameters)).utf8ByteSize ≤ Api.Target.maxLength

section Targets

variable {s : ConfigMapStore}

theorem WellNamed.ofPathChars_collection (h : s.WellNamed) : Api.Target.OfPathChars s.collection :=
  .append (.append (by decide +kernel) h.chars.ofPathChars) (by decide +kernel)

theorem WellNamed.ofPathChars_path (h : s.WellNamed) (n : TopicName) :
    Api.Target.OfPathChars (s.path n) := by
  have hname := ofObjectChars_mapName (Settings.ofObjectChars_of_isStorePrefix h.chosen) n
  exact .append (.append h.ofPathChars_collection (by decide)) hname.ofPathChars

theorem utf8ByteSize_collection (s : ConfigMapStore) :
    s.collection.utf8ByteSize = s.namespace.utf8ByteSize + 30 := by
  have hfirst : "/api/v1/namespaces/".utf8ByteSize = 19 := by decide
  have hlast : "/configmaps".utf8ByteSize = 11 := by decide
  -- Not by rewriting, which would have the sizes of these texts computed.
  have houter : s.collection.utf8ByteSize =
      ("/api/v1/namespaces/" ++ s.namespace).utf8ByteSize + "/configmaps".utf8ByteSize :=
    String.utf8ByteSize_append
  have hinner : ("/api/v1/namespaces/" ++ s.namespace).utf8ByteSize =
      "/api/v1/namespaces/".utf8ByteSize + s.namespace.utf8ByteSize :=
    String.utf8ByteSize_append
  omega

theorem utf8ByteSize_path_le (h : s.WellNamed) (n : TopicName) :
    (s.path n).utf8ByteSize ≤ 537 := by
  have hnamespace := h.short
  have hname := utf8ByteSize_mapName_le (Settings.ofObjectChars_of_isStorePrefix h.chosen) n
  have hslash : "/".utf8ByteSize = 1 := by decide
  have hlimit : maxObjectNameLength = 253 := rfl
  simp only [path, String.utf8ByteSize_append, utf8ByteSize_collection, hslash]
  omega

theorem target_path (h : s.WellNamed) (n : TopicName) :
    Api.Target.ofText? (Api.Target.text (s.path n) none) = some ⟨s.path n, []⟩ := by
  refine Api.Target.ofText?_text (h.ofPathChars_path n) ?_
  exact (utf8ByteSize_path_le h n).trans (by decide)

theorem target_path_query (h : s.WellNamed) (n : TopicName) :
    Api.Target.ofText? (Api.Target.text (s.path n) (some [])) = some ⟨s.path n, []⟩ := by
  have hpath := utf8ByteSize_path_le h n
  refine Api.Target.ofText?_text (h.ofPathChars_path n) ?_
  rw [Api.Target.utf8ByteSize_text_nil, Api.Target.maxLength]
  omega

theorem target_collection (h : s.WellNamed) :
    Api.Target.ofText? (Api.Target.text s.collection (some [])) = some ⟨s.collection, []⟩ := by
  have hnamespace := h.short
  have hlimit : maxObjectNameLength = 253 := rfl
  refine Api.Target.ofText?_text h.ofPathChars_collection ?_
  rw [Api.Target.utf8ByteSize_text_nil, utf8ByteSize_collection, Api.Target.maxLength]
  omega

theorem target_list (h : s.WellNamed) (hlist : s.CanList) :
    Api.Target.ofText? (Api.Target.text s.collection (some s.listParameters)) =
      some ⟨s.collection, s.listParameters⟩ :=
  Api.Target.ofText?_text h.ofPathChars_collection hlist

/-- The list can be asked for unless namespace and prefix are long together. -/
theorem canList_iff (h : s.WellNamed) :
    s.CanList ↔ s.namespace.utf8ByteSize + s.storePrefix.utf8ByteSize ≤ 65454 := by
  have hpair : Text.Form.pair ("labelSelector", storeLabel ++ "=" ++ s.storePrefix) =
      Text.Form.pair ("labelSelector", storeLabel ++ "=") ++ s.storePrefix.toList := by
    have hplain := (Settings.ofObjectChars_of_isStorePrefix h.chosen).isPlain
    rw [← Text.Form.encode_of_isPlain hplain]
    simp [Text.Form.pair, Text.Form.encode, String.toList_append]
  have hquery : String.ofList ('?' :: s.listParameters.flatMap Text.Form.pair) =
      String.ofList ('?' :: Text.Form.pair ("labelSelector", storeLabel ++ "=")) ++
        s.storePrefix := by
    rw [listParameters, List.flatMap_singleton, hpair, ← List.cons_append, String.ofList_append,
      String.ofList_toList]
  have hfixed : (String.ofList ('?' :: Text.Form.pair
      ("labelSelector", storeLabel ++ "="))).utf8ByteSize = 50 := by decide +kernel
  have hcollection := s.utf8ByteSize_collection
  rw [CanList, Api.Target.text, hquery, String.utf8ByteSize_append, String.utf8ByteSize_append,
    hfixed, Api.Target.maxLength]
  omega

/-- A prefix that is a DNS label does not keep the list from being asked for. -/
theorem canList_of_label (h : s.WellNamed) (hlabel : s.storePrefix.utf8ByteSize ≤ 63) :
    s.CanList := by
  have hnamespace := h.short
  have hlimit : maxObjectNameLength = 253 := rfl
  rw [canList_iff h]
  omega

end Targets

section Calls

variable {σ : Type} {answer : Request → σ → Reply × σ} {maps : σ → TextMap ConfigMap}
  {s : ConfigMapStore} {used : List TopicName} {b : Bindings} {w : σ}

/-- Carry out a call on the ConfigMaps of a server. -/
def serve (s : ConfigMapStore) (answer : Request → σ → Reply × σ) (c : StoreCall) (w : σ) :
    c.Answer × σ :=
  (s.perform c).run answer w

/-- A call is answered from the map that the ConfigMaps keep, and carried out on both. -/
structure Serves (answer : Request → σ → Reply × σ) (maps : σ → TextMap ConfigMap)
    (s : ConfigMapStore) (used : List TopicName) (b : Bindings) (w : σ) (c : StoreCall) : Prop where
  yields : b.Yields c (s.serve answer c w).1
  keeps : Keeps s used (b.after c) (maps (s.serve answer c w).2)

theorem Serves.of_run {c : StoreCall} {r : c.Answer} {w' : σ}
    (hrun : s.serve answer c w = (r, w')) (hyields : b.Yields c r)
    (hkeeps : Keeps s used (b.after c) (maps w')) : Serves answer maps s used b w c :=
  ⟨by rwa [hrun], by rwa [hrun]⟩

/-- Without a target short enough nothing is asked, and the store takes this for a failure. -/
theorem serve_list_of_long (hlist : ¬ s.CanList) (answer : Request → σ → Reply × σ) (w : σ) :
    s.serve answer .list w = (.error .unreachable, w) := by
  have htarget : Api.Target.ofText? (Api.Target.text s.collection (some s.listParameters)) = none :=
    Api.Target.ofText?_eq_none (Nat.not_le.1 hlist)
  have hrun : s.list.run answer w = (.error .unreachable, w) := by
    refine (Program.bind_run (I := httpInterface) answer _ _ w).trans ?_
    rw [← listParameters, Api.run_send_of_none htarget]
    rfl
  exact hrun

section Served

variable (hs : s.WellNamed) (hserver : MapServer answer maps s.collection)

include hs hserver

/-- A look-up finds the ConfigMap that the server has. -/
theorem run_fetch (n : TopicName) (w : σ) :
    (s.fetch n).run answer w = (.ok ((maps w).get? (mapName s.storePrefix n)),
      (answer (getMap s.collection (mapName s.storePrefix n)) w).2) := by
  have hsend : (Api.sendAbout (mapName s.storePrefix n) .get (s.path n) none none).run answer w =
      answer (getMap s.collection (mapName s.storePrefix n)) w :=
    Api.run_sendAbout_of_target (q := getMap s.collection (mapName s.storePrefix n))
      (mapName_ne_empty _ n) (target_path hs n) w
  have hfound : (answer (getMap s.collection (mapName s.storePrefix n)) w).1.valueIfFound
      ConfigMap.ofJson? = .ok ((maps w).get? (mapName s.storePrefix n)) := by
    have hreply := (hserver.get w (mapName s.storePrefix n)).2
    cases hm : (maps w).get? (mapName s.storePrefix n) with
    | some m =>
      rw [hm] at hreply
      exact Reply.valueIfFound_of_value hreply
    | none =>
      rw [hm] at hreply
      exact hreply.valueIfFound _
  rw [fetch, Program.bind_run, hsend]
  simp only [hfound]
  rfl

variable (h : Keeps s used b (maps w))

include h

theorem serves_read {n : TopicName} (hn : n ∈ used) :
    Serves answer maps s used b w (.read n) := by
  have hleaves : maps (answer (getMap s.collection (mapName s.storePrefix n)) w).2 = maps w :=
    (hserver.get w _).1
  have hrun : (s.read n).run answer w =
      (.ok (b.get? n), (answer (getMap s.collection (mapName s.storePrefix n)) w).2) := by
    rw [read, Program.bind_run, run_fetch hs hserver]
    cases hm : (maps w).get? (mapName s.storePrefix n) with
    | some m =>
      obtain ⟨t, ht, hcontent⟩ := h.exists_of_get? hn hm
      have hrecord := recordIn_of_content hcontent
      rw [b.name_eq ht] at hrecord
      simp only [hrecord, ht]
      rfl
    | none =>
      have hrecord := h.records n hn
      rw [hm, Option.map_none, eq_comm, Option.map_eq_none_iff] at hrecord
      rw [hrecord]
      rfl
  exact .of_run hrun rfl (hleaves.symm ▸ h)

theorem serves_list (hlist : s.CanList) : Serves answer maps s used b w .list := by
  have hsend : (Api.send .get s.collection (some s.listParameters) none).run answer w =
      answer (listMaps s.collection (storeLabel ++ "=" ++ s.storePrefix)) w :=
    Api.run_send_of_target (q := listMaps s.collection (storeLabel ++ "=" ++ s.storePrefix))
      (target_list hs hlist) w
  have hkey : ∀ c ∈ storeLabel.toList, isLabelChar c = true :=
    List.all_eq_true.1 (by decide +kernel)
  have hvalue : ∀ c ∈ s.storePrefix.toList, isLabelChar c = true := fun c hc =>
    of_isObjectChar (P := fun c => isLabelChar c = true) (fun c hc => by simp [isLabelChar, hc])
      (by decide) (by decide) (Settings.ofObjectChars_of_isStorePrefix hs.chosen c hc)
  obtain ⟨hleaves, l, hreply, hitems⟩ := hserver.list w storeLabel s.storePrefix hkey hvalue
  have hrun : s.list.run answer w = (.ok (l.items.filterMap topicOf?),
      (answer (listMaps s.collection (storeLabel ++ "=" ++ s.storePrefix)) w).2) := by
    refine (Program.bind_run (I := httpInterface) answer _ _ w).trans ?_
    rw [← listParameters, hsend]
    simp only [hreply]
    rfl
  exact .of_run hrun (h.yields_list hitems) (hleaves.symm ▸ h)

variable (hdistinct : Distinct s.storePrefix used)

include hdistinct

theorem serves_create {t : Topic} (ht : t.name ∈ used) :
    Serves answer maps s used b w (.create t) := by
  have hsend : (Api.send .post s.collection (some [])
      (some (mapOf s.storePrefix t).toJson)).run answer w =
      answer (postMap s.collection (mapOf s.storePrefix t).toJson) w :=
    Api.run_send_of_target (q := postMap s.collection (mapOf s.storePrefix t).toJson)
      (target_collection hs) w
  have hpost := hserver.post w (mapOf s.storePrefix t).toJson (mapOf s.storePrefix t)
    (mapName s.storePrefix t.name) ((contentOf s.storePrefix t).ofJson?_named _ none) rfl
  cases hm : (maps w).get? (mapName s.storePrefix t.name) with
  | some old =>
    have hbound := h.bound_of_get? ht hm
    rw [hm] at hpost
    obtain ⟨hrefuses, hleaves⟩ := hpost
    obtain ⟨e, hvalue, hcode⟩ := hrefuses.value ConfigMap.ofJson?
    have hrun : (s.create t).run answer w = (.error (.alreadyExists t.name.text),
        (answer (postMap s.collection (mapOf s.storePrefix t).toJson) w).2) := by
      rw [create, Program.bind_run, hsend]
      simp only [hvalue, if_pos hcode]
      rfl
    refine .of_run hrun (if_pos hbound).symm ?_
    rw [Bindings.after, if_pos hbound, hleaves]
    exact h
  | none =>
    have hfree := h.not_bound_of_get? ht hm
    rw [hm] at hpost
    obtain ⟨⟨m, hvalue⟩, stored, hcontent, hstored⟩ := hpost
    have hrun : (s.create t).run answer w = (.ok (),
        (answer (postMap s.collection (mapOf s.storePrefix t).toJson) w).2) := by
      rw [create, Program.bind_run, hsend]
      simp only [hvalue]
      rfl
    refine .of_run hrun (if_neg hfree).symm ?_
    rw [Bindings.after, if_neg hfree, hstored]
    exact h.insert hdistinct ht hcontent

theorem serves_update {t : Topic} (ht : t.name ∈ used) :
    Serves answer maps s used b w (.update t) := by
  have hleaves : maps (answer (getMap s.collection (mapName s.storePrefix t.name)) w).2 = maps w :=
    (hserver.get w _).1
  cases hm : (maps w).get? (mapName s.storePrefix t.name) with
  | some old =>
    have hbound := h.bound_of_get? ht hm
    let v := (answer (getMap s.collection (mapName s.storePrefix t.name)) w).2
    let m := (contentOf s.storePrefix t).named (mapName s.storePrefix t.name)
      old.metadata.resourceVersion
    have hsend : (Api.sendAbout (mapName s.storePrefix t.name) .put (s.path t.name) (some [])
        (some m.toJson)).run answer v =
        answer (putMap s.collection (mapName s.storePrefix t.name) m.toJson) v :=
      Api.run_sendAbout_of_target
        (q := putMap s.collection (mapName s.storePrefix t.name) m.toJson)
        (mapName_ne_empty _ t.name) (target_path_query hs t.name) v
    have hput := hserver.put v m.toJson m (mapName s.storePrefix t.name)
      ((contentOf s.storePrefix t).ofJson?_named _ _) rfl
    have hversion : m.metadata.resourceVersion = none ∨
        m.metadata.resourceVersion = old.metadata.resourceVersion := .inr rfl
    -- Nobody has replaced it since it was read.
    rw [hleaves, hm] at hput
    dsimp only at hput
    rw [if_pos hversion] at hput
    obtain ⟨⟨m', hvalue⟩, stored, hcontent, hstored⟩ := hput
    have hrun : (s.update t).run answer w = (.ok (),
        (answer (putMap s.collection (mapName s.storePrefix t.name) m.toJson) v).2) := by
      rw [update, Program.bind_run, run_fetch hs hserver, hm]
      refine (Program.bind_run (I := httpInterface) answer (Api.sendAbout
        (mapName s.storePrefix t.name) .put (s.path t.name) (some []) (some m.toJson)) _ v).trans ?_
      rw [hsend]
      simp only [hvalue]
      rfl
    refine .of_run hrun (if_pos hbound).symm ?_
    rw [Bindings.after, if_pos hbound, hstored, hleaves]
    exact h.insert hdistinct ht hcontent
  | none =>
    have hfree := h.not_bound_of_get? ht hm
    have hrun : (s.update t).run answer w = (.error (.notFound t.name.text),
        (answer (getMap s.collection (mapName s.storePrefix t.name)) w).2) := by
      rw [update, Program.bind_run, run_fetch hs hserver, hm]
      rfl
    refine .of_run hrun (if_neg hfree).symm ?_
    rw [Bindings.after, if_neg hfree, hleaves]
    exact h

theorem serves_delete {n : TopicName} (hn : n ∈ used) :
    Serves answer maps s used b w (.delete n) := by
  have hsend : (Api.sendAbout (mapName s.storePrefix n) .delete (s.path n) (some [])
      (some (.object []))).run answer w =
      answer (deleteMap s.collection (mapName s.storePrefix n)) w :=
    Api.run_sendAbout_of_target (q := deleteMap s.collection (mapName s.storePrefix n))
      (mapName_ne_empty _ n) (target_path_query hs n) w
  have hdelete := hserver.delete w (mapName s.storePrefix n)
  cases hm : (maps w).get? (mapName s.storePrefix n) with
  | some old =>
    have hbound := h.bound_of_get? hn hm
    rw [hm] at hdelete
    obtain ⟨⟨u, hvalue⟩, herased⟩ := hdelete
    have hrun : (s.delete n).run answer w = (.ok (),
        (answer (deleteMap s.collection (mapName s.storePrefix n)) w).2) := by
      rw [delete, Program.bind_run, hsend]
      simp only [hvalue]
      rfl
    refine .of_run hrun (if_pos hbound).symm ?_
    rw [Bindings.after, if_pos hbound, herased]
    exact h.erase hdistinct hn
  | none =>
    have hfree := h.not_bound_of_get? hn hm
    rw [hm] at hdelete
    obtain ⟨hmisses, hleaves⟩ := hdelete
    obtain ⟨e, hvalue, hcode⟩ := hmisses.refuses.value (Api.deletion? ConfigMap.ofJson?)
    have hrun : (s.delete n).run answer w = (.error (.notFound n.text),
        (answer (deleteMap s.collection (mapName s.storePrefix n)) w).2) := by
      rw [delete, Program.bind_run, hsend]
      simp only [hvalue, if_pos hcode]
      rfl
    refine .of_run hrun (if_neg hfree).symm ?_
    rw [Bindings.after, if_neg hfree, hleaves]
    exact h

/-- Every call that can be made serves the map, and one that cannot leaves it as it is. -/
theorem keeps_perform (c : StoreCall) (hc : ∀ n ∈ c.topics, n ∈ used) :
    ((c = .list → s.CanList) → b.Yields c (s.serve answer c w).1) ∧
      Keeps s used (b.after c) (maps (s.serve answer c w).2) := by
  cases c with
  | read n =>
    have hserves := serves_read hs hserver h (hc n (.head _))
    exact ⟨fun _ => hserves.yields, hserves.keeps⟩
  | create t =>
    have hserves := serves_create hs hserver h hdistinct (hc t.name (.head _))
    exact ⟨fun _ => hserves.yields, hserves.keeps⟩
  | update t =>
    have hserves := serves_update hs hserver h hdistinct (hc t.name (.head _))
    exact ⟨fun _ => hserves.yields, hserves.keeps⟩
  | delete n =>
    have hserves := serves_delete hs hserver h hdistinct (hc n (.head _))
    exact ⟨fun _ => hserves.yields, hserves.keeps⟩
  | list =>
    by_cases hlist : s.CanList
    · have hserves := serves_list hs hserver h hlist
      exact ⟨fun _ => hserves.yields, hserves.keeps⟩
    · refine ⟨fun hcan => absurd (hcan rfl) hlist, ?_⟩
      rw [serve_list_of_long hlist]
      exact h

end Served

/-- Carry out calls in turn. -/
def serveAll (s : ConfigMapStore) (answer : Request → σ → Reply × σ) (calls : List StoreCall)
    (w : σ) : σ :=
  calls.foldl (fun w c => (s.serve answer c w).2) w

theorem keeps_serveAll (hs : s.WellNamed) (hserver : MapServer answer maps s.collection)
    (h : Keeps s used b (maps w)) (hdistinct : Distinct s.storePrefix used)
    (calls : List StoreCall) (hcalls : ∀ c ∈ calls, ∀ n ∈ c.topics, n ∈ used) :
    Keeps s used (calls.foldl Bindings.after b) (maps (s.serveAll answer calls w)) := by
  induction calls generalizing b w with
  | nil => exact h
  | cons c calls ih =>
    obtain ⟨hfirst, hrest⟩ := List.forall_mem_cons.1 hcalls
    exact ih (keeps_perform hs hserver h hdistinct c hfirst).2 hrest

end Calls

end ConfigMapStore

end TopicSync
