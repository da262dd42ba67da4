import TopicSync.Proofs.Store.MapRequests

/-!
The two stores are interchangeable, except that one of them cannot list the topics of a store whose
prefix is too long to be asked for. Both serve the same map of snapshots: one in a tree of nodes of
its own, the other on a server that keeps ConfigMaps by name.
-/
namespace TopicSync

namespace StoreCall

/-- Two stores answer a call alike: with the same names in any order if these are listed, with the
same snapshot, the same failure or the same success otherwise. -/
def Alike : (c : StoreCall) → c.Answer → c.Answer → Prop
  | .read _, a, b => a = b
  | .create _, a, b => a = b
  | .update _, a, b => a = b
  | .delete _, a, b => a = b
  | .list, a, b => ∃ xs ys : List TopicName, a = .ok xs ∧ b = .ok ys ∧ xs.Perm ys

end StoreCall

theorem Bindings.Lists.nodup {m : Bindings} {names : List TopicName} (h : m.Lists names) :
    names.Nodup :=
  h.ordered.imp fun {a b} hlt (heq : a = b) => List.lt_irrefl b.bytes (heq ▸ hlt)

/-- What is yielded on the same map is alike. -/
theorem alike_of_yields {m : Bindings} {c : StoreCall} {a r : c.Answer} (ha : m.Yields c a)
    (hr : m.Answers c r) : c.Alike a r := by
  cases c with
  | list =>
    obtain ⟨xs, rfl, hnodup, hmem⟩ := ha
    obtain ⟨ys, rfl, hlists⟩ := hr
    refine ⟨xs, ys, rfl, rfl, (List.perm_ext_iff_of_nodup hnodup hlists.nodup).2 fun n => ?_⟩
    exact (hmem n).trans (hlists.mem_iff n).symm
  | _ => exact Eq.trans ha (Eq.symm hr)

/-- A prefix without slashes leads to a root. -/
theorem usablePrefix_of_isStorePrefix {chosen : String}
    (h : Settings.isStorePrefix chosen = true) : HierarchicalStore.UsablePrefix chosen := by
  rw [Settings.isStorePrefix, Bool.and_eq_true, List.all_eq_true, Bool.not_eq_true'] at h
  obtain ⟨hempty, hchars⟩ := h
  have hslash : ∀ c ∈ chosen.toList, ¬ decide (c = '/') = true := by
    intro c hc heq
    have hchar := hchars c hc
    rw [of_decide_eq_true heq] at hchar
    exact absurd hchar (by decide)
  have hmem : '/' ∉ chosen.toList := fun hc => hslash '/' hc (by decide)
  have hne : chosen.toList ≠ [] := by
    intro hnil
    rw [String.toList_eq_nil_iff.1 hnil] at hempty
    cases hempty
  have hsplit : Text.splitOn '/' chosen.toList = [chosen.toList] := by
    have hone : Text.splitOn '/' (chosen.toList ++ []) = [chosen.toList ++ []] :=
      Text.splitOn_append_of_not_mem hmem rfl
    rwa [List.append_nil] at hone
  rw [HierarchicalStore.UsablePrefix, Text.strip_eq_self hslash, hsplit, List.mem_singleton]
  exact ⟨hne, Ne.symm hne⟩

/-- The store of ConfigMaps that the settings ask for. -/
def Settings.configMapStore (s : Settings) : ConfigMapStore := ⟨s.namespace, s.storePrefix⟩

/-- A fresh store lists nothing. -/
theorem HierarchicalStore.serve_list_fresh {chosen : String} (h : UsablePrefix chosen) :
    (serve .list (create chosen, .empty)).1 = .ok [] := by
  obtain ⟨names, hnames, hlists⟩ := (serve_represents (represents_fresh h) .list).1
  have hnone : names = [] := List.eq_nil_iff_forall_not_mem.2 fun n hn =>
    Bool.false_ne_true ((hlists.mem_iff n).1 hn)
  exact hnames.trans (congrArg Except.ok hnone)

namespace ConfigMapStore

/-- None of the ConfigMaps is that of a topic in use, and none has the label of the store. -/
structure Fresh (s : ConfigMapStore) (used : List TopicName) (ms : TextMap ConfigMap) : Prop where
  free : ∀ n ∈ used, ms.get? (mapName s.storePrefix n) = none
  unlabelled : ∀ k m, ms.get? k = some m → m.hasLabel storeLabel s.storePrefix = false

theorem Fresh.keeps {s : ConfigMapStore} {used : List TopicName} {ms : TextMap ConfigMap}
    (h : s.Fresh used ms) : Keeps s used .empty ms := by
  refine ⟨fun n hn => ?_, ?_, fun k m hk hlabel => ?_⟩
  · rw [h.free n hn]
    rfl
  · rintro n ⟨⟩
  · exact absurd hlabel (by rw [h.unlabelled k m hk]; exact Bool.false_ne_true)

section Stores

variable {σ : Type} {answer : Request → σ → Reply × σ} {maps : σ → TextMap ConfigMap}
  {settings : Settings} {w : σ}

/-- Whatever calls have been made, both stores answer the next one alike unless it asks for a list
that cannot be asked for. -/
theorem interchangeable (hvalid : settings.validate = .ok ())
    (hchars : OfObjectChars settings.namespace)
    (hshort : settings.namespace.utf8ByteSize ≤ maxObjectNameLength)
    (hserver : MapServer answer maps settings.configMapStore.collection)
    (calls : List StoreCall) (c : StoreCall)
    (hdistinct : Distinct settings.storePrefix ((c :: calls).flatMap StoreCall.topics))
    (hfresh : settings.configMapStore.Fresh ((c :: calls).flatMap StoreCall.topics) (maps w)) :
    c.Alike
        (settings.configMapStore.serve answer c
          (settings.configMapStore.serveAll answer calls w)).1
        (HierarchicalStore.serve c (HierarchicalStore.serveAll calls
          (.create settings.storePrefix, .empty))).1 ↔
      (c = .list → settings.configMapStore.CanList) := by
  have hchosen := Settings.isStorePrefix_of_validate hvalid
  have hnamed : settings.configMapStore.WellNamed := ⟨hchars, hshort, hchosen⟩
  have hcalls : ∀ d ∈ c :: calls, ∀ n ∈ d.topics, n ∈ (c :: calls).flatMap StoreCall.topics :=
    fun d hd n hn => List.mem_flatMap.2 ⟨d, hd, hn⟩
  obtain ⟨hfirst, hrest⟩ := List.forall_mem_cons.1 hcalls
  have hkeeps := keeps_serveAll hnamed hserver hfresh.keeps hdistinct calls hrest
  have hyields := (keeps_perform hnamed hserver hkeeps hdistinct c hfirst).1
  have hanswers := (HierarchicalStore.serve_represents (HierarchicalStore.serveAll_represents
    (HierarchicalStore.represents_fresh (usablePrefix_of_isStorePrefix hchosen)) calls) c).1
  constructor
  · rintro halike rfl
    refine Classical.byContradiction fun hlist => ?_
    obtain ⟨xs, ys, hxs, -, -⟩ := halike
    rw [serve_list_of_long hlist] at hxs
    cases hxs
  · exact fun hcan => alike_of_yields (hyields hcan) hanswers

end Stores

/-- A server that has no ConfigMaps yet. -/
theorem fresh_empty (s : ConfigMapStore) (used : List TopicName) :
    s.Fresh used MapTable.empty.maps :=
  ⟨fun _ _ => rfl, by rintro k m ⟨⟩⟩

/-- The server of the namespace of a store, with its ConfigMaps in a table. -/
def served (s : ConfigMapStore) (q : Request) (t : MapTable) : Reply × MapTable :=
  MapTable.serve s.collection q t

theorem interchangeable_payments :
    Settings.default.validate = .ok () ∧
      MapServer Settings.default.configMapStore.served MapTable.maps
        Settings.default.configMapStore.collection ∧
      StoreCall.list.Alike
        (Settings.default.configMapStore.serve Settings.default.configMapStore.served .list
          (Settings.default.configMapStore.serveAll Settings.default.configMapStore.served
            [.create HierarchicalStore.payments, .update HierarchicalStore.payments,
              .delete ⟨"Orders", by decide⟩] .empty)).1
        (HierarchicalStore.serve .list (HierarchicalStore.serveAll
          [.create HierarchicalStore.payments, .update HierarchicalStore.payments,
            .delete ⟨"Orders", by decide⟩]
          (.create Settings.default.storePrefix, .empty))).1 := by
  have hvalid : Settings.default.validate = .ok () :=
    Settings.validate_eq_ok_iff.2 (by decide +kernel)
  have hnamed : Settings.default.configMapStore.WellNamed :=
    ⟨by decide +kernel, by decide +kernel, Settings.isStorePrefix_of_validate hvalid⟩
  refine ⟨hvalid, MapTable.mapServer _, ?_⟩
  refine (interchangeable hvalid hnamed.chars hnamed.short (MapTable.mapServer _) _ .list ?_
    (fresh_empty _ _)).2 fun _ => canList_of_label hnamed (by decide +kernel)
  decide +kernel

section Long

variable {n : Nat}

theorem isStorePrefix_replicate (h : n ≠ 0) :
    Settings.isStorePrefix (String.ofList (List.replicate n 'a')) = true := by
  have hempty : String.ofList (List.replicate n 'a') ≠ "" := by
    rw [ne_eq, String.ofList_eq_empty_iff, List.replicate_eq_nil_iff]
    exact h
  rw [Settings.isStorePrefix, String.toList_ofList, Bool.and_eq_true, List.all_eq_true]
  refine ⟨by simp [hempty], fun c hc => ?_⟩
  rw [List.eq_of_mem_replicate hc]
  decide

/-- The default settings, but for a prefix of so many letters. -/
def longSettings (n : Nat) : Settings :=
  { Settings.default with storePrefix := String.ofList (List.replicate n 'a') }

theorem validate_longSettings (h : n ≠ 0) : (longSettings n).validate = .ok () := by
  have hdefault : Settings.default.complaint? = none := by decide +kernel
  obtain ⟨hservers, hnamespace, hlabels, hsweep, hpoll, htimeout, hattempts, -⟩ :=
    Settings.complaint?_eq_none_iff.1 hdefault
  exact Settings.validate_eq_ok_iff.2 (Settings.complaint?_eq_none_iff.2
    ⟨hservers, hnamespace, hlabels, hsweep, hpoll, htimeout, hattempts,
      isStorePrefix_replicate h⟩)

theorem not_canList_longSettings (h : 65454 ≤ n) : ¬ (longSettings n).configMapStore.CanList := by
  have hne : n ≠ 0 := by omega
  have hchosen := isStorePrefix_replicate hne
  have hlength : (longSettings n).configMapStore.storePrefix.utf8ByteSize = n := by
    have hchars := Settings.ofObjectChars_of_isStorePrefix hchosen
    exact hchars.utf8ByteSize_eq.trans (by rw [String.toList_ofList, List.length_replicate])
  have hnamespace : (longSettings n).configMapStore.namespace.utf8ByteSize = 7 := by
    change "default".utf8ByteSize = 7
    decide
  have hnamed : (longSettings n).configMapStore.WellNamed :=
    ⟨by change OfObjectChars "default"; decide +kernel, by rw [hnamespace]; decide, hchosen⟩
  rw [canList_iff hnamed, hlength, hnamespace]
  omega

/-- With a prefix that is too long one store fails to list what it holds, where the other lists
nothing. -/
theorem list_of_long_prefix :
    (longSettings 65600).validate = .ok () ∧
      MapServer (longSettings 65600).configMapStore.served MapTable.maps
        (longSettings 65600).configMapStore.collection ∧
      ((longSettings 65600).configMapStore.serve (longSettings 65600).configMapStore.served .list
        .empty).1 = .error .unreachable ∧
      (HierarchicalStore.serve .list (.create (longSettings 65600).storePrefix, .empty)).1 =
        .ok [] := by
  have hvalid : (longSettings 65600).validate = .ok () := validate_longSettings (by decide)
  have hchosen := Settings.isStorePrefix_of_validate hvalid
  have hlong : ¬ (longSettings 65600).configMapStore.CanList := not_canList_longSettings (by decide)
  refine ⟨hvalid, MapTable.mapServer _, ?_, ?_⟩
  · rw [serve_list_of_long hlong]
  · exact HierarchicalStore.serve_list_fresh (usablePrefix_of_isStorePrefix hchosen)

end Long

end ConfigMapStore

end TopicSync
