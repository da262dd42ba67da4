import TopicSync.Proofs.Store.Tree
import TopicSync.Proofs.Topic.Record

/-!
A store as a map from topic names to snapshots. The tree of nodes represents a map if there is a
node for each snapshot, with its record, and no other node but those that lead to the root. Each
call is answered from the map that is represented, and leaves a tree that represents the map after
the call.
-/
namespace TopicSync

/-- Snapshots by topic name, each under its own. -/
structure Bindings where
  get? : TopicName → Option Topic
  name_eq : ∀ {n t}, get? n = some t → t.name = n

namespace TopicName

/-- The bytes of a name in UTF-8. -/
def bytes (n : TopicName) : List UInt8 := n.text.toUTF8.data.toList

end TopicName

namespace Bindings

variable {m : Bindings}

def empty : Bindings := ⟨fun _ => none, by rintro n t ⟨⟩⟩

def bound (m : Bindings) (n : TopicName) : Bool := (m.get? n).isSome

def bind (m : Bindings) (t : Topic) : Bindings where
  get? n := if n = t.name then some t else m.get? n
  name_eq := by
    intro n u h
    split at h
    next hn =>
      cases h
      exact hn.symm
    next => exact m.name_eq h

def free (m : Bindings) (name : TopicName) : Bindings where
  get? n := if n = name then none else m.get? n
  name_eq := by
    intro n u h
    split at h
    next => cases h
    next => exact m.name_eq h

/-- The map after a call: a name is bound by its first creation and by updates until it is deleted;
any other call changes nothing. -/
def after (m : Bindings) : StoreCall → Bindings
  | .read _ | .list => m
  | .create t => if m.bound t.name then m else m.bind t
  | .update t => if m.bound t.name then m.bind t else m
  | .delete name => if m.bound name then m.free name else m

/-- The names that are bound, in the order of their bytes. -/
structure Lists (m : Bindings) (names : List TopicName) : Prop where
  mem_iff : ∀ n, n ∈ names ↔ m.bound n = true
  ordered : names.Pairwise fun a b => a.bytes < b.bytes

/-- What a call yields on the map. -/
def Answers (m : Bindings) : (c : StoreCall) → c.Answer → Prop
  | .read name, r => r = .ok (m.get? name)
  | .create t, r => r = if m.bound t.name then .error (.alreadyExists t.name.text) else .ok ()
  | .update t, r => r = if m.bound t.name then .ok () else .error (.notFound t.name.text)
  | .delete name, r => r = if m.bound name then .ok () else .error (.notFound name.text)
  | .list, r => ∃ names, r = .ok names ∧ m.Lists names

end Bindings

section Order

theorem toNat_lt_of_isNameChar {c : Char} (h : isNameChar c = true) : c.toNat < 128 := by
  delta isNameChar Char.isAlphanum Char.isAlpha Char.isUpper Char.isLower Char.isDigit at h
  simp only [Bool.or_eq_true, Bool.and_eq_true, decide_eq_true_eq] at h
  change c.val.toNat < 128
  rcases h with ((((⟨-, h⟩ | ⟨-, h⟩) | ⟨-, h⟩) | rfl) | rfl) | rfl
  · exact Nat.lt_of_le_of_lt h (by decide)
  · exact Nat.lt_of_le_of_lt h (by decide)
  · exact Nat.lt_of_le_of_lt h (by decide)
  all_goals decide

/-- ASCII texts are in the order of their bytes. -/
theorem flatMap_utf8EncodeChar_lt {as bs : List Char} (ha : ∀ c ∈ as, c.toNat < 128)
    (hb : ∀ c ∈ bs, c.toNat < 128) (h : as < bs) :
    as.flatMap String.utf8EncodeChar < bs.flatMap String.utf8EncodeChar := by
  have hbyte : ∀ c : Char, c.toNat < 128 → String.utf8EncodeChar c = [c.val.toUInt8] := by
    intro c hc
    refine String.utf8EncodeChar_eq_singleton (Char.utf8Size_eq_one_iff.2 ?_)
    rw [UInt32.le_iff_toNat_le]
    exact Nat.le_of_lt_succ hc
  induction as generalizing bs with
  | nil =>
    cases bs with
    | nil => exact absurd h (List.lt_irrefl _)
    | cons b bs =>
      rw [List.flatMap_cons, hbyte b (hb b (.head _))]
      exact List.nil_lt_cons _ _
  | cons a as ih =>
    cases bs with
    | nil => exact absurd h (List.not_lt_nil _)
    | cons b bs =>
      have ha' := ha a (.head _)
      have hb' := hb b (.head _)
      rw [List.flatMap_cons, List.flatMap_cons, hbyte a ha', hbyte b hb', List.singleton_append,
        List.singleton_append, List.cons_lt_cons_iff]
      rcases List.cons_lt_cons_iff.1 h with hlt | ⟨rfl, hlt⟩
      · have hnat : a.toNat < b.toNat := hlt
        refine .inl ?_
        rw [UInt8.lt_iff_toNat_lt, UInt32.toNat_toUInt8, UInt32.toNat_toUInt8]
        change a.toNat % 256 < b.toNat % 256
        omega
      · exact .inr ⟨rfl, ih (fun c hc => ha c (.tail _ hc)) (fun c hc => hb c (.tail _ hc)) hlt⟩

theorem TopicName.bytes_eq (n : TopicName) :
    n.bytes = n.text.toList.flatMap String.utf8EncodeChar := by
  rw [bytes, String.toUTF8_eq_toByteArray, ← String.utf8Encode_toList]
  exact List.toList_data_toByteArray

theorem TopicName.bytes_lt {a b : TopicName} (h : a.text < b.text) : a.bytes < b.bytes := by
  rw [bytes_eq, bytes_eq]
  exact flatMap_utf8EncodeChar_lt (fun c hc => toNat_lt_of_isNameChar (a.isNameChar_of_mem hc))
    (fun c hc => toNat_lt_of_isNameChar (b.isNameChar_of_mem hc)) h

theorem text_lt_of_path_lt {s : HierarchicalStore} {a b : TopicName} (h : s.path a < s.path b) :
    a.text < b.text := by
  refine Decidable.byContradiction fun hnot => ?_
  by_cases hab : a = b
  · exact String.lt_irrefl _ (hab ▸ h)
  · have hlt : b.text < a.text :=
      TextMap.lt_of_not_lt_of_ne hnot fun he => hab (TopicName.ext he)
    have hpath : (s.path b).toList < (s.path a).toList := by
      rw [HierarchicalStore.path, HierarchicalStore.path, String.toList_append,
        String.toList_append (t := a.text)]
      exact List.append_left_lt hlt
    exact String.lt_irrefl _ (String.lt_trans h hpath)

end Order

namespace HierarchicalStore

/-- The nodes of a tree are the way to the root of a store, if that is ready, and the records of
a map. -/
structure Represents (m : Bindings) (s : HierarchicalStore) (tree : NodeTree) : Prop where
  leads : s.root ∈ rootPaths s.root
  way : s.rootReady = true → ∀ p ∈ rootPaths s.root, tree.nodes.contains p = true
  records : ∀ n, (tree.nodes.get? (s.path n)).map Node.data = (m.get? n).map Record.encode
  only : ∀ q, tree.nodes.contains q = true → q ∈ rootPaths s.root ∨ ∃ n, q = s.path n

variable {m : Bindings} {s : HierarchicalStore} {tree : NodeTree}

namespace Represents

theorem contains_path (h : Represents m s tree) (n : TopicName) :
    tree.nodes.contains (s.path n) = m.bound n := by
  have hrecord := congrArg Option.isSome (h.records n)
  rwa [Option.isSome_map, Option.isSome_map] at hrecord

/-- The root is ready to take records. -/
theorem contains_root (h : Represents m s tree) (hready : s.rootReady = true) :
    tree.nodes.contains s.root = true :=
  h.way hready _ h.leads

theorem insert (h : Represents m s tree) (t : Topic) (version : Int) :
    Represents (m.bind t) s ⟨tree.nodes.insert (s.path t.name) ⟨Record.encode t, version⟩⟩ := by
  refine ⟨h.leads, fun hready p hp => ?_, fun n => ?_, fun q hq => ?_⟩
  · have hold := h.way hready p hp
    rw [TextMap.contains] at hold ⊢
    rw [TextMap.get?_insert]
    split
    · rfl
    · exact hold
  · rw [TextMap.get?_insert, Bindings.bind]
    by_cases hn : n = t.name
    · simp [hn]
    · have hpath : s.path n ≠ s.path t.name := fun he => hn (path_inj he)
      simpa [hn, hpath] using h.records n
  · rw [TextMap.contains, TextMap.get?_insert] at hq
    by_cases hpath : q = s.path t.name
    · exact .inr ⟨t.name, hpath⟩
    · rw [if_neg hpath] at hq
      exact h.only q hq

theorem erase (h : Represents m s tree) (name : TopicName) :
    Represents (m.free name) s ⟨tree.nodes.erase (s.path name)⟩ := by
  refine ⟨h.leads, fun hready p hp => ?_, fun n => ?_, fun q hq => ?_⟩
  · have hpath : p ≠ s.path name := fun he => s.path_not_mem_rootPaths name (he ▸ hp)
    rw [TextMap.contains, TextMap.get?_erase, if_neg hpath]
    exact h.way hready p hp
  · rw [TextMap.get?_erase, Bindings.free]
    by_cases hn : n = name
    · simp [hn]
    · have hpath : s.path n ≠ s.path name := fun he => hn (path_inj he)
      simpa [hn, hpath] using h.records n
  · rw [TextMap.contains, TextMap.get?_erase] at hq
    by_cases hpath : q = s.path name
    · simp [hpath] at hq
    · rw [if_neg hpath] at hq
      exact h.only q hq

/-- Nothing is below a record. -/
theorem childNames_path (h : Represents m s tree) (n : TopicName) :
    tree.childNames (s.path n) = [] := by
  rw [NodeTree.childNames, List.filterMap_eq_nil_iff]
  intro q hq
  exact childName?_path_eq_none (h.only q (TextMap.contains_iff_mem_keys.2 hq))

/-- A node that is listed is the record of a name that is bound. -/
theorem listed_iff (h : Represents m s tree) {q : String} {n : TopicName} :
    (q ∈ tree.nodes.keys ∧ (childName? s.root q).bind TopicName.ofText? = some n) ↔
      q = s.path n ∧ m.bound n = true := by
  have hname : ∀ k : TopicName, (childName? s.root (s.path k)).bind TopicName.ofText? = some k := by
    intro k
    rw [childName?_path]
    exact dif_pos k.legal
  constructor
  · rintro ⟨hq, hn⟩
    have hthere := TextMap.contains_iff_mem_keys.2 hq
    rcases h.only q hthere with hway | ⟨k, rfl⟩
    · rw [childName?_of_mem_rootPaths hway] at hn
      cases hn
    · rw [hname k] at hn
      cases hn
      rw [h.contains_path] at hthere
      exact ⟨rfl, hthere⟩
  · rintro ⟨rfl, hn⟩
    rw [← h.contains_path] at hn
    exact ⟨TextMap.contains_iff_mem_keys.1 hn, hname n⟩

theorem lists (h : Represents m s tree) :
    m.Lists ((tree.childNames s.root).filterMap TopicName.ofText?) := by
  rw [NodeTree.childNames, List.filterMap_filterMap]
  constructor
  · intro n
    rw [List.mem_filterMap]
    constructor
    · rintro ⟨q, hq⟩
      exact (h.listed_iff.1 hq).2
    · intro hn
      exact ⟨s.path n, h.listed_iff.2 ⟨rfl, hn⟩⟩
  · have hkeys : tree.nodes.keys.Pairwise (· < ·) := List.pairwise_map.2 tree.nodes.increasing
    refine List.pairwise_filterMap.2 (hkeys.imp_of_mem fun ha hb hlt n hn k hk => ?_)
    rw [(h.listed_iff.1 ⟨ha, hn⟩).1, (h.listed_iff.1 ⟨hb, hk⟩).1] at hlt
    exact TopicName.bytes_lt (text_lt_of_path_lt hlt)

/-- What is read of a record is the snapshot. -/
theorem read (h : Represents m s tree) (name : TopicName) :
    (match tree.nodes.get? (s.path name) with
      | none => .ok none
      | some node => (Record.decodeText name node.data).map some) =
      (.ok (m.get? name) : Except StoreError (Option Topic)) := by
  have hrecord := h.records name
  cases hm : m.get? name with
  | none =>
    rw [hm, Option.map_none, Option.map_eq_none_iff] at hrecord
    rw [hrecord]
  | some t =>
    rw [hm, Option.map_some, Option.map_eq_some_iff] at hrecord
    obtain ⟨node, hnode, hdata⟩ := hrecord
    rw [hnode]
    dsimp only
    rw [hdata, ← m.name_eq hm, Record.decodeText_encode]
    rfl

/-- The parent of a record is the root. -/
theorem parent_there (h : Represents m s tree) (hready : s.rootReady = true) (n : TopicName) :
    (parentOf? (s.path n)).filter (fun parent => !tree.nodes.contains parent) = none := by
  rw [path, parentOf?_child s.root n.slash_not_mem]
  split
  · rfl
  · simp [h.contains_root hready]

end Represents

/-- Once the root is ready, a call is answered from the map, and carried out on it. -/
theorem access_represents (h : Represents m s tree) (hready : s.rootReady = true) (c : StoreCall) :
    m.Answers c ((s.access c).run NodeTree.answer tree).1 ∧
      Represents (m.after c) s ((s.access c).run NodeTree.answer tree).2 := by
  cases c with
  | read name =>
    change m.Answers (.read name) ((s.readNode name).run NodeTree.answer tree).1 ∧
      Represents m s ((s.readNode name).run NodeTree.answer tree).2
    rw [run_readNode]
    exact ⟨h.read name, h⟩
  | create t =>
    change ((s.createNode t).run NodeTree.answer tree).1 =
        (if m.bound t.name then .error (.alreadyExists t.name.text) else .ok ()) ∧
      Represents (if m.bound t.name then m else m.bind t) s
        ((s.createNode t).run NodeTree.answer tree).2
    rw [run_createNode, h.contains_path, h.parent_there hready]
    by_cases hbound : m.bound t.name = true
    · simpa only [if_pos hbound, true_and] using h
    · simpa only [if_neg hbound, true_and] using h.insert t 0
  | update t =>
    change ((s.updateNode t).run NodeTree.answer tree).1 =
        (if m.bound t.name then .ok () else .error (.notFound t.name.text)) ∧
      Represents (if m.bound t.name then m.bind t else m) s
        ((s.updateNode t).run NodeTree.answer tree).2
    rw [run_updateNode, ← h.contains_path, TextMap.contains]
    cases tree.nodes.get? (s.path t.name) with
    | none => exact ⟨rfl, h⟩
    | some node => exact ⟨rfl, h.insert t (node.version + 1)⟩
  | delete name =>
    change ((s.deleteNode name).run NodeTree.answer tree).1 =
        (if m.bound name then .ok () else .error (.notFound name.text)) ∧
      Represents (if m.bound name then m.free name else m) s
        ((s.deleteNode name).run NodeTree.answer tree).2
    rw [run_deleteNode, h.contains_path, h.childNames_path]
    by_cases hbound : m.bound name = true
    · simpa only [if_pos hbound, List.isEmpty_nil, if_true, true_and] using h.erase name
    · simpa only [if_neg hbound, true_and] using h
  | list =>
    change m.Answers .list (s.listNodes.run NodeTree.answer tree).1 ∧
      Represents m s (s.listNodes.run NodeTree.answer tree).2
    rw [run_listNodes, if_pos (h.contains_root hready)]
    exact ⟨⟨_, rfl, h.lists⟩, h⟩

/-- Making sure of the root makes it ready, and changes nothing that is represented. -/
theorem ensureRoot_represents (h : Represents m s tree) :
    Represents m { s with rootReady := true } (s.ensureRoot.run NodeTree.answer tree).2 := by
  have hget := (s.run_ensureRoot tree).2
  refine ⟨h.leads, fun _ p hp => ?_, fun n => ?_, fun q hq => ?_⟩
  · rw [TextMap.contains, hget, Option.isSome_or]
    cases hready : s.rootReady with
    | true => exact Bool.or_eq_true_iff.2 (.inl (h.way hready p hp))
    | false => simp [show p ∈ rootPaths s.root from hp]
  · have hrecord := get?_ensureRoot (s.path_not_mem_rootPaths n) tree
    exact (congrArg _ hrecord).trans (h.records n)
  · by_cases hway : q ∈ rootPaths s.root
    · exact .inl hway
    · rw [TextMap.contains, get?_ensureRoot hway] at hq
      exact h.only q hq

/-- Carry out a call on a store and the tree that it is kept in. -/
def serve (c : StoreCall) (w : HierarchicalStore × NodeTree) :
    c.Answer × HierarchicalStore × NodeTree :=
  let r := (w.1.perform c).run NodeTree.answer w.2
  (r.1.1, r.1.2, r.2)

/-- Carry out calls in turn. -/
def serveAll (calls : List StoreCall) (w : HierarchicalStore × NodeTree) :
    HierarchicalStore × NodeTree :=
  calls.foldl (fun w c => (serve c w).2) w

/-- A call is answered from the map that the tree represents, and carried out on both. -/
theorem serve_represents (h : Represents m s tree) (c : StoreCall) :
    m.Answers c (serve c (s, tree)).1 ∧
      Represents (m.after c) (serve c (s, tree)).2.1 (serve c (s, tree)).2.2 := by
  obtain ⟨hanswer, hafter⟩ := access_represents (ensureRoot_represents h) rfl c
  rw [serve, perform, Program.bind_run, (s.run_ensureRoot tree).1]
  dsimp only
  rw [Program.bind_run]
  exact ⟨hanswer, hafter⟩

theorem serveAll_represents (h : Represents m s tree) (calls : List StoreCall) :
    Represents (calls.foldl Bindings.after m) (serveAll calls (s, tree)).1
      (serveAll calls (s, tree)).2 := by
  induction calls generalizing m s tree with
  | nil => exact h
  | cons c calls ih => exact ih (serve_represents h c).2

/-- A fresh store represents the empty map. -/
theorem represents_fresh {chosen : String} (h : UsablePrefix chosen) :
    Represents .empty (create chosen) .empty := by
  refine ⟨root_mem_rootPaths h, ?_, fun n => rfl, ?_⟩
  · rintro ⟨⟩
  · rintro q ⟨⟩

/-- A store in a fresh tree is a map: whatever calls have been made, the next is answered from the
map that they lead to. -/
theorem served_as_map {chosen : String} (h : UsablePrefix chosen) (calls : List StoreCall)
    (c : StoreCall) :
    (calls.foldl Bindings.after .empty).Answers c
      (serve c (serveAll calls (create chosen, .empty))).1 :=
  (serve_represents (serveAll_represents (represents_fresh h) calls) c).1

def payments : Topic where
  name := ⟨"payments.v2", by decide⟩
  resourceName := ⟨"Zahlungen \"EU\"\n\x01"⟩
  partitions := ⟨12, by decide, by decide⟩
  replicationFactor := ⟨3, Nat.succ_pos 2, by decide⟩
  config := TextMap.empty.insert "cleanup.policy" "compact, \\ δ 😀"
  labels := some .empty

theorem served_as_map_payments :
    UsablePrefix "//ops/kafka/" ∧
      (serve (.read payments.name) (serveAll
        [.update payments, .create payments, .delete payments.name, .create payments, .list]
        (create "//ops/kafka/", .empty))).1 = .ok (some payments) :=
  ⟨by decide, served_as_map (by decide)
    [.update payments, .create payments, .delete payments.name, .create payments, .list]
    (.read payments.name)⟩

end HierarchicalStore

end TopicSync
