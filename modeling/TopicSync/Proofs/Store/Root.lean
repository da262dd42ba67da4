import TopicSync.Proofs.Program
import TopicSync.Proofs.Store.Paths
import TopicSync.Proofs.TextMap

/-!
The way to the root of a store. Each node on it is the parent of the next, so that creating them in
turn succeeds in any tree. It leads to the root itself if the prefix has no empty segments once it
has lost the slashes at its ends. The records are directly below the root, and nothing below them.
-/
namespace TopicSync

section Names

/-- A node one segment below another has that one as its parent. -/
theorem parentOf?_child (parent : String) {name : String} (h : '/' ∉ name.toList) :
    parentOf? (parent ++ "/" ++ name) = if parent = "" then none else some parent := by
  have hname : ∀ c ∈ name.toList.reverse, decide (c ≠ '/') = true := fun c hc =>
    decide_eq_true fun heq => h (heq ▸ List.mem_reverse.1 hc)
  have htail : (parent ++ "/" ++ name).toList.reverse.dropWhile (· ≠ '/') =
      '/' :: parent.toList.reverse := by
    simp only [String.toList_append, List.reverse_append, List.append_assoc]
    rw [List.dropWhile_append_of_pos hname]
    rfl
  rw [parentOf?, htail]
  cases hrest : parent.toList.reverse with
  | nil => rw [if_pos (String.toList_eq_nil_iff.1 (List.reverse_eq_nil_iff.1 hrest))]
  | cons c cs =>
    have hne : parent ≠ "" := by
      rintro rfl
      cases hrest
    have hparent : some (String.ofList (c :: cs).reverse) = some parent := by
      rw [← hrest, List.reverse_reverse, String.ofList_toList]
    rw [if_neg hne]
    exact hparent

theorem Text.after?_eq_some_iff {pre s rest : String} :
    Text.after? pre s = some rest ↔ s = pre ++ rest := by
  rw [Text.after?, Text.startsWith]
  constructor
  · intro h
    split at h
    next hpre =>
      obtain ⟨tail, htail⟩ := List.isPrefixOf_iff_prefix.1 hpre
      have hlength : pre.length = pre.toList.length := String.length_toList.symm
      rw [← htail, hlength, List.drop_left] at h
      rw [← Option.some.inj h, ← String.toList_inj, String.toList_append, String.toList_ofList,
        htail]
    next => cases h
  · rintro rfl
    have hpre : pre.toList.isPrefixOf (pre ++ rest).toList = true := by
      rw [String.toList_append]
      exact List.isPrefixOf_iff_prefix.2 (List.prefix_append _ _)
    have hlength : pre.length = pre.toList.length := String.length_toList.symm
    rw [if_pos hpre, String.toList_append, hlength, List.drop_left, String.ofList_toList]

theorem childName?_eq_some_iff {parent path name : String} :
    childName? parent path = some name ↔
      path = parent ++ "/" ++ name ∧ name ≠ "" ∧ '/' ∉ name.toList := by
  rw [childName?]
  constructor
  · intro h
    split at h
    next => cases h
    next rest hrest =>
      split at h
      next => cases h
      next hplain =>
        cases h
        simp only [Bool.or_eq_true, String.isEmpty_iff, List.contains_iff_mem, not_or] at hplain
        exact ⟨Text.after?_eq_some_iff.1 hrest, hplain⟩
  · rintro ⟨hpath, hne, hslash⟩
    rw [Text.after?_eq_some_iff.2 hpath]
    simp [hne, hslash]

end Names

/-- A node is created below one that is there, unless it is there as well. -/
theorem NodeTree.create_child {t : NodeTree} {parent name : String} (h : '/' ∉ name.toList)
    (hparent : parent = "" ∨ t.nodes.contains parent = true) (data : String) :
    t.create (parent ++ "/" ++ name) data =
      if t.nodes.contains (parent ++ "/" ++ name) then
        (.error (.nodeExists (parent ++ "/" ++ name)), t)
      else (.ok (), ⟨t.nodes.insert (parent ++ "/" ++ name) ⟨data, 0⟩⟩) := by
  rw [create, parentOf?_child parent h]
  rcases hparent with rfl | hparent
  · rfl
  · by_cases hne : parent = "" <;> simp [hne, hparent]

namespace HierarchicalStore

variable {s : HierarchicalStore}

theorem childName?_path (s : HierarchicalStore) (n : TopicName) :
    childName? s.root (s.path n) = some n.text :=
  childName?_eq_some_iff.2 ⟨rfl, n.text_ne_empty, n.slash_not_mem⟩

/-- Nothing on the way to the root is taken for a record. -/
theorem childName?_of_mem_rootPaths {root p : String} (h : p ∈ rootPaths root) :
    childName? root p = none := by
  cases hname : childName? root p with
  | none => rfl
  | some name =>
    obtain ⟨rfl, hne, -⟩ := childName?_eq_some_iff.1 hname
    have hlength := length_le_of_mem_rootPaths h
    have hone : "/".length = 1 := rfl
    have hpos : name.length ≠ 0 := fun h => hne (String.length_eq_zero_iff.1 h)
    rw [String.length_append, String.length_append, hone] at hlength
    omega

/-- No record is below another, nor is anything on the way to the root. -/
theorem childName?_path_eq_none {n : TopicName} {p : String}
    (h : p ∈ rootPaths s.root ∨ ∃ m, p = s.path m) : childName? (s.path n) p = none := by
  cases hname : childName? (s.path n) p with
  | none => rfl
  | some name =>
    obtain ⟨rfl, hne, -⟩ := childName?_eq_some_iff.1 hname
    rcases h with h | ⟨m, hm⟩
    · have hlength := length_le_of_mem_rootPaths h
      have hone : "/".length = 1 := rfl
      rw [String.length_append, String.length_append, length_path, hone] at hlength
      omega
    · have htext : m.text = n.text ++ "/" ++ name := by
        rw [path, path, String.append_assoc, String.append_assoc, String.append_right_inj,
          ← String.append_assoc] at hm
        exact hm.symm
      refine absurd ?_ m.slash_not_mem
      rw [htext]
      simp

section Creation

/-- The node that the way to the root is made of. -/
def bare : Node := ⟨"", 0⟩

/-- In a tree that has the first parent, those of the nodes that are missing are created. -/
theorem run_createNodes_ancestors (tree : NodeTree) {base : String} {segments : List String}
    (hsegments : ∀ segment ∈ segments, '/' ∉ segment.toList)
    (hbase : base = "" ∨ tree.nodes.contains base = true) :
    ((createNodes (ancestors base segments)).run NodeTree.answer tree).1 = .ok () ∧
      ∀ q, ((createNodes (ancestors base segments)).run NodeTree.answer tree).2.nodes.get? q =
        (tree.nodes.get? q).or (if q ∈ ancestors base segments then some bare else none) := by
  induction segments generalizing base tree with
  | nil => exact ⟨rfl, fun q => by simp [ancestors, createNodes]⟩
  | cons segment rest ih =>
    have hrest : ∀ s ∈ rest, '/' ∉ s.toList := fun s hs => hsegments s (.tail _ hs)
    rw [ancestors]
    by_cases hempty : segment.isEmpty = true
    · rw [if_pos hempty]
      exact ih tree hrest hbase
    · have hcreate : NodeTree.answer (.create (base ++ "/" ++ segment) "") tree = _ :=
        NodeTree.create_child (hsegments segment (.head _)) hbase ""
      rw [if_neg hempty, createNodes, Program.run_ask, hcreate]
      -- Old or new, the node is there afterwards, as the parent of the next.
      by_cases hold : tree.nodes.contains (base ++ "/" ++ segment) = true
      · rw [if_pos hold]
        obtain ⟨hok, hget⟩ := ih tree hrest (.inr hold)
        refine ⟨hok, fun q => (hget q).trans ?_⟩
        obtain ⟨node, hnode⟩ := Option.isSome_iff_exists.1 hold
        by_cases hq : q = base ++ "/" ++ segment
        · simp [hq, hnode]
        · simp [hq]
      · have hnew : tree.nodes.get? (base ++ "/" ++ segment) = none :=
          Option.not_isSome_iff_eq_none.1 hold
        have hthere : (tree.nodes.insert (base ++ "/" ++ segment) bare).contains
            (base ++ "/" ++ segment) = true := by
          simp [TextMap.contains]
        rw [if_neg hold]
        obtain ⟨hok, hget⟩ := ih ⟨tree.nodes.insert _ bare⟩ hrest (.inr hthere)
        refine ⟨hok, fun q => (hget q).trans ?_⟩
        by_cases hq : q = base ++ "/" ++ segment
        · simp [hq, hnew]
        · simp [hq]

theorem slash_not_mem_split (s : String) : ∀ segment ∈ Text.split '/' s, '/' ∉ segment.toList := by
  intro segment h
  obtain ⟨part, hpart, rfl⟩ := List.mem_map.1 h
  rw [String.toList_ofList]
  exact Text.not_mem_of_mem_splitOn hpart

/-- Whatever the prefix and the tree, making sure of the root succeeds: the first time, the nodes
that are missing on the way are created. -/
theorem run_ensureRoot (s : HierarchicalStore) (tree : NodeTree) :
    (s.ensureRoot.run NodeTree.answer tree).1 = .ok { s with rootReady := true } ∧
      ∀ q, (s.ensureRoot.run NodeTree.answer tree).2.nodes.get? q = (tree.nodes.get? q).or
        (if s.rootReady = false ∧ q ∈ rootPaths s.root then some bare else none) := by
  cases hready : s.rootReady with
  | true =>
    have hs : { s with rootReady := true } = s := by rw [← hready]
    rw [ensureRoot, if_pos hready, hs]
    exact ⟨rfl, fun q => by simp⟩
  | false =>
    obtain ⟨hok, hget⟩ := run_createNodes_ancestors tree (slash_not_mem_split s.root) (.inl rfl)
    rw [ensureRoot, hready, if_neg Bool.false_ne_true, Program.bind_run, rootPaths, hok]
    exact ⟨rfl, fun q => by simpa using hget q⟩

end Creation

section Prefixes

/-- Without the slashes at its ends a prefix is not empty, and has no empty segment. -/
def UsablePrefix (chosen : String) : Prop :=
  Text.strip (· = '/') chosen.toList ≠ [] ∧
    [] ∉ Text.splitOn '/' (Text.strip (· = '/') chosen.toList)

instance (chosen : String) : Decidable (UsablePrefix chosen) :=
  inferInstanceAs (Decidable (_ ∧ _))

/-- The last of the ancestors has all segments. -/
theorem foldl_mem_ancestors (base : String) {segments : List String} (hne : segments ≠ [])
    (h : "" ∉ segments) :
    segments.foldl (fun p segment => p ++ "/" ++ segment) base ∈ ancestors base segments := by
  induction segments generalizing base with
  | nil => exact absurd rfl hne
  | cons segment rest ih =>
    have hsegment : ¬ segment.isEmpty = true := fun hempty =>
      h (String.isEmpty_iff.1 hempty ▸ .head _)
    rw [ancestors, if_neg hsegment, List.foldl_cons]
    by_cases hrest : rest = []
    · simp [hrest]
    · exact .tail _ (ih _ hrest fun hm => h (.tail _ hm))

theorem toList_foldl_path (base : String) (segments : List String) :
    (segments.foldl (fun p segment => p ++ "/" ++ segment) base).toList =
      base.toList ++ (segments.map fun segment => '/' :: segment.toList).flatten := by
  induction segments generalizing base with
  | nil => simp
  | cons segment rest ih => simp [ih, String.toList_append]

theorem splitOn_rootOf (chosen : String) :
    Text.splitOn '/' (rootOf chosen).toList =
      [] :: (Text.splitOn '/' (Text.strip (· = '/') chosen.toList) ++ ["topics".toList]) := by
  have hroot : (rootOf chosen).toList =
      '/' :: (Text.strip (· = '/') chosen.toList ++ '/' :: "topics".toList) := by
    simp [rootOf, String.toList_append]
  rw [hroot, Text.splitOn, if_pos rfl, Text.splitOn_append]
  rfl

theorem rootPaths_rootOf (chosen : String) :
    rootPaths (rootOf chosen) = ancestors ""
      ((Text.splitOn '/' (Text.strip (· = '/') chosen.toList)).map String.ofList ++
        ["topics"]) := by
  rw [rootPaths, Text.split, splitOn_rootOf, List.map_cons, List.map_append]
  rfl

/-- The way to the root of a usable prefix leads there. -/
theorem root_mem_rootPaths {chosen : String} (h : UsablePrefix chosen) :
    rootOf chosen ∈ rootPaths (rootOf chosen) := by
  have hsegments : "" ∉ (Text.splitOn '/' (Text.strip (· = '/') chosen.toList)).map
      String.ofList ++ ["topics"] := by
    intro hm
    rcases List.mem_append.1 hm with hm | hm
    · obtain ⟨part, hpart, hempty⟩ := List.mem_map.1 hm
      exact h.2 (String.ofList_eq_empty_iff.1 hempty ▸ hpart)
    · exact absurd hm (by decide)
  have hlast := foldl_mem_ancestors "" (by simp) hsegments
  have hroot : ((Text.splitOn '/' (Text.strip (· = '/') chosen.toList)).map String.ofList ++
      ["topics"]).foldl (fun p segment => p ++ "/" ++ segment) "" = rootOf chosen := by
    have hjoin := Text.join_splitOn '/' (Text.strip (· = '/') chosen.toList)
    rw [← String.toList_inj, toList_foldl_path, List.map_append, List.flatten_append, List.map_map]
    simp only [Function.comp_def, String.toList_ofList, hjoin]
    simp [rootOf, String.toList_append]
  rw [rootPaths_rootOf, ← hroot]
  exact hlast

end Prefixes

end HierarchicalStore

end TopicSync
