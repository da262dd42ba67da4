import Mathlib.Logic.Relation
import TopicSync.Proofs.Store.Bindings
import TopicSync.Proofs.Store.Parents

/-!
Which prefixes lead to a root. The root is named by the whole prefix, but the nodes on the way to it
by its segments that are not empty. The two agree just if the prefix, without the slashes at its
ends, has no empty segment: then the root is there with all its parents once the way has been made,
and records can be created below it. With any other prefix the way misses the root, and the creation
of a record fails.
-/
namespace TopicSync

/-- A path itself, its parent, the parent of that, and so on. -/
def UpFrom : String → String → Prop :=
  Relation.ReflTransGen fun path parent => parentOf? path = some parent

/-- A path without an empty segment after its first slash. -/
def Gapless (path : String) : Prop := [] ∉ (Text.splitOn '/' path.toList).tail

theorem gapless_child {parent name : String} (h : Gapless parent) (hname : name ≠ "")
    (hslash : '/' ∉ name.toList) : Gapless (parent ++ "/" ++ name) := by
  have htoList : (parent ++ "/" ++ name).toList = parent.toList ++ '/' :: name.toList := by
    simp [String.toList_append]
  have hne : name.toList ≠ [] := fun hnil => hname (String.toList_eq_nil_iff.1 hnil)
  rw [Gapless, htoList, Text.splitOn_append, Text.splitOn_of_not_mem hslash,
    List.tail_append_of_ne_nil (Text.splitOn_ne_nil _ _), List.mem_append, List.mem_singleton]
  exact not_or.2 ⟨h, hne.symm⟩

namespace HierarchicalStore

variable {base p q chosen : String} {segments : List String}

theorem gapless_of_mem_ancestors (hbase : Gapless base)
    (hsegments : ∀ segment ∈ segments, '/' ∉ segment.toList) (h : p ∈ ancestors base segments) :
    Gapless p := by
  induction segments generalizing base with
  | nil => cases h
  | cons segment rest ih =>
    obtain ⟨hslash, hrest⟩ := List.forall_mem_cons.1 hsegments
    rw [ancestors] at h
    split at h
    next => exact ih hbase hrest h
    next hne =>
      have hchild := gapless_child hbase (fun he => hne (String.isEmpty_iff.2 he)) hslash
      rcases List.mem_cons.1 h with rfl | h
      · exact hchild
      · exact ih hchild hrest h

/-- The parent of a node on the way is what the way begins with, or is on the way as well. -/
theorem parent_mem_ancestors (hsegments : ∀ segment ∈ segments, '/' ∉ segment.toList)
    (h : p ∈ ancestors base segments) (hparent : parentOf? p = some q) :
    q = base ∨ q ∈ ancestors base segments := by
  induction segments generalizing base with
  | nil => cases h
  | cons segment rest ih =>
    obtain ⟨hslash, hrest⟩ := List.forall_mem_cons.1 hsegments
    rw [ancestors] at h ⊢
    split at h
    next hempty =>
      rw [if_pos hempty]
      exact ih hrest h
    next hempty =>
      rw [if_neg hempty]
      rcases List.mem_cons.1 h with rfl | h
      · rw [parentOf?_child base hslash] at hparent
        split at hparent
        next => cases hparent
        next => exact .inl (Option.some.inj hparent).symm
      · exact .inr (List.mem_cons.2 (ih hrest h))

theorem parent_mem_rootPaths {root : String} (h : p ∈ rootPaths root)
    (hparent : parentOf? p = some q) : q ∈ rootPaths root := by
  refine (parent_mem_ancestors (slash_not_mem_split root) h hparent).resolve_left ?_
  exact (parentOf?_eq_some_iff.1 hparent).1

theorem mem_rootPaths_of_upFrom {root : String} (h : p ∈ rootPaths root) (hup : UpFrom p q) :
    q ∈ rootPaths root := by
  induction hup with
  | refl => exact h
  | tail _ hparent ih => exact parent_mem_rootPaths ih hparent

theorem gapless_rootOf_iff : Gapless (rootOf chosen) ↔ UsablePrefix chosen := by
  have hparts : Gapless (rootOf chosen) ↔
      [] ∉ Text.splitOn '/' (Text.strip (· = '/') chosen.toList) := by
    rw [Gapless, splitOn_rootOf, List.tail_cons, List.mem_append, not_or]
    exact and_iff_left (by decide)
  refine hparts.trans ⟨fun h => ⟨fun hnil => h ?_, h⟩, And.right⟩
  rw [hnil]
  exact .head _

/-- The way leads to the root just if the prefix is usable. -/
theorem root_mem_rootPaths_iff : rootOf chosen ∈ rootPaths (rootOf chosen) ↔ UsablePrefix chosen :=
  ⟨fun h => gapless_rootOf_iff.1
      (gapless_of_mem_ancestors (by simp [Gapless, Text.splitOn]) (slash_not_mem_split _) h),
    root_mem_rootPaths⟩

/-- A fresh store with a tree of its own, once it has made sure of its root. -/
def prepare (chosen : String) : Except StoreError HierarchicalStore × NodeTree :=
  (create chosen).ensureRoot.run NodeTree.answer .empty

theorem prepare_eq_ok (chosen : String) :
    (prepare chosen).1 = .ok { create chosen with rootReady := true } :=
  ((create chosen).run_ensureRoot .empty).1

/-- What is there then are the nodes on the way to the root. -/
theorem contains_prepare_iff :
    (prepare chosen).2.nodes.contains p = true ↔ p ∈ rootPaths (rootOf chosen) := by
  have hempty : NodeTree.empty.nodes.get? p = none := rfl
  have hfresh : (create chosen).rootReady = false := rfl
  have hroot : (create chosen).root = rootOf chosen := rfl
  rw [prepare, TextMap.contains, ((create chosen).run_ensureRoot .empty).2 p, hempty,
    Option.none_or, hfresh, hroot]
  by_cases hp : p ∈ rootPaths (rootOf chosen) <;> simp [hp]

theorem rootOf_ne_empty (chosen : String) : rootOf chosen ≠ "" := by
  simp [rootOf]

/-- A record that is not there is created if the root is, and only then. -/
theorem createNode_of_absent {s : HierarchicalStore} {tree : NodeTree} {t : Topic}
    (hroot : s.root ≠ "") (habsent : ¬ tree.nodes.contains (s.path t.name) = true) :
    ((s.createNode t).run NodeTree.answer tree).1 =
      if tree.nodes.contains s.root then .ok () else .error (backend (.noNode s.root)) := by
  have hparent : parentOf? (s.path t.name) = some s.root := by
    rw [path, parentOf?_child s.root t.name.slash_not_mem, if_neg hroot]
  rw [run_createNode, if_neg habsent, hparent]
  by_cases hthere : tree.nodes.contains s.root = true <;> simp [Option.filter, hthere]

theorem serve_create_of_absent {s : HierarchicalStore} {tree : NodeTree} {t : Topic}
    (hroot : s.root ≠ "") (habsent : tree.nodes.get? (s.path t.name) = none) :
    (serve (.create t) (s, tree)).1 =
      if (s.ensureRoot.run NodeTree.answer tree).2.nodes.contains s.root then .ok ()
      else .error (backend (.noNode s.root)) := by
  have hstill : ¬ (s.ensureRoot.run NodeTree.answer tree).2.nodes.contains
      (s.path t.name) = true := by
    rw [TextMap.contains, get?_ensureRoot (s.path_not_mem_rootPaths t.name), habsent]
    exact Bool.false_ne_true
  rw [serve, perform, Program.bind_run, (s.run_ensureRoot tree).1]
  dsimp only
  rw [Program.bind_run]
  exact createNode_of_absent (s := { s with rootReady := true }) hroot hstill

/-- A fresh store always gets through with making sure of its root. But the root and all its parents
are there then just if the prefix is usable; and just then a record can be created. -/
theorem root_there_iff (chosen : String) :
    (prepare chosen).1 = .ok { create chosen with rootReady := true } ∧
      ((∀ p, UpFrom (rootOf chosen) p → (prepare chosen).2.nodes.contains p = true) ↔
        UsablePrefix chosen) ∧
      ∀ t : Topic, (serve (.create t) (create chosen, .empty)).1 =
        if UsablePrefix chosen then .ok () else .error (backend (.noNode (rootOf chosen))) := by
  have hroot : (prepare chosen).2.nodes.contains (rootOf chosen) = true ↔ UsablePrefix chosen :=
    contains_prepare_iff.trans root_mem_rootPaths_iff
  refine ⟨prepare_eq_ok chosen, ⟨fun h => hroot.1 (h _ .refl), fun h p hup => ?_⟩, fun t => ?_⟩
  · exact contains_prepare_iff.2 (mem_rootPaths_of_upFrom (root_mem_rootPaths h) hup)
  · have hname : (create chosen).root = rootOf chosen := rfl
    have habsent : NodeTree.empty.nodes.get? ((create chosen).path t.name) = none := rfl
    rw [prepare] at hroot
    rw [serve_create_of_absent (hname ▸ rootOf_ne_empty chosen) habsent, hname]
    by_cases h : UsablePrefix chosen
    · rw [if_pos h, if_pos (hroot.2 h)]
    · rw [if_neg h, if_neg (mt hroot.1 h)]

/-- A prefix of two segments, with slashes at its ends. -/
theorem root_there_nested :
    UsablePrefix "/ops/kafka/" ∧ UpFrom (rootOf "/ops/kafka/") "/ops" ∧
      (prepare "/ops/kafka/").2.nodes.contains "/ops" = true ∧
      (serve (.create payments) (create "/ops/kafka/", .empty)).1 = .ok () := by
  have hroot : parentOf? (rootOf "/ops/kafka/") = some "/ops/kafka" := by decide +kernel
  have hkafka : parentOf? "/ops/kafka" = some "/ops" := by decide +kernel
  have hup : UpFrom (rootOf "/ops/kafka/") "/ops" := .tail (.single hroot) hkafka
  have husable : UsablePrefix "/ops/kafka/" := by decide +kernel
  obtain ⟨-, hnodes, hcreate⟩ := root_there_iff "/ops/kafka/"
  exact ⟨husable, hup, hnodes.2 husable _ hup, (hcreate payments).trans (if_pos husable)⟩

/-- An empty segment is left out of the way, but not of the root, which is therefore missing. -/
theorem root_missing_of_gap :
    (prepare "ops//kafka").1 = .ok { create "ops//kafka" with rootReady := true } ∧
      (prepare "ops//kafka").2.nodes.contains (rootOf "ops//kafka") = false ∧
      (serve (.create payments) (create "ops//kafka", .empty)).1 =
        .error (backend (.noNode "/ops//kafka/topics")) :=
  ⟨prepare_eq_ok _, by decide +kernel, by rfl⟩

end HierarchicalStore

end TopicSync
