import Mathlib.Data.List.TakeWhile
import TopicSync.Proofs.Store.Tree

/-!
Which nodes of a tree have their parents there. Nodes are created below their parents, and whatever
has a named node below it is not deleted; so only a node without a name of its own, whose path ends
in a slash, can be left behind by its parent. Calls that fail change nothing at all.
-/
namespace TopicSync

/-- The path of a node with a parent is that of the parent, a slash, and a name, which may be
empty. -/
theorem parentOf?_eq_some_iff {path parent : String} :
    parentOf? path = some parent ↔
      parent ≠ "" ∧ ∃ name, '/' ∉ name.toList ∧ path = parent ++ "/" ++ name := by
  constructor
  · intro h
    by_cases hslash : '/' ∈ path.toList
    · -- The name is what follows the last slash.
      obtain ⟨behind, before, hpath, hname⟩ :=
        List.eq_append_cons_of_mem (List.mem_reverse.2 hslash)
      have hcut : path = String.ofList before.reverse ++ "/" ++ String.ofList behind.reverse := by
        rw [← String.toList_inj, ← List.reverse_inj, hpath]
        simp [String.toList_append]
      have hfree : '/' ∉ (String.ofList behind.reverse).toList := by simpa using hname
      rw [hcut, parentOf?_child _ hfree] at h
      split at h
      next => cases h
      next hne =>
        cases h
        exact ⟨hne, _, hfree, hcut⟩
    · have hnil : path.toList.reverse.dropWhile (· ≠ '/') = [] :=
        List.dropWhile_eq_nil_iff.2 fun c hc =>
          decide_eq_true fun heq => hslash (heq ▸ List.mem_reverse.1 hc)
      rw [parentOf?, hnil] at h
      cases h
  · rintro ⟨hne, name, hname, rfl⟩
    rw [parentOf?_child parent hname, if_neg hne]

namespace NodeTree

variable {t t' : NodeTree} {c : TreeCall} {path parent : String} {version : Option Int}

/-- Below a node without named children there can be one node at most, the one without a name. -/
theorem eq_of_childNames (h : t.childNames parent = []) (hpath : t.nodes.contains path = true)
    (hparent : parentOf? path = some parent) : path = parent ++ "/" := by
  obtain ⟨-, name, hslash, rfl⟩ := parentOf?_eq_some_iff.1 hparent
  by_contra hunnamed
  have hne : name ≠ "" := by
    rintro rfl
    exact hunnamed String.append_empty
  have hnone := List.filterMap_eq_nil_iff.1 h _ (TextMap.contains_iff_mem_keys.1 hpath)
  rw [childName?_eq_some_iff.2 ⟨rfl, hne, hslash⟩] at hnone
  cases hnone

/-- All that a call can make of a tree. -/
inductive Change (t : NodeTree) : NodeTree → Prop where
  | kept : Change t t
  | created (path : String) (node : Node)
      (h : ∀ parent, parentOf? path = some parent → t.nodes.contains parent = true) :
      Change t ⟨t.nodes.insert path node⟩
  | written (path : String) (node : Node) (h : t.nodes.contains path = true) :
      Change t ⟨t.nodes.insert path node⟩
  | deleted (path : String) (h : t.childNames path = []) : Change t ⟨t.nodes.erase path⟩

theorem change_create (t : NodeTree) (path data : String) : t.Change (t.create path data).2 := by
  rw [create]
  split
  next => exact .kept
  next =>
    split
    next parent hparent =>
      split
      next hthere =>
        refine .created path _ fun p hp => ?_
        cases hparent.symm.trans hp
        exact hthere
      next => exact .kept
    next hnone =>
      refine .created path _ fun p hp => ?_
      cases hnone.symm.trans hp

theorem change_set (t : NodeTree) (path data : String) (version : Option Int) :
    t.Change (t.set path data version).2 := by
  rw [set]
  split
  next => exact .kept
  next node hnode =>
    refine .written path _ ?_
    rw [TextMap.contains, get?_of_guarded hnode, Option.isSome_some]

theorem change_delete (t : NodeTree) (path : String) (version : Option Int) :
    t.Change (t.delete path version).2 := by
  rw [delete]
  split
  next => exact .kept
  next =>
    split
    next hleaf => exact .deleted path (List.isEmpty_iff.1 hleaf)
    next => exact .kept

theorem change_answer (c : TreeCall) (t : NodeTree) : t.Change (answer c t).2 := by
  cases c with
  | create path data => exact t.change_create path data
  | get path => exact .kept
  | set path data version => exact t.change_set path data version
  | delete path version => exact t.change_delete path version
  | children path => exact .kept

theorem childNames_of_delete (h : (t.delete path version).1 = .ok ()) :
    t.childNames path = [] := by
  rw [delete] at h
  split at h
  next => cases h
  next =>
    split at h
    next hleaf => exact List.isEmpty_iff.1 hleaf
    next => cases h

/-- A call that fails leaves all nodes as they are, with their data and their versions. -/
theorem answer_of_error {e : NodeError} (h : (answer c t).1 = .error e) : (answer c t).2 = t := by
  cases c with
  | create path data =>
    change (t.create path data).1 = _ at h
    change (t.create path data).2 = t
    rw [create] at h ⊢
    grind
  | get path => rfl
  | set path data version =>
    change (t.set path data version).1 = _ at h
    change (t.set path data version).2 = t
    rw [set] at h ⊢
    grind
  | delete path version =>
    change (t.delete path version).1 = _ at h
    change (t.delete path version).2 = t
    rw [delete] at h ⊢
    grind
  | children path => rfl

/-- Only nodes without a name of their own may lack their parents. -/
def Rooted (t : NodeTree) : Prop :=
  ∀ path parent, t.nodes.contains path = true → parentOf? path = some parent →
    t.nodes.contains parent = true ∨ path = parent ++ "/"

theorem Rooted.change (h : t.Rooted) (hc : t.Change t') : t'.Rooted := by
  intro path parent hpath hparent
  cases hc with
  | kept => exact h path parent hpath hparent
  | created q node hq =>
    rw [TextMap.contains_insert] at hpath ⊢
    rcases hpath with rfl | hpath
    · exact .inl (.inr (hq parent hparent))
    · exact (h path parent hpath hparent).imp_left .inr
  | written q node hq =>
    rw [TextMap.contains_insert] at hpath ⊢
    rcases hpath with rfl | hpath
    · exact (h path parent hq hparent).imp_left .inr
    · exact (h path parent hpath hparent).imp_left .inr
  | deleted q hq =>
    rw [TextMap.contains_erase] at hpath ⊢
    by_cases hgone : parent = q
    · exact .inr (eq_of_childNames (hgone ▸ hq) hpath.2 hparent)
    · exact (h path parent hpath.2 hparent).imp_left (.intro hgone)

/-- The tree after calls, each of them made on what the one before has left. -/
def after (t : NodeTree) (calls : List TreeCall) : NodeTree :=
  calls.foldl (fun t c => (answer c t).2) t

theorem Rooted.after (h : t.Rooted) (calls : List TreeCall) : (t.after calls).Rooted := by
  induction calls generalizing t with
  | nil => exact h
  | cons c calls ih => exact ih (h.change (change_answer c t))

theorem rooted_empty : empty.Rooted := by
  intro path parent hpath
  cases hpath

/-- Whatever calls are made on a fresh tree, each node that has a name has its parent there, since
no parent of such a node is deleted; and a call that fails changes nothing. -/
theorem parents_remain (calls : List TreeCall) :
    (∀ path parent, (empty.after calls).nodes.contains path = true →
      parentOf? path = some parent →
        (empty.after calls).nodes.contains parent = true ∨ path = parent ++ "/") ∧
    (∀ path parent version, (empty.after calls).nodes.contains path = true →
      parentOf? path = some parent → ((empty.after calls).delete parent version).1 = .ok () →
        path = parent ++ "/") ∧
    ∀ c e, (answer c (empty.after calls)).1 = .error e →
      (answer c (empty.after calls)).2 = empty.after calls :=
  ⟨rooted_empty.after calls,
    fun _ _ _ hpath hparent hdelete =>
      eq_of_childNames (childNames_of_delete hdelete) hpath hparent,
    fun _ _ => answer_of_error⟩

/-- The calls make a node with two children, one of which has no name, and the last is refused. -/
def familyCalls : List TreeCall :=
  [.create "/a" "", .create "/a/" "1", .create "/a/b" "2", .delete "/a" none]

theorem parents_remain_family :
    ((empty.after familyCalls).nodes.contains "/a/b" = true ∧ parentOf? "/a/b" = some "/a" ∧
      ((empty.after familyCalls).nodes.contains "/a" = true ∨ "/a/b" = "/a" ++ "/")) ∧
    ((empty.after (familyCalls.take 2)).nodes.contains "/a/" = true ∧
      parentOf? "/a/" = some "/a" ∧
      ((empty.after (familyCalls.take 2)).delete "/a" none).1 = .ok () ∧ "/a/" = "/a" ++ "/") ∧
    (answer (.delete "/a" none) (empty.after familyCalls)).1 = .error (.notEmpty "/a") ∧
      (answer (.delete "/a" none) (empty.after familyCalls)).2 = empty.after familyCalls := by
  have hchild : (empty.after familyCalls).nodes.contains "/a/b" = true := by decide +kernel
  have hnamed : parentOf? "/a/b" = some "/a" := by decide +kernel
  have hunnamed : (empty.after (familyCalls.take 2)).nodes.contains "/a/" = true := by
    decide +kernel
  have hslash : parentOf? "/a/" = some "/a" := by decide +kernel
  have hdeleted : ((empty.after (familyCalls.take 2)).delete "/a" none).1 = .ok () := by rfl
  have hrefused : (answer (.delete "/a" none) (empty.after familyCalls)).1 =
      .error (.notEmpty "/a") := by rfl
  exact ⟨⟨hchild, hnamed, (parents_remain familyCalls).1 _ _ hchild hnamed⟩,
    ⟨hunnamed, hslash, hdeleted,
      (parents_remain (familyCalls.take 2)).2.1 _ _ _ hunnamed hslash hdeleted⟩,
    hrefused, (parents_remain familyCalls).2.2 _ _ hrefused⟩

/-- The parent of a node without a name is deleted, and leaves it behind. -/
theorem orphan_left_behind :
    let t := empty.after [.create "/a" "", .create "/a/" "", .delete "/a" none]
    t.nodes.contains "/a/" = true ∧ parentOf? "/a/" = some "/a" ∧
      t.nodes.contains "/a" = false := by
  decide +kernel

end NodeTree

end TopicSync
