import TopicSync.Proofs.Topic.Name
import TopicSync.Store.Hierarchical

/-!
The paths below which a store keeps its records. Topic names have no slashes, so the records of
different topics are different nodes, all directly below the root; and the nodes that lead to the
root are shorter than any of them.
-/
namespace TopicSync

namespace TopicName

theorem slash_not_mem (n : TopicName) : '/' ∉ n.text.toList :=
  fun h => absurd (n.isNameChar_of_mem h) (by decide)

end TopicName

namespace Text

variable {sep : Char}

theorem splitOn_append (as bs : List Char) :
    splitOn sep (as ++ sep :: bs) = splitOn sep as ++ splitOn sep bs := by
  induction as with
  | nil => simp [splitOn]
  | cons a as ih =>
    rw [List.cons_append, splitOn, splitOn, ih]
    split
    · rfl
    · cases h : splitOn sep as with
      | nil => exact absurd h (splitOn_ne_nil sep as)
      | cons part parts => rfl

theorem not_mem_of_mem_splitOn {cs part : List Char} (h : part ∈ splitOn sep cs) : sep ∉ part := by
  induction cs generalizing part with
  | nil =>
    rw [List.mem_singleton.1 h]
    simp
  | cons c cs ih =>
    rw [splitOn] at h
    split at h
    · rcases List.mem_cons.1 h with rfl | h
      · simp
      · exact ih h
    next hne =>
      split at h
      next hnil => exact absurd hnil (splitOn_ne_nil sep cs)
      next first rest hsplit =>
        rw [hsplit] at ih
        rcases List.mem_cons.1 h with rfl | h
        · exact List.not_mem_cons_of_ne_of_not_mem (Ne.symm hne) (ih (.head _))
        · exact ih (.tail _ h)

theorem splitOn_of_not_mem {cs : List Char} (h : sep ∉ cs) : splitOn sep cs = [cs] := by
  induction cs with
  | nil => rfl
  | cons c cs ih =>
    rw [List.mem_cons, not_or] at h
    rw [splitOn, if_neg (Ne.symm h.1), ih h.2]

/-- A text is put together again from the parts that it was split into. -/
theorem join_splitOn (sep : Char) (cs : List Char) :
    ((splitOn sep cs).map fun part => sep :: part).flatten = sep :: cs := by
  induction cs with
  | nil => rfl
  | cons c cs ih =>
    rw [splitOn]
    split
    next h => simp [ih, h]
    next h =>
      split
      next hnil => exact absurd hnil (splitOn_ne_nil sep cs)
      next first rest hsplit =>
        rw [hsplit] at ih
        simp only [List.map_cons, List.flatten_cons, List.cons_append, List.cons.injEq,
          true_and] at ih ⊢
        exact ih

end Text

namespace HierarchicalStore

variable {s : HierarchicalStore}

theorem path_inj {n m : TopicName} (h : s.path n = s.path m) : n = m := by
  rw [path, path, String.append_right_inj] at h
  exact TopicName.ext h

theorem length_le_of_mem_ancestors {base p : String} {segments : List String}
    (h : p ∈ ancestors base segments) :
    p.length ≤ base.length +
      (segments.map fun segment => '/' :: segment.toList).flatten.length := by
  induction segments generalizing base with
  | nil => cases h
  | cons segment rest ih =>
    rw [ancestors] at h
    simp only [List.map_cons, List.flatten_cons, List.length_append, List.length_cons,
      String.length_toList]
    split at h
    · have := ih h
      omega
    · have hone : "/".length = 1 := rfl
      rcases List.mem_cons.1 h with rfl | h
      · simp only [String.length_append, hone]
        omega
      · have := ih h
        simp only [String.length_append, hone] at this
        omega

/-- The paths that lead to a root are not much longer than the root itself. -/
theorem length_le_of_mem_rootPaths {root p : String} (h : p ∈ rootPaths root) :
    p.length ≤ root.length + 1 := by
  have hlength := length_le_of_mem_ancestors h
  have hmap : ((Text.split '/' root).map fun segment => '/' :: segment.toList) =
      (Text.splitOn '/' root.toList).map fun part => '/' :: part := by
    simp [Text.split, Function.comp_def]
  rw [hmap, Text.join_splitOn, List.length_cons, String.length_empty,
    String.length_toList] at hlength
  omega

theorem length_path (s : HierarchicalStore) (n : TopicName) :
    (s.path n).length = s.root.length + 1 + n.text.length := by
  have hone : "/".length = 1 := rfl
  rw [path, String.length_append, String.length_append, hone]

/-- No record is kept on the way to the root. -/
theorem path_not_mem_rootPaths (s : HierarchicalStore) (n : TopicName) :
    s.path n ∉ rootPaths s.root := by
  intro h
  have hlength := length_le_of_mem_rootPaths h
  have hpos : n.text.length ≠ 0 := fun h => n.text_ne_empty (String.length_eq_zero_iff.1 h)
  rw [length_path] at hlength
  omega

end HierarchicalStore

end TopicSync
