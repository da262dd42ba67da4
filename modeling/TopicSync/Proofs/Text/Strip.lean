import Mathlib.Data.List.DropRight
import TopicSync.Text.Blank

/-!
What is left of a list that loses some elements at its ends: a part of the list, whose first and
last elements stay. Whatever of the kind is added at the ends makes no difference.
-/
namespace TopicSync.Text

variable {α : Type} {p : α → Bool} {as bs cs : List α} {c : α}

theorem stripEnd_start (p : α → Bool) (cs : List α) : stripEnd p cs <+: cs :=
  List.rdropWhile_prefix p cs

theorem strip_within (p : α → Bool) (cs : List α) : strip p cs <:+: cs :=
  (stripEnd_start p _).isInfix.trans (List.dropWhile_suffix p).isInfix

theorem stripEnd_sublist (p : α → Bool) (cs : List α) : (stripEnd p cs).Sublist cs :=
  (stripEnd_start p cs).sublist

theorem strip_sublist (p : α → Bool) (cs : List α) : (strip p cs).Sublist cs :=
  (strip_within p cs).sublist

theorem not_of_mem_getLast?_stripEnd (h : c ∈ (stripEnd p cs).getLast?) : p c = false := by
  rw [stripEnd, List.getLast?_reverse] at h
  have hnot := List.head?_dropWhile_not p cs.reverse
  rw [Option.mem_def.1 h] at hnot
  simpa using hnot

theorem mem_head?_of_start (h : as <+: cs) (hc : c ∈ as.head?) : c ∈ cs.head? := by
  obtain ⟨bs, rfl⟩ := h
  rw [List.head?_append, Option.mem_def.1 hc]
  rfl

theorem not_of_mem_head?_strip (h : c ∈ (strip p cs).head?) : p c = false := by
  have hfirst : c ∈ (cs.dropWhile p).head? := mem_head?_of_start (stripEnd_start p _) h
  have hnot := List.head?_dropWhile_not p cs
  rw [Option.mem_def.1 hfirst] at hnot
  simpa using hnot

theorem stripEnd_append (h : stripEnd p bs ≠ []) : stripEnd p (as ++ bs) = as ++ stripEnd p bs := by
  have hdrop : ¬ (bs.reverse.dropWhile p).isEmpty = true := by
    intro hnil
    rw [List.isEmpty_iff] at hnil
    exact h (by rw [stripEnd, hnil, List.reverse_nil])
  rw [stripEnd, stripEnd, List.reverse_append, List.dropWhile_append, if_neg hdrop,
    List.reverse_append, List.reverse_reverse]

theorem strip_eq_self (h : ∀ c ∈ cs, ¬ p c = true) : strip p cs = cs := by
  have hdrop : ∀ ds : List α, (∀ c ∈ ds, ¬ p c = true) → ds.dropWhile p = ds := by
    intro ds hds
    cases ds with
    | nil => rfl
    | cons d ds => exact List.dropWhile_cons_of_neg (hds d (.head _))
  rw [strip, hdrop cs h, hdrop cs.reverse fun c hc => h c (List.mem_reverse.1 hc),
    List.reverse_reverse]

theorem dropWhile_append_cons (h : p c = false) (as bs : List α) :
    (as ++ c :: bs).dropWhile p = as.dropWhile p ++ c :: bs := by
  induction as with
  | nil => simp [h]
  | cons a as ih => by_cases ha : p a = true <;> simp [ha, ih]

/-- An element that stays keeps what is before it from being lost at the end, and what is after it
from being lost at the beginning. -/
theorem strip_append_cons (h : p c = false) (as bs : List α) :
    strip p (as ++ c :: bs) = as.dropWhile p ++ c :: stripEnd p bs := by
  rw [strip, dropWhile_append_cons h, List.reverse_append, List.reverse_cons, List.append_assoc,
    List.singleton_append, dropWhile_append_cons h, stripEnd]
  simp

theorem stripEnd_append_of_forall (h : ∀ b ∈ bs, p b = true) :
    stripEnd p (as ++ bs) = stripEnd p as := by
  rw [stripEnd, List.reverse_append,
    List.dropWhile_append_of_pos fun b hb => h b (List.mem_reverse.1 hb), stripEnd]

theorem strip_append_of_forall (ha : ∀ a ∈ as, p a = true) (hb : ∀ b ∈ bs, p b = true) :
    strip p (as ++ cs ++ bs) = strip p cs := by
  rw [List.append_assoc, strip, List.dropWhile_append_of_pos ha, List.dropWhile_append]
  split
  next hnil =>
    have hbs : bs.dropWhile p = [] := List.dropWhile_eq_nil_iff.2 hb
    rw [hbs, strip, List.isEmpty_iff.1 hnil]
  next => exact stripEnd_append_of_forall hb

theorem strip_dropWhile (p : α → Bool) (cs : List α) : strip p (cs.dropWhile p) = strip p cs := by
  rw [strip, List.dropWhile_idempotent, strip]

theorem strip_stripEnd (p : α → Bool) (cs : List α) : strip p (stripEnd p cs) = strip p cs := by
  have hcut : stripEnd p cs ++ (cs.reverse.takeWhile p).reverse = cs := by
    rw [stripEnd, ← List.reverse_append, List.takeWhile_append_dropWhile, List.reverse_reverse]
  have hlost : ∀ c ∈ (cs.reverse.takeWhile p).reverse, p c = true := fun c hc =>
    List.mem_takeWhile_imp (List.mem_reverse.1 hc)
  have hsame : strip p ([] ++ stripEnd p cs ++ (cs.reverse.takeWhile p).reverse) =
      strip p (stripEnd p cs) := strip_append_of_forall (by simp) hlost
  rw [List.nil_append, hcut] at hsame
  exact hsame.symm

theorem strip_strip (p : α → Bool) (cs : List α) : strip p (strip p cs) = strip p cs :=
  calc strip p (stripEnd p (cs.dropWhile p))
    _ = strip p (cs.dropWhile p) := strip_stripEnd p _
    _ = strip p cs := strip_dropWhile p cs

theorem strip_eq_nil_iff : strip p cs = [] ↔ ∀ c ∈ cs, p c = true := by
  have hend : strip p cs = [] ↔ ∀ c ∈ cs.dropWhile p, p c = true := List.rdropWhile_eq_nil_iff
  rw [hend]
  constructor
  · intro h c hc
    rw [← List.takeWhile_append_dropWhile (p := p) (l := cs)] at hc
    exact (List.mem_append.1 hc).elim List.mem_takeWhile_imp (h c)
  · exact fun h c hc => h c ((List.dropWhile_suffix p).mem hc)

theorem toList_trim (s : String) : (trim s).toList = strip isBlank s.toList :=
  String.toList_ofList

theorem trim_ofList (cs : List Char) :
    trim (String.ofList cs) = String.ofList (strip isBlank cs) := by
  rw [trim, String.toList_ofList]

theorem trim_trim (s : String) : trim (trim s) = trim s := by
  rw [trim, toList_trim, strip_strip, ← trim]

end TopicSync.Text
