/-!
Finite maps keyed by text, kept in code-point order. Keys are unique and ordered by construction,
so a map is determined by its look-ups (`TextMap.ext`) and is always printed in one order.
-/
namespace TopicSync

/-- The keys of a list of entries strictly increase. -/
def Increasing (entries : List (String × α)) : Prop :=
  entries.Pairwise fun a b => a.1 < b.1

structure TextMap (α : Type) where
  entries : List (String × α)
  increasing : Increasing entries

namespace TextMap

variable {α β : Type}

theorem eq_of_entries_eq {m n : TextMap α} (h : m.entries = n.entries) : m = n := by
  cases m; cases n; cases h; rfl

instance [DecidableEq α] : DecidableEq (TextMap α) := fun m n =>
  if h : m.entries = n.entries then isTrue (eq_of_entries_eq h)
  else isFalse fun e => h (e ▸ rfl)

instance [Repr α] : Repr (TextMap α) := ⟨fun m p => reprPrec m.entries p⟩

def empty : TextMap α := ⟨[], .nil⟩

instance : EmptyCollection (TextMap α) := ⟨empty⟩

instance : Inhabited (TextMap α) := ⟨empty⟩

/-- The value of the first entry with this key. -/
def find (k : String) : List (String × α) → Option α
  | [] => none
  | e :: es => if k = e.1 then some e.2 else find k es

def get? (m : TextMap α) (k : String) : Option α := find k m.entries

def contains (m : TextMap α) (k : String) : Bool := (m.get? k).isSome

def toList (m : TextMap α) : List (String × α) := m.entries

def keys (m : TextMap α) : List String := m.entries.map (·.1)

def values (m : TextMap α) : List α := m.entries.map (·.2)

def size (m : TextMap α) : Nat := m.entries.length

def isEmpty (m : TextMap α) : Bool := m.entries.isEmpty

/-- Put an entry at its place, replacing one of the same key. -/
def insertEntry (k : String) (v : α) : List (String × α) → List (String × α)
  | [] => [(k, v)]
  | e :: es =>
    if k < e.1 then (k, v) :: e :: es
    else if k = e.1 then (k, v) :: es
    else e :: insertEntry k v es

theorem mem_insertEntry {k : String} {v : α} {e : String × α} {es : List (String × α)}
    (h : e ∈ insertEntry k v es) : e = (k, v) ∨ e ∈ es := by
  induction es with
  | nil => simpa [insertEntry] using h
  | cons d ds ih =>
    rw [insertEntry] at h
    split at h
    · simpa using h
    · split at h
      · rcases List.mem_cons.1 h with h | h
        · exact .inl h
        · exact .inr (.tail _ h)
      · rcases List.mem_cons.1 h with h | h
        · exact .inr (h ▸ .head _)
        · exact (ih h).imp id (.tail _)

theorem lt_of_not_lt_of_ne {a b : String} (h : ¬ a < b) (hne : a ≠ b) : b < a :=
  Decidable.byContradiction fun hba => hne (String.le_antisymm hba h)

theorem increasing_insertEntry (k : String) (v : α) {es : List (String × α)}
    (h : Increasing es) : Increasing (insertEntry k v es) := by
  induction es with
  | nil => exact List.pairwise_singleton _ _
  | cons d ds ih =>
    have hd := List.pairwise_cons.1 h
    rw [insertEntry]
    split
    · rename_i hk
      refine List.pairwise_cons.2 ⟨fun e he => ?_, h⟩
      rcases List.mem_cons.1 he with he | he
      · exact he ▸ hk
      · exact String.lt_trans hk (hd.1 e he)
    · split
      · rename_i hk
        exact List.pairwise_cons.2 ⟨fun e he => hk ▸ hd.1 e he, hd.2⟩
      · rename_i hlt hne
        refine List.pairwise_cons.2 ⟨fun e he => ?_, ih hd.2⟩
        rcases mem_insertEntry he with he | he
        · exact he ▸ lt_of_not_lt_of_ne hlt hne
        · exact hd.1 e he

def insert (m : TextMap α) (k : String) (v : α) : TextMap α :=
  ⟨insertEntry k v m.entries, increasing_insertEntry k v m.increasing⟩

def erase (m : TextMap α) (k : String) : TextMap α :=
  ⟨m.entries.filter (·.1 ≠ k), m.increasing.sublist List.filter_sublist⟩

def filter (m : TextMap α) (p : String → α → Bool) : TextMap α :=
  ⟨m.entries.filter fun e => p e.1 e.2, m.increasing.sublist List.filter_sublist⟩

theorem increasing_filterMap (f : String → α → Option β) {es : List (String × α)}
    (h : Increasing es) :
    Increasing (es.filterMap fun e => (f e.1 e.2).map (e.1, ·)) :=
  List.pairwise_filterMap.2 <| h.imp fun hab c hc d hd => by
    obtain ⟨_, _, rfl⟩ := Option.map_eq_some_iff.1 hc
    obtain ⟨_, _, rfl⟩ := Option.map_eq_some_iff.1 hd
    exact hab

/-- Replace every value, leaving out the entries for which the result is `none`. -/
def filterMap (f : String → α → Option β) (m : TextMap α) : TextMap β :=
  ⟨m.entries.filterMap fun e => (f e.1 e.2).map (e.1, ·), increasing_filterMap f m.increasing⟩

def map (f : α → β) (m : TextMap α) : TextMap β := m.filterMap fun _ v => some (f v)

/-- Insert entries from left to right, so that of several with one key the last is kept. -/
def insertAll (m : TextMap α) (es : List (String × α)) : TextMap α :=
  es.foldl (fun acc e => acc.insert e.1 e.2) m

def ofList (es : List (String × α)) : TextMap α := empty.insertAll es

/-- The entries of both maps; where both have one, that of the first. -/
def union (m n : TextMap α) : TextMap α := n.insertAll m.entries

theorem get?_empty (k : String) : (empty : TextMap α).get? k = none := rfl

theorem find_insertEntry (k j : String) (v : α) (es : List (String × α)) :
    find j (insertEntry k v es) = if j = k then some v else find j es := by
  induction es with
  | nil => rfl
  | cons d ds ih =>
    rw [insertEntry]
    split
    · rfl
    · split
      · rename_i hk
        subst hk
        simp only [find]
        split <;> rfl
      · rename_i hne
        simp only [find, ih]
        by_cases hj : j = d.1
        · subst hj; simp [Ne.symm hne]
        · simp [hj]

@[simp] theorem get?_insert (m : TextMap α) (k j : String) (v : α) :
    (m.insert k v).get? j = if j = k then some v else m.get? j :=
  find_insertEntry k j v m.entries

theorem find_eq_none_of_forall_lt {k : String} {l : List (String × α)}
    (h : ∀ e ∈ l, k < e.1) : find k l = none := by
  induction l with
  | nil => rfl
  | cons d ds ih =>
    have hd : k ≠ d.1 := fun hk => String.lt_irrefl k (by simpa [← hk] using h d (.head _))
    simp only [find, hd, if_false]
    exact ih fun e he => h e (.tail _ he)

/-- Two maps with the same look-ups are the same map. -/
theorem ext {m n : TextMap α} (h : ∀ k, m.get? k = n.get? k) : m = n := by
  obtain ⟨es, hes⟩ := m
  obtain ⟨fs, hfs⟩ := n
  refine eq_of_entries_eq ?_
  simp only [get?] at h ⊢
  induction es generalizing fs with
  | nil =>
    cases fs with
    | nil => rfl
    | cons f fs => simpa [find] using h f.1
  | cons e es ih =>
    cases fs with
    | nil => simpa [find] using h e.1
    | cons f fs =>
      have he := List.pairwise_cons.1 hes
      have hf := List.pairwise_cons.1 hfs
      have hk : e.1 = f.1 := by
        refine Decidable.byContradiction fun hne => ?_
        rcases Decidable.em (e.1 < f.1) with hlt | hlt
        · have h1 := h e.1
          rw [find_eq_none_of_forall_lt (k := e.1) (l := f :: fs)] at h1
          · simp [find] at h1
          · intro d hd
            rcases List.mem_cons.1 hd with hd | hd
            · exact hd ▸ hlt
            · exact String.lt_trans hlt (hf.1 d hd)
        · have hgt := lt_of_not_lt_of_ne hlt hne
          have h1 := h f.1
          rw [find_eq_none_of_forall_lt (k := f.1) (l := e :: es)] at h1
          · simp [find] at h1
          · intro d hd
            rcases List.mem_cons.1 hd with hd | hd
            · exact hd ▸ hgt
            · exact String.lt_trans hgt (he.1 d hd)
      have hv : e.2 = f.2 := by simpa [find, hk] using h e.1
      have htail : es = fs := by
        refine ih he.2 fs hf.2 fun k => ?_
        rcases Decidable.em (k = e.1) with rfl | hne
        · rw [find_eq_none_of_forall_lt he.1, find_eq_none_of_forall_lt (hk ▸ hf.1)]
        · simpa [find, hne, ← hk] using h k
      rw [htail, Prod.ext hk hv]

end TextMap

end TopicSync
