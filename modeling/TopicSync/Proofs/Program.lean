import TopicSync.Visibility

/-!
The calls of a program: in one world, each with the state in which it is made, and under whatever
answers. A call that no answers lead to is made in no world. Likewise for the values that a program
yields.
-/
namespace TopicSync.Program

variable {I : Interface} {α β σ τ : Type} {answer : (c : I.Call) → σ → I.Answer c × σ}
  {P : I.Call → Prop}

/-- The calls of a run in order, each with the state in which it is made. -/
def moments (answer : (c : I.Call) → σ → I.Answer c × σ) : Program I α → σ → List (I.Call × σ)
  | done _, _ => []
  | ask c k, s => (c, s) :: (k (answer c s).1).moments answer (answer c s).2

@[simp] theorem moments_done (answer : (c : I.Call) → σ → I.Answer c × σ) (a : α) (s : σ) :
    (done a : Program I α).moments answer s = [] := rfl
@[simp] theorem moments_ask (answer : (c : I.Call) → σ → I.Answer c × σ) (c : I.Call)
    (k : I.Answer c → Program I α) (s : σ) :
    (ask c k).moments answer s =
      (c, s) :: (k (answer c s).1).moments answer (answer c s).2 := rfl

theorem moments_bind (answer : (c : I.Call) → σ → I.Answer c × σ) (p : Program I α)
    (f : α → Program I β) (s : σ) :
    (p.bind f).moments answer s =
      p.moments answer s ++ (f (p.run answer s).1).moments answer (p.run answer s).2 := by
  induction p generalizing s with
  | done a => rfl
  | ask c k ih => exact congrArg ((c, s) :: ·) (ih _ _)

theorem bind_run (answer : (c : I.Call) → σ → I.Answer c × σ) (p : Program I α)
    (f : α → Program I β) (s : σ) :
    (p.bind f).run answer s = (f (p.run answer s).1).run answer (p.run answer s).2 :=
  run_bind answer p f s

/-- Every call of the program has a property, whatever is answered. -/
inductive Only (P : I.Call → Prop) : Program I α → Prop where
  | done (a : α) : Only P (done a)
  | ask {c : I.Call} {k : I.Answer c → Program I α} (hc : P c) (hk : ∀ r, Only P (k r)) :
      Only P (ask c k)

namespace Only

theorem of_mem_moments {p : Program I α} (h : p.Only P) {c : I.Call} {s s' : σ}
    (hm : (c, s') ∈ p.moments answer s) : P c := by
  induction h generalizing s with
  | done a => cases hm
  | ask hc _ ih =>
    rcases List.mem_cons.1 hm with he | hm
    · cases he
      exact hc
    · exact ih _ hm

theorem of_forall {p : Program I α} (h : ∀ c, P c) : p.Only P := by
  induction p with
  | done a => exact .done a
  | ask c k ih => exact .ask (h c) ih

theorem mono {P' : I.Call → Prop} {p : Program I α} (h : p.Only P) (hP : ∀ c, P c → P' c) :
    p.Only P' := by
  induction h with
  | done a => exact .done a
  | ask hc _ ih => exact .ask (hP _ hc) ih

theorem bind {p : Program I α} {f : α → Program I β} (hp : p.Only P) (hf : ∀ a, (f a).Only P) :
    (p.bind f).Only P := by
  induction hp with
  | done a => exact hf a
  | ask hc _ ih => exact .ask hc ih

theorem forAll {f : α → Program I (Except β Unit)} {as : List α}
    (h : ∀ a ∈ as, (f a).Only P) : (Program.forAll f as).Only P := by
  induction as with
  | nil => exact .done _
  | cons a as ih =>
    refine (h a (.head _)).bind fun r => ?_
    cases r with
    | error e => exact .done _
    | ok _ => exact ih fun b hb => h b (.tail _ hb)

theorem await {read : Program I (Except Failure (Option α))} {wait : Nat → Program I Unit}
    (hread : read.Only P) (hwait : ∀ ms, (wait ms).Only P) (r : RetrySettings) (topic : String) :
    (Visibility.await r topic read wait).Only P := by
  suffices h : ∀ left attempt, (Visibility.readUpTo r topic read wait left attempt).Only P from
    h _ _
  intro left
  induction left with
  | zero => exact fun _ => .done _
  | succ left ih =>
    intro attempt
    refine hread.bind fun found => ?_
    match found with
    | .error e => exact .done _
    | .ok (some a) => exact .done _
    | .ok none =>
      by_cases hl : left = 0
      · simp only [hl, if_true]
        exact .done _
      · simp only [hl, if_false]
        exact (hwait _).bind fun _ => ih _

end Only

/-- The program is done with a value, if it is answered in a certain way. -/
inductive Yields : Program I α → α → Prop where
  | done (a : α) : Yields (done a) a
  | ask {c : I.Call} {k : I.Answer c → Program I α} {a : α} (r : I.Answer c)
      (h : Yields (k r) a) : Yields (ask c k) a

namespace Yields

/-- What a program yields in a world is one of the values that it can yield. -/
theorem of_run (answer : (c : I.Call) → σ → I.Answer c × σ) (p : Program I α) (s : σ) :
    p.Yields (p.run answer s).1 := by
  induction p generalizing s with
  | done a => exact .done a
  | ask c k ih => exact .ask _ (ih _ _)

theorem bind {p : Program I α} {f : α → Program I β} {a : α} {b : β} (hp : p.Yields a)
    (hf : (f a).Yields b) : (p.bind f).Yields b := by
  induction hp with
  | done a => exact hf
  | ask r _ ih => exact .ask r (ih hf)

theorem of_bind {p : Program I α} {f : α → Program I β} {b : β} (h : (p.bind f).Yields b) :
    ∃ a, p.Yields a ∧ (f a).Yields b := by
  induction p with
  | done a => exact ⟨a, .done a, h⟩
  | ask c k ih =>
    cases h with
    | ask r h =>
      obtain ⟨a, ha, hb⟩ := ih r h
      exact ⟨a, .ask r ha, hb⟩

end Yields

/-- A run from a state: each of its calls is made where it may be, and what it ends with, and in
which state, is as it should be. -/
structure Meets (answer : (c : I.Call) → σ → I.Answer c × σ) (p : Program I α) (s : σ)
    (Q : I.Call → σ → Prop) (R : α → σ → Prop) : Prop where
  calls : ∀ m ∈ p.moments answer s, Q m.1 m.2
  result : R (p.run answer s).1 (p.run answer s).2

namespace Meets

variable {Q : I.Call → σ → Prop} {R : α → σ → Prop} {R' : β → σ → Prop} {J : σ → Prop} {s : σ}

theorem done {a : α} (h : R a s) : Meets answer (done a) s Q R := ⟨by rintro m ⟨⟩, h⟩

theorem ask {c : I.Call} {k : I.Answer c → Program I α} (hc : Q c s)
    (hk : Meets answer (k (answer c s).1) (answer c s).2 Q R) :
    Meets answer (ask c k) s Q R := by
  refine ⟨fun m hm => ?_, hk.result⟩
  rcases List.mem_cons.1 hm with rfl | hm
  · exact hc
  · exact hk.calls m hm

theorem bind {p : Program I α} {f : α → Program I β} (hp : Meets answer p s Q R)
    (hf : ∀ a s', R a s' → Meets answer (f a) s' Q R') : Meets answer (p.bind f) s Q R' := by
  have hrest := hf _ _ hp.result
  refine ⟨fun m hm => ?_, ?_⟩
  · rw [moments_bind] at hm
    rcases List.mem_append.1 hm with hm | hm
    · exact hp.calls m hm
    · exact hrest.calls m hm
  · have hrun := run_bind answer p f s
    change ((p.bind f).run answer s) = _ at hrun
    rw [hrun]
    exact hrest.result

theorem mono {R₁ : α → σ → Prop} {p : Program I α} (hp : Meets answer p s Q R)
    (hR : ∀ a s', R a s' → R₁ a s') : Meets answer p s Q R₁ :=
  ⟨hp.calls, hR _ _ hp.result⟩

/-- An invariant that all calls of a program keep, whatever is answered. -/
theorem of_only {p : Program I α} (hp : p.Only P)
    (hstep : ∀ c s, P c → J s → Q c s ∧ J (answer c s).2) (hs : J s) :
    Meets answer p s Q fun _ => J := by
  induction hp generalizing s with
  | done a => exact .done hs
  | ask hc _ ih => exact .ask (hstep _ s hc hs).1 (ih _ (hstep _ s hc hs).2)

end Meets

/-- An invariant that each call of a run keeps holds after every call, and at the end. -/
theorem invariant_of_moments {J : σ → Prop} {p : Program I α} {s : σ} (hs : J s)
    (h : ∀ m ∈ p.moments answer s, J m.2 → J (answer m.1 m.2).2) :
    (∀ m ∈ p.moments answer s, J (answer m.1 m.2).2) ∧ J (p.run answer s).2 := by
  induction p generalizing s with
  | done a => exact ⟨by rintro m ⟨⟩, hs⟩
  | ask c k ih =>
    have hnext : J (answer c s).2 := h (c, s) (.head _) hs
    obtain ⟨hcalls, hend⟩ := ih _ hnext fun m hm => h m (.tail _ hm)
    refine ⟨fun m hm => ?_, hend⟩
    rcases List.mem_cons.1 hm with rfl | hm
    · exact hnext
    · exact hcalls m hm

/-- What no call of a run changes is the same at the end. -/
theorem run_keeps {f : σ → τ} {p : Program I α} {s : σ}
    (h : ∀ m ∈ p.moments answer s, f (answer m.1 m.2).2 = f m.2) : f (p.run answer s).2 = f s := by
  induction p generalizing s with
  | done a => rfl
  | ask c k ih => exact (ih _ fun m hm => h m (.tail _ hm)).trans (h (c, s) (.head _))

section ForAll

variable {f : α → Program I (Except β Unit)} {as : List α} {s : σ}

theorem run_forAll_cons (f : α → Program I (Except β Unit)) (a : α) (as : List α) (s : σ) :
    (forAll f (a :: as)).run answer s =
      match ((f a).run answer s).1 with
      | .ok _ => (forAll f as).run answer ((f a).run answer s).2
      | .error e => (.error e, ((f a).run answer s).2) := by
  rw [forAll, bind_run]
  cases ((f a).run answer s).1 <;> rfl

theorem moments_forAll_cons (f : α → Program I (Except β Unit)) (a : α) (as : List α) (s : σ) :
    (forAll f (a :: as)).moments answer s = (f a).moments answer s ++
      match ((f a).run answer s).1 with
      | .ok _ => (forAll f as).moments answer ((f a).run answer s).2
      | .error _ => [] := by
  rw [forAll, moments_bind]
  cases ((f a).run answer s).1 <;> rfl

/-- The last part is reached once all others are done. -/
theorem forAll_concat_cases (f : α → Program I (Except β Unit)) (as : List α) (a : α) (s : σ) :
    (∃ e, ((forAll f (as ++ [a])).run answer s).1 = .error e ∧
      (forAll f (as ++ [a])).moments answer s = (forAll f as).moments answer s) ∨
    ∃ s', ((forAll f as).run answer s).1 = .ok () ∧
      ((forAll f (as ++ [a])).run answer s).1 = ((f a).run answer s').1 ∧
      (forAll f (as ++ [a])).moments answer s =
        (forAll f as).moments answer s ++ (f a).moments answer s' := by
  induction as generalizing s with
  | nil =>
    refine .inr ⟨s, rfl, ?_, ?_⟩
    · rw [List.nil_append, run_forAll_cons]
      cases ((f a).run answer s).1 <;> rfl
    · rw [List.nil_append, moments_forAll_cons]
      cases ((f a).run answer s).1 <;> simp [forAll]
  | cons b bs ih =>
    simp only [List.cons_append, run_forAll_cons, moments_forAll_cons]
    cases ((f b).run answer s).1 with
    | error e => exact .inl ⟨e, rfl, rfl⟩
    | ok _ =>
      rcases ih ((f b).run answer s).2 with ⟨e, hrun, hms⟩ | ⟨s', hfirst, hrun, hms⟩
      · exact .inl ⟨e, hrun, by rw [hms]⟩
      · exact .inr ⟨s', hfirst, hrun, by simp [hms]⟩

/-- When all is done, each part of it has been done at some point. -/
theorem of_forAll_ok (h : ((forAll f as).run answer s).1 = .ok ()) {a : α} (ha : a ∈ as) :
    ∃ before s' after,
      (forAll f as).moments answer s = before ++ (f a).moments answer s' ++ after ∧
        ((f a).run answer s').1 = .ok () := by
  induction as generalizing s with
  | nil => cases ha
  | cons b bs ih =>
    rw [run_forAll_cons] at h
    rw [moments_forAll_cons]
    cases hb : ((f b).run answer s).1 with
    | error e =>
      rw [hb] at h
      cases h
    | ok _ =>
      rw [hb] at h
      rcases List.mem_cons.1 ha with rfl | ha
      · exact ⟨[], s, _, rfl, hb⟩
      · obtain ⟨before, s', after, hms, hrun⟩ := ih h ha
        exact ⟨(f b).moments answer s ++ before, s', after, by simp [hms], hrun⟩

/-- When something is not done, the last part has failed. -/
theorem of_forAll_error {e : β} (h : ((forAll f as).run answer s).1 = .error e) :
    ∃ a ∈ as, ∃ before s',
      (forAll f as).moments answer s = before ++ (f a).moments answer s' ∧
        ((f a).run answer s').1 = .error e := by
  induction as generalizing s with
  | nil => cases h
  | cons b bs ih =>
    rw [run_forAll_cons] at h
    rw [moments_forAll_cons]
    cases hb : ((f b).run answer s).1 with
    | error e' =>
      rw [hb] at h
      cases h
      exact ⟨b, .head _, [], s, by simp, hb⟩
    | ok _ =>
      rw [hb] at h
      obtain ⟨a, ha, before, s', hms, hrun⟩ := ih h
      exact ⟨a, .tail _ ha, (f b).moments answer s ++ before, s', by simp [hms], hrun⟩

end ForAll

section Await

variable {read : Program I (Except Failure (Option α))} {wait : Nat → Program I Unit}
  {r : RetrySettings} {topic : String} {s : σ}

/-- Waiting ends as its last read does, or without having found anything. -/
theorem of_await {result : Except Failure α}
    (h : ((Visibility.await r topic read wait).run answer s).1 = result) :
    result = .error (.metadataTimeout topic r.attempts) ∨
      ∃ before s',
        (Visibility.await r topic read wait).moments answer s =
            before ++ read.moments answer s' ∧
          (read.run answer s').1 = result.map some := by
  suffices hup : ∀ left attempt s,
      ((Visibility.readUpTo r topic read wait left attempt).run answer s).1 = result →
      result = .error (.metadataTimeout topic r.attempts) ∨
      ∃ before s',
        (Visibility.readUpTo r topic read wait left attempt).moments answer s =
            before ++ read.moments answer s' ∧
          (read.run answer s').1 = result.map some from hup _ _ _ h
  intro left
  induction left with
  | zero =>
    intro attempt s h
    exact .inl h.symm
  | succ left ih =>
    intro attempt s h
    rw [Visibility.readUpTo] at h ⊢
    rw [moments_bind]
    rw [bind_run] at h
    match hread : (read.run answer s).1 with
    | .error e =>
      rw [hread] at h
      cases h
      exact .inr ⟨[], s, by simp, hread⟩
    | .ok (some b) =>
      rw [hread] at h
      cases h
      exact .inr ⟨[], s, by simp, hread⟩
    | .ok none =>
      rw [hread] at h
      dsimp only at h ⊢
      by_cases hl : left = 0
      · rw [if_pos hl] at h
        exact .inl h.symm
      · rw [if_neg hl] at h ⊢
        rw [moments_bind]
        rw [bind_run] at h
        refine (ih _ _ h).imp_right fun ⟨before, s', hms, hfound⟩ => ?_
        rw [hms]
        exact ⟨read.moments answer s ++ ((wait (r.delayAfter attempt)).moments answer
          (read.run answer s).2 ++ before), s', by simp, hfound⟩

end Await

end TopicSync.Program
