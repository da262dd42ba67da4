import TopicSync.Proofs.Program

/-!
Programs among others. Each call of a program can be carried out by a program of another interface,
and between two calls others may change the world. A run is then given by its calls, each with the
state in which it is made.
-/
namespace TopicSync.Program

variable {I J : Interface} {α β σ : Type}

/-- The program with its calls carried out by programs of another interface. -/
def translate (f : (c : I.Call) → Program J (I.Answer c)) : Program I α → Program J α
  | done a => done a
  | ask c k => (f c).bind fun r => (k r).translate f

variable {f : (c : I.Call) → Program J (I.Answer c)}

theorem translate_bind (p : Program I α) (g : α → Program I β) :
    (p.bind g).translate f = (p.translate f).bind fun a => (g a).translate f := by
  induction p with
  | done a => rfl
  | ask c k ih =>
    have hassoc := bind_bind (f c) (fun r => (k r).translate f) fun a => (g a).translate f
    have hrest : (fun r => ((k r).bind g).translate f) =
        fun r => ((k r).translate f).bind fun a => (g a).translate f := funext ih
    change (f c).bind (fun r => ((k r).bind g).translate f) = _
    rw [hrest]
    exact hassoc.symm

theorem Only.translate {P : I.Call → Prop} {P' : J.Call → Prop} {p : Program I α} (hp : p.Only P)
    (hf : ∀ c, P c → (f c).Only P') : (p.translate f).Only P' := by
  induction hp with
  | done a => exact .done a
  | ask hc _ ih => exact (hf _ hc).bind ih

/-- Asking in turn for the elements of two lists is asking for those of the second once the first
are done. -/
theorem forAll_append (f : α → Program I (Except β Unit)) (as bs : List α) :
    forAll f (as ++ bs) = (forAll f as).bind fun
      | .ok _ => forAll f bs
      | .error e => done (.error e) := by
  induction as with
  | nil => rfl
  | cons a as ih =>
    have hassoc := bind_bind (f a)
      (fun | .ok _ => forAll f as | .error e => done (.error e))
      (fun | .ok _ => forAll f bs | .error e => done (.error e))
    refine Eq.trans ?_ hassoc.symm
    refine congrArg (f a).bind (funext fun r => ?_)
    cases r with
    | error e => rfl
    | ok _ => exact ih

/-- A run of a program while others act: before each call they may have changed the world. -/
inductive Amid (answer : (c : I.Call) → σ → I.Answer c × σ) (meanwhile : σ → σ → Prop) :
    Program I α → σ → List (I.Call × σ) → α → σ → Prop where
  | done (a : α) (s : σ) : Amid answer meanwhile (done a) s [] a s
  | ask {c : I.Call} {k : I.Answer c → Program I α} {s s₁ s' : σ} {ms : List (I.Call × σ)} {a : α}
      (hm : meanwhile s s₁)
      (hk : Amid answer meanwhile (k (answer c s₁).1) (answer c s₁).2 ms a s') :
      Amid answer meanwhile (ask c k) s ((c, s₁) :: ms) a s'

namespace Amid

variable {answer : (c : I.Call) → σ → I.Answer c × σ} {meanwhile : σ → σ → Prop} {s s' : σ}
  {ms : List (I.Call × σ)} {b : β}

theorem of_bind {p : Program I α} {g : α → Program I β}
    (h : Amid answer meanwhile (p.bind g) s ms b s') :
    ∃ ms₁ a s₁ ms₂, Amid answer meanwhile p s ms₁ a s₁ ∧
      Amid answer meanwhile (g a) s₁ ms₂ b s' ∧ ms = ms₁ ++ ms₂ := by
  induction p generalizing s ms with
  | done a => exact ⟨[], a, s, ms, .done a s, h, rfl⟩
  | ask c k ih =>
    cases h with
    | ask hm hk =>
      obtain ⟨ms₁, a, s₁, ms₂, hfirst, hrest, rfl⟩ := ih _ hk
      exact ⟨(c, _) :: ms₁, a, s₁, ms₂, .ask hm hfirst, hrest, rfl⟩

theorem bind {p : Program I α} {g : α → Program I β} {ms₁ ms₂ : List (I.Call × σ)} {a : α} {s₁ : σ}
    (hp : Amid answer meanwhile p s ms₁ a s₁) (hg : Amid answer meanwhile (g a) s₁ ms₂ b s') :
    Amid answer meanwhile (p.bind g) s (ms₁ ++ ms₂) b s' := by
  induction hp with
  | done a s => exact hg
  | ask hm _ ih => exact .ask hm (ih hg)

theorem calls {P : I.Call → Prop} {p : Program I β} (h : Amid answer meanwhile p s ms b s')
    (hp : p.Only P) : ∀ m ∈ ms, P m.1 := by
  induction h with
  | done a s => rintro m ⟨⟩
  | ask _ _ ih =>
    cases hp with
    | ask hc hk =>
      intro m hm
      rcases List.mem_cons.1 hm with rfl | hm
      · exact hc
      · exact ih (hk _) m hm

/-- What a run ends with is a value that the program can yield. -/
theorem yields {p : Program I β} {g : (c : I.Call) → Program J (I.Answer c)}
    {answer : (c : J.Call) → σ → J.Answer c × σ} {ms : List (J.Call × σ)}
    (h : Amid answer meanwhile (p.translate g) s ms b s') : p.Yields b := by
  induction p generalizing s ms with
  | done a =>
    cases h
    exact .done _
  | ask c k ih =>
    obtain ⟨_, r, _, _, _, hrest, _⟩ := h.of_bind
    exact .ask r (ih r hrest)

end Amid

end TopicSync.Program
