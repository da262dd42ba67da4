import TopicSync.Proofs.Program

/-!
Two programs that run side by side. The state of the world falls into parts, and a call reads and
writes only the parts that it concerns. Programs that keep to different parts do not notice each
other: however their calls follow one another, each is answered as if it were alone, and the world
ends up as if they had run in turn.
-/
namespace TopicSync

/-- What is in the parts of a state, in the states that a world can be in. -/
structure Parts (P σ : Type) where
  valid : σ → Prop
  Content : P → Type
  content : σ → (x : P) → Content x

variable {I : Interface} {P σ α β : Type} {answer : (c : I.Call) → σ → I.Answer c × σ}
  {concerns : I.Call → P → Prop} {parts : Parts P σ}

/-- The two states are the same in some of their parts. -/
def Parts.Agree (parts : Parts P σ) (D : P → Prop) (s s' : σ) : Prop :=
  ∀ x, D x → parts.content s x = parts.content s' x

/-- A call leaves the parts alone that it does not concern, and from those that it concerns follow
its answer and what becomes of them. -/
structure Separate (answer : (c : I.Call) → σ → I.Answer c × σ) (concerns : I.Call → P → Prop)
    (parts : Parts P σ) : Prop where
  valid : ∀ (c : I.Call) (s : σ), parts.valid s → parts.valid (answer c s).2
  elsewhere : ∀ {c : I.Call} {x : P} {s : σ}, parts.valid s → ¬ concerns c x →
    parts.content (answer c s).2 x = parts.content s x
  same : ∀ {c : I.Call} {s s' : σ}, parts.valid s → parts.valid s' →
    parts.Agree (concerns c) s s' →
    (answer c s).1 = (answer c s').1 ∧ parts.Agree (concerns c) (answer c s).2 (answer c s').2

/-- The calls of a run concern only some of the parts. -/
def Program.KeepsTo (answer : (c : I.Call) → σ → I.Answer c × σ) (concerns : I.Call → P → Prop)
    (D : P → Prop) (p : Program I α) (s : σ) : Prop :=
  ∀ m ∈ p.moments answer s, ∀ x, concerns m.1 x → D x

namespace Separate

variable {D E : P → Prop} {c : I.Call} {s s' u : σ}

/-- States that agree on all that a call concerns, and more, agree there after the call. -/
theorem agree_answer (h : Separate answer concerns parts) (hs : parts.valid s)
    (hs' : parts.valid s') (hc : ∀ x, concerns c x → D x) (ha : parts.Agree D s s') :
    (answer c s).1 = (answer c s').1 ∧ parts.Agree D (answer c s).2 (answer c s').2 := by
  obtain ⟨hanswer, hafter⟩ := h.same hs hs' fun x hx => ha x (hc x hx)
  refine ⟨hanswer, fun x hx => ?_⟩
  by_cases hcx : concerns c x
  · exact hafter x hcx
  · rw [h.elsewhere hs hcx, h.elsewhere hs' hcx, ha x hx]

/-- A call changes nothing among parts none of which it concerns. -/
theorem agree_elsewhere (h : Separate answer concerns parts) (hs : parts.valid s)
    (hc : ∀ x, concerns c x → ¬ E x) (ha : parts.Agree E s u) :
    parts.Agree E (answer c s).2 u :=
  fun x hx => (h.elsewhere hs fun hcx => hc x hcx hx).trans (ha x hx)

end Separate

namespace Program

/-- A run of two programs side by side, with what each ends with: the next call is now of the one,
now of the other. -/
inductive Interleaved (answer : (c : I.Call) → σ → I.Answer c × σ) :
    Program I α → Program I β → σ → α → β → σ → Prop where
  | done (a : α) (b : β) (s : σ) : Interleaved answer (done a) (done b) s a b s
  | left {c : I.Call} {k : I.Answer c → Program I α} {q : Program I β} {s s' : σ} {a : α} {b : β}
      (h : Interleaved answer (k (answer c s).1) q (answer c s).2 a b s') :
      Interleaved answer (ask c k) q s a b s'
  | right {c : I.Call} {k : I.Answer c → Program I β} {p : Program I α} {s s' : σ} {a : α} {b : β}
      (h : Interleaved answer p (k (answer c s).1) (answer c s).2 a b s') :
      Interleaved answer p (ask c k) s a b s'

namespace Interleaved

/-- One after the other is a way to run two programs side by side. -/
theorem first_left (p : Program I α) (q : Program I β) (s : σ) :
    Interleaved answer p q s (p.run answer s).1 (q.run answer (p.run answer s).2).1
      (q.run answer (p.run answer s).2).2 := by
  induction p generalizing s with
  | done a =>
    induction q generalizing s with
    | done b => exact .done a b s
    | ask c k ih => exact .right (ih _ _)
  | ask c k ih => exact .left (ih _ _)

theorem first_right (p : Program I α) (q : Program I β) (s : σ) :
    Interleaved answer p q s (p.run answer (q.run answer s).2).1 (q.run answer s).1
      (p.run answer (q.run answer s).2).2 := by
  induction q generalizing s with
  | done b =>
    induction p generalizing s with
    | done a => exact .done a b s
    | ask c k ih => exact .left (ih _ _)
  | ask c k ih => exact .right (ih _ _)

end Interleaved

/-- Run two programs side by side, call by call in turn as long as both have calls to make. -/
def alternate (answer : (c : I.Call) → σ → I.Answer c × σ) :
    Program I α → Program I β → σ → α × β × σ
  | done a, q, s => (a, q.run answer s)
  | ask c k, done b, s =>
    let r := (ask c k).run answer s
    (r.1, b, r.2)
  | ask c k, ask d l, s =>
    let r := answer c s
    let r' := answer d r.2
    (k r.1).alternate answer (l r'.1) r'.2

theorem interleaved_alternate (p : Program I α) (q : Program I β) (s : σ) :
    Interleaved answer p q s (p.alternate answer q s).1 (p.alternate answer q s).2.1
      (p.alternate answer q s).2.2 := by
  induction p generalizing q s with
  | done a => exact .first_left (done a) q s
  | ask c k ih =>
    cases q with
    | done b => exact .first_left (ask c k) (done b) s
    | ask d l => exact .left (.right (ih _ _ _))

end Program

namespace Separate

open Program (Interleaved KeepsTo)

variable {D E : P → Prop} {p : Program I α} {q : Program I β} {s s' u v : σ} {a : α} {b : β}

/-- Side by side, programs that keep to different parts go as each goes alone, from states that
agree with the common one on its parts. -/
theorem interleaved_alone (h : Separate answer concerns parts)
    (hi : Interleaved answer p q s a b s') (hs : parts.valid s) (hu : parts.valid u)
    (hv : parts.valid v) (hp : p.KeepsTo answer concerns D u) (hq : q.KeepsTo answer concerns E v)
    (hdisjoint : ∀ x, D x → ¬ E x) (hsu : parts.Agree D s u) (hsv : parts.Agree E s v) :
    a = (p.run answer u).1 ∧ b = (q.run answer v).1 ∧
      parts.Agree D s' (p.run answer u).2 ∧ parts.Agree E s' (q.run answer v).2 ∧
      parts.Agree (fun x => ¬ D x ∧ ¬ E x) s' s := by
  -- A call of the one program moves the common state and the state of that program alike, and
  -- nothing among the parts of the other, whose state waits.
  induction hi generalizing u v with
  | done a b s => exact ⟨rfl, rfl, hsu, hsv, fun _ _ => rfl⟩
  | @left c k q s s' a b _ ih =>
    have hc : ∀ x, concerns c x → D x := hp (c, u) (.head _)
    obtain ⟨hanswer, hnext⟩ := h.agree_answer hs hu hc hsu
    rw [Program.run_ask, ← hanswer]
    have hrest : (k (answer c s).1).KeepsTo answer concerns D (answer c u).2 := by
      rw [hanswer]
      exact fun m hm => hp m (.tail _ hm)
    obtain ⟨ha, hb, hD, hE, hother⟩ := ih (h.valid c s hs) (h.valid c u hu) hv hrest hq hnext
      (h.agree_elsewhere hs (fun x hx => hdisjoint x (hc x hx)) hsv)
    refine ⟨ha, hb, hD, hE, fun x hx => (hother x hx).trans ?_⟩
    exact h.elsewhere hs fun hcx => hx.1 (hc x hcx)
  | @right c k p s s' a b _ ih =>
    have hc : ∀ x, concerns c x → E x := hq (c, v) (.head _)
    obtain ⟨hanswer, hnext⟩ := h.agree_answer hs hv hc hsv
    rw [Program.run_ask, ← hanswer]
    have hrest : (k (answer c s).1).KeepsTo answer concerns E (answer c v).2 := by
      rw [hanswer]
      exact fun m hm => hq m (.tail _ hm)
    obtain ⟨ha, hb, hD, hE, hother⟩ := ih (h.valid c s hs) hu (h.valid c v hv) hp hrest
      (h.agree_elsewhere hs (fun x hx hd => hdisjoint x hd (hc x hx)) hsu) hnext
    refine ⟨ha, hb, hD, hE, fun x hx => (hother x hx).trans ?_⟩
    exact h.elsewhere hs fun hcx => hx.2 (hc x hcx)

/-- A program that keeps to some parts goes by what is in them, and leaves the others alone. -/
theorem run_alone (h : Separate answer concerns parts) (hs : parts.valid s) (hu : parts.valid u)
    (hp : p.KeepsTo answer concerns D s) (ha : parts.Agree D u s) :
    (p.run answer u).1 = (p.run answer s).1 ∧
      parts.Agree D (p.run answer u).2 (p.run answer s).2 ∧
      parts.Agree (fun x => ¬ D x) (p.run answer u).2 u := by
  -- Alone is alongside a program that does nothing.
  have hnothing : (Program.done () : Program I Unit).KeepsTo answer concerns
      (fun _ => False) u := by
    rintro m ⟨⟩
  obtain ⟨hresult, -, hD, -, hother⟩ := h.interleaved_alone
    (Program.Interleaved.first_left p (.done ()) u) hu hs hu hp hnothing (fun _ _ => id) ha
    fun _ hx => hx.elim
  exact ⟨hresult, hD, fun x hx => hother x ⟨hx, id⟩⟩

/-- Any two ways to run programs side by side that keep to different parts end alike. -/
theorem interleaved_unique (h : Separate answer concerns parts) (hs : parts.valid s)
    (hp : p.KeepsTo answer concerns D s) (hq : q.KeepsTo answer concerns E s)
    (hdisjoint : ∀ x, D x → ¬ E x) {s'' : σ} {a' : α} {b' : β}
    (hi : Interleaved answer p q s a b s') (hi' : Interleaved answer p q s a' b' s'') :
    a = a' ∧ b = b' ∧ ∀ x, parts.content s' x = parts.content s'' x := by
  have hagree : ∀ F : P → Prop, parts.Agree F s s := fun _ _ _ => rfl
  obtain ⟨ha, hb, hD, hE, hother⟩ :=
    h.interleaved_alone hi hs hs hs hp hq hdisjoint (hagree D) (hagree E)
  obtain ⟨ha', hb', hD', hE', hother'⟩ :=
    h.interleaved_alone hi' hs hs hs hp hq hdisjoint (hagree D) (hagree E)
  refine ⟨ha.trans ha'.symm, hb.trans hb'.symm, fun x => ?_⟩
  by_cases hx : D x
  · exact (hD x hx).trans (hD' x hx).symm
  · by_cases hx' : E x
    · exact (hE x hx').trans (hE' x hx').symm
    · exact (hother x ⟨hx, hx'⟩).trans (hother' x ⟨hx, hx'⟩).symm

end Separate

end TopicSync
