import Mathlib.Algebra.Ring.Int.Defs
import TopicSync.Proofs.Program

/-!
What the calls of a program add up to. Each call has a weight, and each result a sum that is due
for it. A program adds up if, whatever is answered, the weights of all its calls make the sum that
is due for its result.
-/
namespace TopicSync.Program

variable {I : Interface} {α β : Type} {weight : I.Call → ℤ} {due : α → ℤ} {due' : β → ℤ} {n : ℤ}

/-- Together with what was spent before, the calls of the program make what is due for its result,
whatever is answered. -/
inductive AddsUp (weight : I.Call → ℤ) (due : α → ℤ) : ℤ → Program I α → Prop where
  | done (a : α) : AddsUp weight due (due a) (done a)
  | ask {n : ℤ} {c : I.Call} {k : I.Answer c → Program I α}
      (hk : ∀ r, AddsUp weight due (n + weight c) (k r)) : AddsUp weight due n (ask c k)

/-- The calls of the program make nothing. -/
def Neutral (weight : I.Call → ℤ) (p : Program I α) : Prop := ∀ n, AddsUp weight (fun _ => n) n p

namespace AddsUp

theorem bind {p : Program I α} {f : α → Program I β} (hp : AddsUp weight due n p)
    (hf : ∀ a, AddsUp weight due' (due a) (f a)) : AddsUp weight due' n (p.bind f) := by
  induction hp with
  | done a => exact hf a
  | ask _ ih => exact .ask ih

/-- What makes nothing leaves what is spent as it is. -/
theorem bind_neutral {p : Program I α} {f : α → Program I β} (hp : Neutral weight p)
    (hf : ∀ a, AddsUp weight due' n (f a)) : AddsUp weight due' n (p.bind f) :=
  (hp n).bind hf

theorem done_iff {a : α} : AddsUp weight due n (Program.done a) ↔ due a = n := by
  constructor
  · rintro ⟨⟩
    rfl
  · rintro rfl
    exact .done a

theorem of_ask {c : I.Call} {k : I.Answer c → Program I α}
    (h : AddsUp weight due n (Program.ask c k)) (r : I.Answer c) :
    AddsUp weight due (n + weight c) (k r) := by
  cases h with
  | ask hk => exact hk r

end AddsUp

namespace Neutral

theorem done (a : α) : Neutral weight (Program.done a : Program I α) := fun _ => .done a

theorem bind {p : Program I α} {f : α → Program I β} (hp : Neutral weight p)
    (hf : ∀ a, Neutral weight (f a)) : Neutral weight (p.bind f) :=
  fun n => .bind_neutral hp fun a => hf a n

/-- Calls without weight make nothing. -/
theorem of_only {p : Program I α} (hp : p.Only fun c => weight c = 0) : Neutral weight p := by
  intro n
  induction hp with
  | done a => exact .done a
  | ask hc _ ih =>
    refine .ask fun r => ?_
    rw [hc, add_zero]
    exact ih r

theorem forAll {f : α → Program I (Except β Unit)} {as : List α}
    (h : ∀ a ∈ as, Neutral weight (f a)) : Neutral weight (Program.forAll f as) := by
  induction as with
  | nil => exact done _
  | cons a as ih =>
    refine (h a (.head _)).bind fun r => ?_
    cases r with
    | error e => exact done _
    | ok _ => exact ih fun b hb => h b (.tail _ hb)

end Neutral

end TopicSync.Program
