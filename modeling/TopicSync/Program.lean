/-!
Programs that ask the outside world: a program is done with a value, or makes one call and goes on
with its answer. What the world answers is not part of a program, so that statements can quantify
over all answers, and over all orders in which the calls of several programs follow each other.
-/
namespace TopicSync

/-- The calls of an interface, each with the type of its answers. -/
structure Interface where
  Call : Type
  Answer : Call → Type

inductive Program (I : Interface) (α : Type) where
  | done (a : α)
  | ask (call : I.Call) (next : I.Answer call → Program I α)

namespace Program

variable {I : Interface} {α β γ σ : Type}

def bind : Program I α → (α → Program I β) → Program I β
  | done a, f => f a
  | ask c k, f => ask c fun r => (k r).bind f

/-- The program that makes one call and is done with its answer. -/
def call (c : I.Call) : Program I (I.Answer c) := ask c done

instance : Monad (Program I) where
  pure := done
  bind := bind

@[simp] theorem pure_eq_done (a : α) : (pure a : Program I α) = done a := rfl
@[simp] theorem done_bind (a : α) (f : α → Program I β) : done a >>= f = f a := rfl
@[simp] theorem ask_bind (c : I.Call) (k : I.Answer c → Program I α) (f : α → Program I β) :
    ask c k >>= f = ask c fun r => k r >>= f := rfl

theorem bind_done (p : Program I α) : p >>= done = p := by
  induction p with
  | done a => rfl
  | ask c k ih => exact congrArg (ask c) (funext ih)

theorem bind_bind (p : Program I α) (f : α → Program I β) (g : β → Program I γ) :
    p >>= f >>= g = p >>= fun a => f a >>= g := by
  induction p with
  | done a => rfl
  | ask c k ih => exact congrArg (ask c) (funext ih)

/-- Run a program in a world that answers each call from its state. -/
def run (answer : (c : I.Call) → σ → I.Answer c × σ) : Program I α → σ → α × σ
  | done a, s => (a, s)
  | ask c k, s =>
    let r := answer c s
    (k r.1).run answer r.2

@[simp] theorem run_done (answer : (c : I.Call) → σ → I.Answer c × σ) (a : α) (s : σ) :
    (done a).run answer s = (a, s) := rfl
@[simp] theorem run_ask (answer : (c : I.Call) → σ → I.Answer c × σ) (c : I.Call)
    (k : I.Answer c → Program I α) (s : σ) :
    (ask c k).run answer s = (k (answer c s).1).run answer (answer c s).2 := rfl

theorem run_bind (answer : (c : I.Call) → σ → I.Answer c × σ) (p : Program I α)
    (f : α → Program I β) (s : σ) :
    (p >>= f).run answer s = (f (p.run answer s).1).run answer (p.run answer s).2 := by
  induction p generalizing s with
  | done a => rfl
  | ask c k ih => exact ih _ _

/-- Ask in turn for every element of a list, and stop at the first failure. -/
def forAll (f : α → Program I (Except β Unit)) : List α → Program I (Except β Unit)
  | [] => done (.ok ())
  | a :: as =>
    (f a).bind fun
      | .ok _ => forAll f as
      | .error e => done (.error e)

end Program

end TopicSync
