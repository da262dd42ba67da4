import Mathlib.Logic.Function.Basic
import TopicSync.Program

/-!
Clients of one world. Each makes calls that are carried out by programs of another interface;
between any two requests of such a program the other clients may make theirs. A run is given by what
the clients do in it, each deed with the state that it meets. When a call ends, the requests that
its program has made since the call was started are found among the deeds of the run.
-/
namespace TopicSync

/-- A client between two calls or within one. -/
inductive Client (I J : Interface) where
  | idle
  | within (c : I.Call) (rest : Program J (I.Answer c))

/-- A world with its clients. -/
structure Shared (I J : Interface) (ι σ : Type) where
  state : σ
  clients : ι → Client I J

/-- What a client does in one step. -/
inductive Act (I J : Interface) where
  | starts (c : I.Call)
  | asks (q : J.Call)
  | ends (c : I.Call) (r : I.Answer c)

structure Deed (I J : Interface) (ι σ : Type) where
  client : ι
  act : Act I J
  met : σ

variable {I J : Interface} {ι σ α : Type}

/-- The state after a deed: only requests can change it. -/
def Deed.left (answer : (q : J.Call) → σ → J.Answer q × σ) (e : Deed I J ι σ) : σ :=
  match e.act with
  | .asks q => (answer q e.met).2
  | .starts _ | .ends _ _ => e.met

/-- The deeds are of other clients. -/
def Others (i : ι) (es : List (Deed I J ι σ)) : Prop := ∀ e ∈ es, e.client ≠ i

/-- Of these deeds only the one in the middle may be the client's, and what comes after it. -/
theorem Others.forall_own {P : Deed I J ι σ → Prop} {i : ι} {early late : List (Deed I J ι σ)}
    {e : Deed I J ι σ} (hearly : Others i early) (he : P e)
    (hlate : ∀ e' ∈ late, e'.client = i → P e') :
    ∀ e' ∈ early ++ e :: late, e'.client = i → P e' := by
  intro e' hmem hi
  rcases List.mem_append.1 hmem with hmem | hmem
  · exact absurd hi (hearly e' hmem)
  · rcases List.mem_cons.1 hmem with rfl | hmem
    · exact he
    · exact hlate e' hmem hi

/-- From one state to another each deed meets what the one before has left. -/
def Chained (answer : (q : J.Call) → σ → J.Answer q × σ) : σ → List (Deed I J ι σ) → σ → Prop
  | s, [], s' => s = s'
  | s, e :: es, s' => e.met = s ∧ Chained answer (e.left answer) es s'

theorem chained_append {answer : (q : J.Call) → σ → J.Answer q × σ} {s s' : σ}
    {es fs : List (Deed I J ι σ)} :
    Chained answer s (es ++ fs) s' ↔ ∃ u, Chained answer s es u ∧ Chained answer u fs s' := by
  induction es generalizing s with
  | nil =>
    constructor
    · exact fun h => ⟨s, rfl, h⟩
    · rintro ⟨u, rfl, h⟩
      exact h
  | cons e es ih => simp only [List.cons_append, Chained, ih, exists_and_left, and_assoc]

/-- Among the deeds are the requests that one client makes for a program, up to what is left of
it. -/
inductive Follows (answer : (q : J.Call) → σ → J.Answer q × σ) (i : ι) :
    Program J α → List (Deed I J ι σ) → Program J α → Prop where
  | nil (p : Program J α) : Follows answer i p [] p
  | other {p p' : Program J α} {e : Deed I J ι σ} {es : List (Deed I J ι σ)} (h : e.client ≠ i)
      (hrest : Follows answer i p es p') : Follows answer i p (e :: es) p'
  | ask {q : J.Call} {k : J.Answer q → Program J α} {s : σ} {p' : Program J α}
      {es : List (Deed I J ι σ)} (hrest : Follows answer i (k (answer q s).1) es p') :
      Follows answer i (.ask q k) (⟨i, .asks q, s⟩ :: es) p'

namespace Follows

variable {answer : (q : J.Call) → σ → J.Answer q × σ} {i : ι} {es : List (Deed I J ι σ)}
  {p : Program J α}

/-- A program that is done makes no more requests. -/
theorem of_done {a : α} (h : Follows answer i (.done a) es p) : p = .done a ∧ Others i es := by
  generalize hp : Program.done a = p₀ at h
  induction h with
  | nil => exact ⟨rfl, by rintro e ⟨⟩⟩
  | other hother _ ih =>
    obtain ⟨rfl, hes⟩ := ih hp
    exact ⟨rfl, List.forall_mem_cons.2 ⟨hother, hes⟩⟩
  | ask => cases hp

/-- A program that has a request to make has made it once it is done. -/
theorem of_ask {q : J.Call} {k : J.Answer q → Program J α} {a : α}
    (h : Follows answer i (.ask q k) es (.done a)) :
    ∃ early s late, es = early ++ ⟨i, .asks q, s⟩ :: late ∧ Others i early ∧
      Follows answer i (k (answer q s).1) late (.done a) := by
  generalize hp : Program.ask q k = p₀ at h
  generalize hp' : Program.done a = p' at h
  induction h with
  | nil => cases hp.trans hp'.symm
  | other hother _ ih =>
    obtain ⟨early, s, late, rfl, hearly, hlate⟩ := ih hp hp'
    exact ⟨_ :: early, s, late, rfl, List.forall_mem_cons.2 ⟨hother, hearly⟩, hlate⟩
  | ask hrest =>
    cases hp
    exact ⟨[], _, _, rfl, by rintro e ⟨⟩, hp' ▸ hrest⟩

end Follows

/-- What a client can do in a state, with what becomes of it. -/
inductive Client.Turn (carry : (c : I.Call) → Program J (I.Answer c))
    (answer : (q : J.Call) → σ → J.Answer q × σ) (s : σ) :
    Client I J → Act I J → Client I J → Prop where
  /-- Between its calls a client may make requests of its own. -/
  | request (q : J.Call) : Turn carry answer s .idle (.asks q) .idle
  | start (c : I.Call) : Turn carry answer s .idle (.starts c) (.within c (carry c))
  | ask (c : I.Call) (q : J.Call) (k : J.Answer q → Program J (I.Answer c)) :
      Turn carry answer s (.within c (.ask q k)) (.asks q) (.within c (k (answer q s).1))
  | finish (c : I.Call) (r : I.Answer c) :
      Turn carry answer s (.within c (.done r)) (.ends c r) .idle

namespace Shared

variable [DecidableEq ι] (carry : ι → (c : I.Call) → Program J (I.Answer c))
  (answer : (q : J.Call) → σ → J.Answer q × σ)

/-- A run of the clients, in any order of their steps. -/
inductive Run : Shared I J ι σ → List (Deed I J ι σ) → Shared I J ι σ → Prop where
  | nil (x : Shared I J ι σ) : Run x [] x
  | cons {x y : Shared I J ι σ} {e : Deed I J ι σ} {client : Client I J}
      {es : List (Deed I J ι σ)} (hmet : e.met = x.state)
      (hturn : (x.clients e.client).Turn (carry e.client) answer x.state e.act client)
      (hrun : Run ⟨e.left answer, Function.update x.clients e.client client⟩ es y) :
      Run x (e :: es) y

namespace Run

variable {carry answer} {x y : Shared I J ι σ} {es fs : List (Deed I J ι σ)} {i : ι} {c : I.Call}

theorem chained (h : Run carry answer x es y) : Chained answer x.state es y.state := by
  induction h with
  | nil x => rfl
  | cons hmet _ _ ih => exact ⟨hmet, ih⟩

theorem of_append (h : Run carry answer x (es ++ fs) y) :
    ∃ z, Run carry answer x es z ∧ Run carry answer z fs y := by
  induction es generalizing x with
  | nil => exact ⟨x, .nil x, h⟩
  | cons e es ih =>
    cases h with
    | cons hmet hturn hrun =>
      obtain ⟨z, hes, hfs⟩ := ih hrun
      exact ⟨z, .cons hmet hturn hes, hfs⟩

/-- A client that is within a call has started it in the run, or was within it at the beginning. -/
theorem within (h : Run carry answer x es y) {rest : Program J (I.Answer c)}
    (hy : y.clients i = .within c rest) :
    (∃ early s late, es = early ++ ⟨i, .starts c, s⟩ :: late ∧
      Follows answer i (carry i c) late rest) ∨
    ∃ p, x.clients i = .within c p ∧ Follows answer i p es rest := by
  induction h with
  | nil x => exact .inr ⟨rest, hy, .nil rest⟩
  | @cons x y e client es hmet hturn _ ih =>
    rcases ih hy with ⟨early, s, late, rfl, hlate⟩ | ⟨p, hp, hes⟩
    · exact .inl ⟨e :: early, s, late, rfl, hlate⟩
    · by_cases hi : e.client = i
      · subst hi
        obtain ⟨j, act, met⟩ := e
        dsimp only at hp hturn hmet
        subst hmet
        rw [Function.update_self] at hp
        subst hp
        generalize hj : x.clients j = before at hturn
        cases hturn with
        | start c => exact .inl ⟨[], _, es, rfl, hes⟩
        | ask c q k => exact .inr ⟨_, rfl, .ask hes⟩
      · exact .inr ⟨p, by simpa [Ne.symm hi] using hp, .other hi hes⟩

/-- A call that ends was started, and has made the requests of its program. -/
theorem of_ends {r : I.Answer c} {s : σ} (hidle : x.clients i = .idle)
    (h : Run carry answer x (es ++ ⟨i, .ends c r, s⟩ :: fs) y) :
    ∃ early start late, es = early ++ ⟨i, .starts c, start⟩ :: late ∧
      Follows answer i (carry i c) late (.done r) ∧ Chained answer start late s := by
  obtain ⟨z, hes, hrest⟩ := h.of_append
  cases hrest with
  | @cons _ _ _ client _ hmet hturn _ =>
    dsimp only at hmet hturn
    generalize hz : z.clients i = before at hturn
    cases hturn with
    | finish =>
      rcases hes.within hz with ⟨early, start, late, rfl, hlate⟩ | ⟨p, hp, -⟩
      · obtain ⟨u, -, hstart, hchain⟩ := chained_append.1 hes.chained
        exact ⟨early, start, late, rfl, hlate, hmet ▸ hchain⟩
      · cases hidle.symm.trans hp

end Run

end Shared

end TopicSync
