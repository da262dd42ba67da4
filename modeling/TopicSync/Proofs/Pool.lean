import TopicSync.Proofs.Interleaving

/-!
A pool of programs that run at the same time. Their calls are carried out by programs of another
interface, request by request; between any two requests another program may go on, others may change
the world, a program may be added, and one may be lost. What each program does can be told from what
it was answered before, whatever the rest of the pool and the others are up to.
-/
namespace TopicSync

variable {I J : Interface} {α β σ : Type}

namespace Program

/-- What a program has been told: the calls that it has made, with their answers. -/
abbrev Told (I : Interface) : Type := List (Σ c : I.Call, I.Answer c)

/-- Every call of the program has a property that may depend on what the program was told before. -/
inductive OnlyAfter (P : Told I → I.Call → Prop) : Told I → Program I α → Prop where
  | done (told : Told I) (a : α) : OnlyAfter P told (done a)
  | ask {told : Told I} {c : I.Call} {k : I.Answer c → Program I α} (hc : P told c)
      (hk : ∀ r, OnlyAfter P (told ++ [⟨c, r⟩]) (k r)) : OnlyAfter P told (ask c k)

namespace OnlyAfter

variable {P : Told I → I.Call → Prop} {Q : I.Call → Prop} {told : Told I}

theorem bind {p : Program I α} {f : α → Program I β} (hp : OnlyAfter P told p)
    (hf : ∀ a later, OnlyAfter P (told ++ later) (f a)) : OnlyAfter P told (p.bind f) := by
  induction hp with
  | done told a =>
    have hrest := hf a []
    rwa [List.append_nil] at hrest
  | ask hc _ ih =>
    refine .ask hc fun r => ih r fun a later => ?_
    rw [List.append_assoc]
    exact hf a _

/-- A property that does not depend on what was told holds whatever was told. -/
theorem of_only {p : Program I α} (hp : p.Only Q) (h : ∀ c later, Q c → P (told ++ later) c) :
    OnlyAfter P told p := by
  induction hp generalizing told with
  | done a => exact .done _ a
  | ask hc _ ih =>
    refine .ask (by simpa using h _ [] hc) fun r => ih r fun c later hc' => ?_
    rw [List.append_assoc]
    exact h c _ hc'

end OnlyAfter

end Program

open Program (Told OnlyAfter)

/-- A program of a pool, between two calls or within one. -/
inductive Running (I J : Interface) (α : Type) where
  | between (told : Told I) (p : Program I α)
  | within (told : Told I) (c : I.Call) (talk : Program J (I.Answer c))
      (next : I.Answer c → Program I α)

structure Pool (I J : Interface) (α σ : Type) where
  state : σ
  running : List (Running I J α)

namespace Pool

/-- A request as it is made: what its program has been told by then, and the state it meets. -/
structure Moment (I J : Interface) (σ : Type) where
  told : Told I
  request : J.Call
  state : σ

variable (carry : (c : I.Call) → Program J (I.Answer c))
  (answer : (c : J.Call) → σ → J.Answer c × σ) (starts : Program I α → Prop)

/-- One step of a pool, with the request that is made in it, if one is. -/
inductive Step : Pool I J α σ → List (Moment I J σ) → Pool I J α σ → Prop where
  /-- Others change the world. -/
  | others (s s' : σ) (rs : List (Running I J α)) : Step ⟨s, rs⟩ [] ⟨s', rs⟩
  | start {p : Program I α} (h : starts p) (s : σ) (rs : List (Running I J α)) :
      Step ⟨s, rs⟩ [] ⟨s, .between [] p :: rs⟩
  | lost (s : σ) (before after : List (Running I J α)) (r : Running I J α) :
      Step ⟨s, before ++ r :: after⟩ [] ⟨s, before ++ after⟩
  | call (s : σ) (before after : List (Running I J α)) (told : Told I) (c : I.Call)
      (next : I.Answer c → Program I α) :
      Step ⟨s, before ++ .between told (.ask c next) :: after⟩ []
        ⟨s, before ++ .within told c (carry c) next :: after⟩
  | request (s : σ) (before after : List (Running I J α)) (told : Told I) (c : I.Call) (q : J.Call)
      (k : J.Answer q → Program J (I.Answer c)) (next : I.Answer c → Program I α) :
      Step ⟨s, before ++ .within told c (.ask q k) next :: after⟩ [⟨told, q, s⟩]
        ⟨(answer q s).2, before ++ .within told c (k (answer q s).1) next :: after⟩
  | answered (s : σ) (before after : List (Running I J α)) (told : Told I) (c : I.Call)
      (r : I.Answer c) (next : I.Answer c → Program I α) :
      Step ⟨s, before ++ .within told c (.done r) next :: after⟩ []
        ⟨s, before ++ .between (told ++ [⟨c, r⟩]) (next r) :: after⟩

/-- A run of a pool, with the requests that are made in it. -/
inductive Run : Pool I J α σ → List (Moment I J σ) → Pool I J α σ → Prop where
  | nil (x : Pool I J α σ) : Run x [] x
  | cons {x y z : Pool I J α σ} {ms ns : List (Moment I J σ)} (h : Step carry answer starts x ms y)
      (hr : Run y ns z) : Run x (ms ++ ns) z

variable {carry answer starts}

section Requests

variable {P : Told I → I.Call → Prop} {S : I.Call → J.Call → Prop}

/-- The program keeps to its calls, and those are carried out by their requests. -/
def Keeps (P : Told I → I.Call → Prop) (S : I.Call → J.Call → Prop) : Running I J α → Prop
  | .between told p => p.OnlyAfter P told
  | .within told c talk next =>
    P told c ∧ talk.Only (S c) ∧ ∀ r, (next r).OnlyAfter P (told ++ [⟨c, r⟩])

theorem forall_replace {R : Running I J α → Prop} {before after : List (Running I J α)}
    {r r' : Running I J α} (h : ∀ x ∈ before ++ r :: after, R x) (hr : R r → R r') :
    ∀ x ∈ before ++ r' :: after, R x := by
  intro x hx
  rcases List.mem_append.1 hx with hx | hx
  · exact h x (List.mem_append_left _ hx)
  · rcases List.mem_cons.1 hx with rfl | hx
    · exact hr (h r (by simp))
    · exact h x (List.mem_append_right _ (.tail _ hx))

/-- A step keeps the programs to their calls, and makes a request that is part of one. -/
theorem Step.keeps (hcarry : ∀ c, (carry c).Only (S c))
    (hstarts : ∀ p, starts p → p.OnlyAfter P []) {x y : Pool I J α σ} {ms : List (Moment I J σ)}
    (h : Step carry answer starts x ms y) (hx : ∀ r ∈ x.running, Keeps P S r) :
    (∀ r ∈ y.running, Keeps P S r) ∧ ∀ m ∈ ms, ∃ c, P m.told c ∧ S c m.request := by
  cases h with
  | others s s' rs => exact ⟨hx, by rintro m ⟨⟩⟩
  | start hp s rs =>
    refine ⟨fun r hr => ?_, by rintro m ⟨⟩⟩
    rcases List.mem_cons.1 hr with rfl | hr
    · exact hstarts _ hp
    · exact hx r hr
  | lost s before after r =>
    refine ⟨fun r' hr' => hx r' ?_, by rintro m ⟨⟩⟩
    rcases List.mem_append.1 hr' with hr' | hr'
    · exact List.mem_append_left _ hr'
    · exact List.mem_append_right _ (.tail _ hr')
  | call s before after told c next =>
    refine ⟨forall_replace hx fun hr => ?_, by rintro m ⟨⟩⟩
    cases hr with
    | ask hc hk => exact ⟨hc, hcarry c, hk⟩
  | request s before after told c q k next =>
    obtain ⟨hc, htalk, hnext⟩ := hx (.within told c (.ask q k) next) (by simp)
    cases htalk with
    | ask hq hk =>
      refine ⟨forall_replace hx fun _ => ⟨hc, hk _, hnext⟩, fun m hm => ?_⟩
      rw [List.mem_singleton.1 hm]
      exact ⟨c, hc, hq⟩
  | answered s before after told c r next =>
    exact ⟨forall_replace hx fun hr => hr.2.2 r, by rintro m ⟨⟩⟩

/-- Each request of a run is part of a call that its program may make, given what it was told. -/
theorem Run.requests (hcarry : ∀ c, (carry c).Only (S c))
    (hstarts : ∀ p, starts p → p.OnlyAfter P []) {x y : Pool I J α σ} {ms : List (Moment I J σ)}
    (h : Run carry answer starts x ms y) (hx : ∀ r ∈ x.running, Keeps P S r) :
    ∀ m ∈ ms, ∃ c, P m.told c ∧ S c m.request := by
  induction h with
  | nil x => rintro m ⟨⟩
  | cons hstep _ ih =>
    obtain ⟨hy, hms⟩ := hstep.keeps hcarry hstarts hx
    intro m hm
    rcases List.mem_append.1 hm with hm | hm
    · exact hms m hm
    · exact ih hy m hm

end Requests

section Alone

theorem Run.trans {x y z : Pool I J α σ} {ms ns : List (Moment I J σ)}
    (h : Run carry answer starts x ms y) (h' : Run carry answer starts y ns z) :
    Run carry answer starts x (ms ++ ns) z := by
  induction h with
  | nil x => exact h'
  | cons hstep _ ih =>
    rw [List.append_assoc]
    exact .cons hstep (ih h')

/-- A call that nothing gets in the way of is carried out as usual. -/
theorem run_within (told : Told I) (c : I.Call) (talk : Program J (I.Answer c))
    (next : I.Answer c → Program I α) (s : σ) :
    Run carry answer starts ⟨s, [.within told c talk next]⟩
      ((talk.moments answer s).map fun m => ⟨told, m.1, m.2⟩)
      ⟨(talk.run answer s).2,
        [.between (told ++ [⟨c, (talk.run answer s).1⟩]) (next (talk.run answer s).1)]⟩ := by
  induction talk generalizing s with
  | done r => exact .cons (.answered s [] [] told c r next) (.nil _)
  | ask q k ih => exact .cons (.request s [] [] told c q k next) (ih _ _)

variable (carry answer starts) in
/-- A program that is left alone makes the requests that it makes by itself. -/
theorem run_between (told : Told I) (p : Program I α) (s : σ) :
    ∃ ms x, Run carry answer starts ⟨s, [.between told p]⟩ ms x ∧
      ms.map (fun m => (m.request, m.state)) = (p.translate carry).moments answer s := by
  induction p generalizing told s with
  | done a => exact ⟨[], _, .nil _, rfl⟩
  | ask c k ih =>
    obtain ⟨ms, x, hrun, hms⟩ := ih ((carry c).run answer s).1
      (told ++ [⟨c, ((carry c).run answer s).1⟩]) ((carry c).run answer s).2
    refine ⟨_, x, .cons (.call s [] [] told c k)
      ((run_within told c (carry c) k s).trans hrun), ?_⟩
    rw [Program.translate, Program.moments_bind, List.nil_append, List.map_append, hms,
      List.map_map]
    simp [Function.comp_def]

end Alone

end Pool

end TopicSync
