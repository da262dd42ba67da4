import Mathlib.Algebra.BigOperators.Group.List.Basic
import Mathlib.Data.List.Forall2
import Mathlib.Tactic.Ring
import TopicSync.Memory.Schedule
import TopicSync.Proofs.Operator.Charges
import TopicSync.Proofs.Operator.FollowUp

/-!
The counters of the loop over a whole run. A run is any order in which triggers arrive, the channel
is closed, work under way makes its next call and is answered whatever it may be, and work that has
nothing left to do leaves the loop. Every trigger that is about a topic of the users is counted
once, as an attempt or as dropped; failures and warnings are counted as they occur; and the gauge
shows at every point how many attempts are under way.
-/
namespace TopicSync

/-- The trigger is about a topic, and not about one of the brokers' own. -/
def Trigger.isExternal (t : Trigger) : Bool := t.topic?.any fun topic => !topic.isInternal

namespace Completion

def isAttempt : Completion → Bool
  | reconciled .. => true
  | _ => false

/-- An attempt that returned an error. -/
def isFailure : Completion → Bool
  | reconciled _ (.error _) => true
  | _ => false

theorem sum_charge (attempt failure : ℤ) (cs : List Completion) :
    (cs.map (charge attempt failure)).sum =
      attempt * cs.countP isAttempt + failure * cs.countP isFailure := by
  induction cs with
  | nil => simp
  | cons c cs ih =>
    rw [List.map_cons, List.sum_cons, ih, List.countP_cons, List.countP_cons]
    match c with
    | reconciled _ (.ok _) =>
      simp only [charge, isAttempt, isFailure]
      push_cast
      ring
    | reconciled _ (.error _) =>
      simp only [charge, isAttempt, isFailure]
      push_cast
      ring
    | swept _ => simp [charge, isAttempt, isFailure]
    | rejected => simp [charge, isAttempt, isFailure]

end Completion

namespace Loop

section Triggers

variable {l : Loop} {id : Nat} {w : Work} {c : Completion}

/-- A trigger about a topic of the users is dropped or begins an attempt. -/
theorem offer_balance (l : Loop) (t : Trigger) :
    (l.offer t).dropped + (l.offer t).attempts.length =
      l.dropped + l.attempts.length + [t].countP Trigger.isExternal := by
  rcases offer_cases l t with ⟨ht, w, hw, he⟩ | ⟨topic, ht, ⟨hi, he⟩ | ⟨hi, -, he⟩ | ⟨hi, -, he⟩⟩
  · rw [he, attempts_started]
    simp [started, hw, Trigger.isExternal, ht]
  · rw [he]
    simp [Trigger.isExternal, ht, hi]
  · rw [he]
    simp only [attempts, List.countP_singleton, Trigger.isExternal, ht, Option.any_some, hi]
    exact Nat.add_right_comm _ 1 _
  · rw [he, attempts_started]
    simp [started, Work.topic?, Trigger.isExternal, ht, hi, Nat.add_assoc]

theorem offerAll_balance (l : Loop) (ts : List Trigger) :
    (ts.foldl offer l).dropped + (ts.foldl offer l).attempts.length =
      l.dropped + l.attempts.length + ts.countP Trigger.isExternal := by
  induction ts generalizing l with
  | nil => rfl
  | cons t ts ih =>
    have hone := offer_balance l t
    have hcount : (t :: ts).countP Trigger.isExternal =
        [t].countP Trigger.isExternal + ts.countP Trigger.isExternal := by
      rw [← List.countP_append, List.singleton_append]
    rw [List.foldl_cons, ih, hcount]
    omega

theorem attempts_without (l : Loop) (id : Nat) (c : Completion) :
    (l.without id c).attempts = l.attempts.filter (· != id) := by
  have hne : ∀ p : Nat × Work, (p.1 != id) = decide (p.1 ≠ id) := fun p => by
    rw [Bool.eq_iff_iff, bne_iff_ne, decide_eq_true_iff]
  simp only [attempts, without, List.filter_map, List.filter_filter, Function.comp_def, hne,
    Bool.and_comm]

/-- Finished work makes one attempt less, if it was one. -/
theorem Sound.length_attempts_without (hs : l.Sound) (hw : (id, w) ∈ l.running)
    (hc : w.EndsWith c) :
    (l.without id c).attempts.length + [c].countP Completion.isAttempt = l.attempts.length := by
  have hnodup : l.attempts.Nodup := hs.numbers.sublist (List.filter_sublist.map _)
  have hother : w.topic? = none → id ∉ l.attempts := by
    intro hnone hid
    obtain ⟨topic, resource, cause, ha⟩ := mem_attempts.1 hid
    rw [hs.work_eq hw ha] at hnone
    cases hnone
  rw [attempts_without, ← hnodup.erase_eq_filter]
  cases hc with
  | attempt topic resource cause result =>
    have hid : id ∈ l.attempts := mem_attempts.2 ⟨topic, resource, cause, hw⟩
    have hpos := List.length_pos_of_mem hid
    rw [List.length_erase_of_mem hid]
    exact Nat.sub_add_cancel hpos
  | sweep subjects =>
    rw [List.erase_of_not_mem (hother rfl)]
    rfl
  | reject resource reason =>
    rw [List.erase_of_not_mem (hother rfl)]
    rfl

/-- The work under way is the work that has ended and the rest. -/
theorem Sound.running_perm (hs : l.Sound) (hw : (id, w) ∈ l.running) :
    l.running.Perm ((id, w) :: (l.without id c).running) := by
  have hnodup : l.running.Nodup := .of_map _ hs.numbers
  have hrest : l.running.erase (id, w) = (l.without id c).running := by
    rw [hnodup.erase_eq_filter, Loop.without]
    refine List.filter_congr fun p hp => ?_
    rw [Bool.eq_iff_iff, bne_iff_ne, decide_eq_true_iff]
    refine not_congr ⟨fun he => congrArg Prod.fst he, ?_⟩
    rintro rfl
    exact Prod.ext rfl (hs.work_eq hp hw)
  rw [← hrest]
  exact List.perm_cons_erase hw

/-- The ledger has an entry for each attempt under way. -/
theorem Sound.size_ledger (hs : l.Sound) : l.ledger.size = l.attempts.length := by
  have htopics : l.topics.length = l.attempts.length := by
    simp only [topics, attempts, List.length_map, List.length_filterMap_eq_countP,
      List.countP_eq_length_filter]
  have hkeys : l.ledger.causes.keys.Perm (l.topics.map TopicName.text) := by
    refine (List.perm_ext_iff_of_nodup l.ledger.causes.nodup_keys
      (hs.single.map fun a b h => TopicName.ext h)).2 fun text => ?_
    rw [← TextMap.contains_iff_mem_keys, TextMap.contains, Option.isSome_iff_exists, List.mem_map]
    constructor
    · rintro ⟨cause, hcause⟩
      obtain ⟨id, topic, resource, hp, ht⟩ := (hs.causes text cause).1 hcause
      exact ⟨topic, mem_topics.2 ⟨id, resource, cause, hp⟩, ht⟩
    · rintro ⟨topic, ht, rfl⟩
      obtain ⟨id, resource, cause, hp⟩ := mem_topics.1 ht
      exact ⟨cause, (hs.causes _ _).2 ⟨id, topic, resource, hp, rfl⟩⟩
  have hlength := hkeys.length_eq
  rw [List.length_map, htopics, TextMap.keys, List.length_map] at hlength
  exact hlength

end Triggers

/-- The triggers that an event offers for admission. -/
def Event.triggers : Event → List Trigger
  | offered t => [t]
  | closed => []
  | finished _ c => c.followUps

def Event.completion? : Event → Option Completion
  | finished _ c => some c
  | _ => none

namespace History

variable {o : Operator} {h : History}

/-- All triggers that were offered for admission: those that arrived, and those that finished work
gave rise to. -/
def triggers (h : History) : List Trigger := h.flatMap Event.triggers

/-- How finished work has ended. -/
def completions (h : History) : List Completion := h.filterMap Event.completion?

/-- Every trigger about a topic of the users was dropped, or began an attempt, which has ended or is
under way. -/
theorem triggers_balance (hp : h.Possible o) :
    h.triggers.countP Trigger.isExternal =
      h.loop.dropped + h.completions.countP Completion.isAttempt + h.loop.attempts.length := by
  induction hp with
  | start => rfl
  | @offered h t past ho ih =>
    have hoffer := offer_balance h.loop t
    have hcount : triggers (.offered t :: h) = [t] ++ h.triggers := rfl
    have hends : completions (.offered t :: h) = h.completions := rfl
    rw [hcount, List.countP_append, ih, hends, loop]
    omega
  | closed past ho ih => exact ih
  | @finished h id w c past hw hc ih =>
    have hended := Work.endsWith_of_yields hc
    have hwithout := (sound_loop past).length_attempts_without hw hended
    have hoffers := offerAll_balance (h.loop.without id c) c.followUps
    have hdropped : (h.loop.without id c).dropped = h.loop.dropped := rfl
    have hcount : triggers (.finished id c :: h) = c.followUps ++ h.triggers := rfl
    have hends : completions (.finished id c :: h) = [c] ++ h.completions := rfl
    have hloop : loop (.finished id c :: h) = c.followUps.foldl offer (h.loop.without id c) := rfl
    rw [hcount, List.countP_append, ih, hends, List.countP_append, hloop]
    omega

end History

/-- New work, under numbers that were not given out before. -/
structure TakesUp (before after : Loop) (new : List (Nat × Work)) : Prop where
  running : after.running = before.running ++ new
  fresh : ∀ p ∈ new, before.next ≤ p.1
  next : before.next ≤ after.next
  dropped : before.dropped ≤ after.dropped

namespace TakesUp

theorem refl (l : Loop) : TakesUp l l [] :=
  ⟨(List.append_nil _).symm, by simp, Nat.le_refl _, Nat.le_refl _⟩

theorem started (l : Loop) (w : Work) (ledger : Ledger) :
    TakesUp l (l.started w ledger) [(l.next, w)] :=
  ⟨rfl, by simp, Nat.le_succ _, Nat.le_refl _⟩

theorem offer (l : Loop) (t : Trigger) : ∃ new, TakesUp l (l.offer t) new := by
  rcases offer_cases l t with ⟨-, w, -, he⟩ | ⟨topic, -, ⟨-, he⟩ | ⟨-, -, he⟩ | ⟨-, -, he⟩⟩
  · rw [he]
    exact ⟨_, started l w _⟩
  · rw [he]
    exact ⟨_, refl l⟩
  · rw [he]
    exact ⟨[], (List.append_nil _).symm, by simp, Nat.le_refl _, Nat.le_succ _⟩
  · rw [he]
    exact ⟨_, started l _ _⟩

theorem offerAll (l : Loop) (ts : List Trigger) : ∃ new, TakesUp l (ts.foldl Loop.offer l) new := by
  induction ts generalizing l with
  | nil => exact ⟨_, refl l⟩
  | cons t ts ih =>
    obtain ⟨first, hf⟩ := offer l t
    obtain ⟨rest, hr⟩ := ih (l.offer t)
    refine ⟨first ++ rest, ?_, ?_, hf.next.trans hr.next, hf.dropped.trans hr.dropped⟩
    · rw [List.foldl_cons, hr.running, hf.running, List.append_assoc]
    · intro p hp
      rcases List.mem_append.1 hp with hp | hp
      · exact hf.fresh p hp
      · exact hf.next.trans (hr.fresh p hp)

end TakesUp

end Loop

namespace Memory.Counters

/-- The counters when the loop has gone on: drops are counted and the gauge is set. -/
def moveOn (c : Counters) (before after : Loop) : Counters :=
  gauge { c with droppedTriggers := c.droppedTriggers + (after.dropped - before.dropped) }
    after.ledger.size

/-- The counters after a call. -/
def note (c : Counters) : OperatorCall → Counters
  | .count m => c.count m
  | _ => c

end Memory.Counters

namespace OperatorCall

/-- The call hands a warning event to the cluster. -/
def isWarning : OperatorCall → Bool
  | warn _ => true
  | _ => false

end OperatorCall

namespace Loop

open Memory (Counters Piece)
open Memory.Schedule (newPieces)
open OperatorCall (weight)

/-- What there is to know of a run so far: what has happened to the loop, the calls that its work
has made, the latest first, how the counters stand, and what is left of the work under way. -/
structure Books where
  history : History
  calls : List OperatorCall
  counters : Counters
  pieces : List Piece

namespace Books

/-- An event in the loop: with what is left of the old work, the new work is under way. -/
def turn (o : Operator) (b : Books) (e : Event) (rest : List Piece) : Books where
  history := e :: b.history
  calls := b.calls
  counters := b.counters.moveOn b.history.loop (History.loop (e :: b.history))
  pieces := rest ++ newPieces o b.history.loop (History.loop (e :: b.history))

/-- A call of a piece of work. -/
def call (b : Books) (c : OperatorCall) (pieces : List Piece) : Books :=
  { b with calls := c :: b.calls, counters := b.counters.note c, pieces := pieces }

/-- The books of a run. Any piece of work can be the next to go on, and its call may be answered in
any way. -/
inductive Kept (o : Operator) : Books → Prop where
  | start : Kept o ⟨[], [], .zero, []⟩
  | offered {b : Books} (t : Trigger) (past : Kept o b) (ho : b.history.isOpen = true) :
      Kept o (b.turn o (.offered t) b.pieces)
  | closed {b : Books} (past : Kept o b) (ho : b.history.isOpen = true) :
      Kept o (b.turn o .closed b.pieces)
  | called {b : Books} {id : Nat} {c : OperatorCall} {k : c.Answer → Task Completion}
      {rest : List Piece} (past : Kept o b) (hp : b.pieces.Perm (⟨id, .ask c k⟩ :: rest))
      (r : c.Answer) : Kept o (b.call c (⟨id, k r⟩ :: rest))
  | finished {b : Books} {id : Nat} {c : Completion} {rest : List Piece} (past : Kept o b)
      (hp : b.pieces.Perm (⟨id, .done c⟩ :: rest)) : Kept o (b.turn o (.finished id c) rest)

section Work

variable {o : Operator} {b : Books} {rest : List Piece} {e : Event} {l : Loop}
  {new : List (Nat × Work)}

/-- The piece is what is left of work under way. -/
def IsLeft (o : Operator) (l : Loop) (p : Piece) : Prop :=
  ∃ w, (p.id, w) ∈ l.running ∧ ∀ c, p.rest.Yields c → (w.task o).Yields c

/-- The pieces are those of the work under way, which can come about. -/
structure Matches (o : Operator) (b : Books) : Prop where
  possible : b.history.Possible o
  numbers : (b.pieces.map Piece.id).Perm (b.history.loop.running.map Prod.fst)
  left : ∀ p ∈ b.pieces, IsLeft o b.history.loop p

theorem newPieces_eq {before after : Loop} (h : TakesUp l after new) (hn : l.next = before.next)
    (hold : ∀ p ∈ l.running, p.1 < before.next) :
    newPieces o before after = new.map fun p => ⟨p.1, p.2.task o⟩ := by
  have hgone : l.running.filter (fun w => before.next ≤ w.1) = [] :=
    List.filter_eq_nil_iff.2 fun p hp => by simpa using hold p hp
  have hkept : new.filter (fun w => before.next ≤ w.1) = new :=
    List.filter_eq_self.2 fun p hp => by simpa [← hn] using h.fresh p hp
  rw [newPieces, h.running, List.filter_append, hgone, hkept, List.nil_append]

/-- An event leaves some work under way and adds more, of which nothing has been done. -/
theorem Matches.turn (hb : b.Matches o) (hp : History.Possible o (e :: b.history))
    (hn : l.next = b.history.loop.next) (hl : ∀ p ∈ l.running, p ∈ b.history.loop.running)
    (ht : TakesUp l (History.loop (e :: b.history)) new)
    (hnumbers : (rest.map Piece.id).Perm (l.running.map Prod.fst))
    (hleft : ∀ p ∈ rest, IsLeft o l p) : (b.turn o e rest).Matches o := by
  have hold : ∀ p ∈ l.running, p.1 < b.history.loop.next :=
    fun p hp => (History.sound_loop hb.possible).fresh p (hl p hp)
  have hnew := newPieces_eq (o := o) ht hn hold
  refine ⟨hp, ?_, fun p hp => ?_⟩
  · rw [Books.turn, hnew, ht.running, List.map_append, List.map_append, List.map_map]
    exact hnumbers.append_right _
  · rw [Books.turn, hnew] at hp
    rw [IsLeft, Books.turn, ht.running]
    rcases List.mem_append.1 hp with hp | hp
    · obtain ⟨w, hw, hy⟩ := hleft p hp
      exact ⟨w, List.mem_append_left _ hw, hy⟩
    · obtain ⟨q, hq, rfl⟩ := List.mem_map.1 hp
      exact ⟨q.2, List.mem_append_right _ hq, fun _ h => h⟩

/-- What is left of the work under way when a piece of it has ended. -/
theorem Matches.without (hb : b.Matches o) {id : Nat} {c : Completion}
    (hp : b.pieces.Perm (⟨id, .done c⟩ :: rest)) :
    (rest.map Piece.id).Perm ((b.history.loop.without id c).running.map Prod.fst) ∧
      ∀ p ∈ rest, IsLeft o (b.history.loop.without id c) p := by
  have hnumbers := (hp.map Piece.id).symm.trans hb.numbers
  have hnodup := hnumbers.nodup_iff.2 (History.sound_loop hb.possible).numbers
  rw [List.map_cons] at hnumbers hnodup
  obtain ⟨hfresh, -⟩ := List.nodup_cons.1 hnodup
  have hne : ∀ p ∈ rest, p.id ≠ id := fun p hp he => hfresh (List.mem_map.2 ⟨p, hp, he⟩)
  constructor
  · have hrest : (rest.map Piece.id).filter (· ≠ id) = rest.map Piece.id :=
      List.filter_eq_self.2 fun i hi => by
        obtain ⟨p, hp, rfl⟩ := List.mem_map.1 hi
        simpa using hne p hp
    have hfilter := hnumbers.filter (· ≠ id)
    rw [List.filter_cons_of_neg (by simp), hrest, List.filter_map] at hfilter
    exact hfilter
  · intro p hm
    obtain ⟨w, hw, hy⟩ := hb.left p (hp.mem_iff.2 (.tail _ hm))
    exact ⟨w, List.mem_filter.2 ⟨hw, by simpa using hne p hm⟩, hy⟩

theorem matches_of_kept (h : b.Kept o) : b.Matches o := by
  induction h with
  | start => exact ⟨.start, .refl _, by rintro p ⟨⟩⟩
  | offered t past ho ih =>
    obtain ⟨new, ht⟩ := TakesUp.offer _ t
    exact ih.turn (.offered t ih.possible ho) rfl (fun _ h => h) ht ih.numbers ih.left
  | closed past ho ih =>
    exact ih.turn (.closed ih.possible ho) rfl (fun _ h => h) (TakesUp.refl _) ih.numbers ih.left
  | @called b id c k rest past hp r ih =>
    refine ⟨ih.possible, (hp.map Piece.id).symm.trans ih.numbers, fun p hm => ?_⟩
    rcases List.mem_cons.1 hm with rfl | hm
    · obtain ⟨w, hw, hy⟩ := ih.left ⟨id, .ask c k⟩ (hp.mem_iff.2 (.head _))
      exact ⟨w, hw, fun a ha => hy a (.ask r ha)⟩
    · exact ih.left p (hp.mem_iff.2 (.tail _ hm))
  | @finished b id c rest past hp ih =>
    obtain ⟨hnumbers, hleft⟩ := ih.without hp
    obtain ⟨w, hw, hy⟩ := ih.left ⟨id, .done c⟩ (hp.mem_iff.2 (.head _))
    obtain ⟨new, ht⟩ := TakesUp.offerAll (b.history.loop.without id c) c.followUps
    exact ih.turn (l := b.history.loop.without id c) (.finished ih.possible hw (hy c (.done c))) rfl
      (fun _ hp => List.mem_of_mem_filter hp) ht hnumbers hleft

end Work

section Balance

variable {o : Operator} {b : Books} {rest : List Piece} {e : Event} {x y z d : ℤ}

/-- What has been counted comes to: attempts, failures, warnings less those that were published, and
drops less those of the loop, each by weight. -/
def total (x y z d : ℤ) (b : Books) : ℤ :=
  x * b.counters.reconciliations + y * b.counters.errors +
    z * (b.counters.warningEvents - b.calls.countP OperatorCall.isWarning) +
    d * (b.counters.droppedTriggers - b.history.loop.dropped)

theorem total_call (x y z d : ℤ) (b : Books) (c : OperatorCall) (pieces : List Piece) :
    (b.call c pieces).total x y z d = b.total x y z d + weight x y z d c := by
  rw [total, total, call, List.countP_cons]
  cases c with
  | count m =>
    cases m <;>
      simp only [Counters.note, Counters.count, OperatorCall.isWarning, weight] <;>
      push_cast <;>
      ring
  | warn v =>
    simp only [Counters.note, OperatorCall.isWarning, weight]
    push_cast
    ring
  | _ => simp [Counters.note, OperatorCall.isWarning, weight]

/-- The drops of the loop are counted as they occur. -/
theorem total_turn (o : Operator)
    (h : b.history.loop.dropped ≤ (History.loop (e :: b.history)).dropped) :
    (b.turn o e rest).total x y z d = b.total x y z d := by
  simp only [total, turn, Counters.moveOn, Counters.gauge]
  push_cast [h]
  ring

/-- The program, after it has counted some, counts what is due for the way it ends. -/
abbrev Owes (x y z d : ℤ) (p : Piece) (spent : ℤ) : Prop :=
  Program.AddsUp (weight x y z d) (Completion.charge x y) spent p.rest

/-- All that has been counted was due for finished work, or was spent by work under way. -/
structure Balances (x y z d : ℤ) (b : Books) (spent : List ℤ) : Prop where
  owes : List.Forall₂ (Owes x y z d) b.pieces spent
  total_eq : b.total x y z d =
    (b.history.completions.map (Completion.charge x y)).sum + spent.sum

/-- New work has spent nothing. -/
theorem owes_newPieces (o : Operator) (before after : Loop) :
    List.Forall₂ (Owes x y z d) (newPieces o before after)
      ((newPieces o before after).map fun _ => 0) := by
  refine List.forall₂_map_right_iff.2 (List.forall₂_same.2 fun p hp => ?_)
  obtain ⟨w, -, rfl⟩ := List.mem_map.1 hp
  exact Work.addsUp_task x y z d o w.2

theorem balances_turn {spent : List ℤ}
    (h : b.history.loop.dropped ≤ (History.loop (e :: b.history)).dropped)
    (howes : List.Forall₂ (Owes x y z d) rest spent)
    (htotal : b.total x y z d =
      ((History.completions (e :: b.history)).map (Completion.charge x y)).sum + spent.sum) :
    ∃ spent', (b.turn o e rest).Balances x y z d spent' := by
  refine ⟨_, List.rel_append howes (owes_newPieces o _ _), ?_⟩
  rw [total_turn o h, List.sum_append, List.sum_map_zero, add_zero]
  exact htotal

theorem balances_of_kept (x y z d : ℤ) (h : b.Kept o) : ∃ spent, b.Balances x y z d spent := by
  induction h with
  | start =>
    exact ⟨[], .nil, by simp [total, Counters.zero, History.completions, History.loop, empty]⟩
  | offered t past ho ih =>
    obtain ⟨spent, hspent⟩ := ih
    obtain ⟨new, ht⟩ := TakesUp.offer _ t
    exact balances_turn ht.dropped hspent.owes hspent.total_eq
  | closed past ho ih =>
    obtain ⟨spent, hspent⟩ := ih
    exact balances_turn (Nat.le_refl _) hspent.owes hspent.total_eq
  | @called b id c k rest past hp r ih =>
    obtain ⟨spent, hspent⟩ := ih
    obtain ⟨_, hperm, hsame⟩ := List.perm_comp_forall₂ hp.symm hspent.owes
    obtain ⟨n, others, hn, hothers, rfl⟩ := List.forall₂_cons_left_iff.1 hperm
    refine ⟨(n + weight x y z d c) :: others, .cons (Program.AddsUp.of_ask hn r) hothers, ?_⟩
    have hsum := hsame.sum_eq
    rw [List.sum_cons] at hsum
    rw [total_call, hspent.total_eq, ← hsum, List.sum_cons]
    change _ = (List.map (Completion.charge x y) b.history.completions).sum + _
    ring
  | @finished b id c rest past hp ih =>
    obtain ⟨spent, hspent⟩ := ih
    obtain ⟨_, hperm, hsame⟩ := List.perm_comp_forall₂ hp.symm hspent.owes
    obtain ⟨n, others, hn, hothers, rfl⟩ := List.forall₂_cons_left_iff.1 hperm
    have hdue : c.charge x y = n := Program.AddsUp.done_iff.1 hn
    have hends : History.completions (.finished id c :: b.history) = c :: b.history.completions :=
      rfl
    obtain ⟨new, ht⟩ := TakesUp.offerAll (b.history.loop.without id c) c.followUps
    refine balances_turn ht.dropped hothers ?_
    rw [hends, List.map_cons, List.sum_cons, hspent.total_eq, ← hsame.sum_eq, List.sum_cons, hdue]
    ring

end Balance

section Accounts

variable {o : Operator} {b : Books}

theorem gauge_of_kept (h : b.Kept o) :
    b.counters.lastInFlight = b.history.loop.ledger.size := by
  induction h with
  | @called b id c k rest past hp r ih =>
    cases c with
    | count m => cases m <;> exact ih
    | _ => exact ih
  | _ => rfl

/-- When all work has ended, all that was counted was due for it. -/
theorem counters_of_idle (h : b.Kept o) (hidle : b.history.loop.running = []) :
    b.counters.reconciliations = b.history.completions.countP Completion.isAttempt ∧
      b.counters.errors = b.history.completions.countP Completion.isFailure ∧
      b.counters.warningEvents = b.calls.countP OperatorCall.isWarning ∧
      b.counters.droppedTriggers = b.history.loop.dropped := by
  have hpieces : b.pieces = [] := by
    have hnumbers := (matches_of_kept h).numbers
    rw [hidle] at hnumbers
    exact List.map_eq_nil_iff.1 hnumbers.eq_nil
  have hbalance : ∀ x y z d : ℤ, b.total x y z d =
      x * b.history.completions.countP Completion.isAttempt +
        y * b.history.completions.countP Completion.isFailure := by
    intro x y z d
    obtain ⟨spent, howes, htotal⟩ := balances_of_kept x y z d h
    rw [hpieces] at howes
    cases howes
    rw [htotal, Completion.sum_charge, List.sum_nil, add_zero]
  have hattempts := hbalance 1 0 0 0
  have hfailures := hbalance 0 1 0 0
  have hwarnings := hbalance 0 0 1 0
  have hdrops := hbalance 0 0 0 1
  simp only [total, one_mul, zero_mul, add_zero, zero_add] at hattempts hfailures hwarnings hdrops
  omega

/-- A piece may be answered until it has nothing left to do. -/
theorem Kept.answered {id : Nat} {rest : List Piece} {p : Task Completion} {c : Completion}
    (h : b.Kept o) (hp : b.pieces.Perm (⟨id, p⟩ :: rest)) (hy : p.Yields c) :
    ∃ b' : Books, b'.Kept o ∧ b'.history = b.history ∧
      b'.pieces.Perm (⟨id, .done c⟩ :: rest) := by
  induction hy generalizing b with
  | done c => exact ⟨b, h, rfl, hp⟩
  | ask r _ ih =>
    obtain ⟨b', hb', hhistory, hpieces⟩ := ih (h.called hp r) (.refl _)
    exact ⟨b', hb', hhistory, hpieces⟩

/-- The work under way, of which nothing has been done. -/
def untouched (o : Operator) (l : Loop) : List Piece := l.running.map fun p => ⟨p.1, p.2.task o⟩

theorem untouched_turn {l before after : Loop} {new : List (Nat × Work)} {rest : List Piece}
    (ht : TakesUp l after new) (hn : l.next = before.next)
    (hold : ∀ p ∈ l.running, p.1 < before.next) (hrest : rest.Perm (untouched o l)) :
    (rest ++ newPieces o before after).Perm (untouched o after) := by
  rw [newPieces_eq ht hn hold, untouched, ht.running, List.map_append]
  exact hrest.append_right _

/-- Every run of the loop has books, which are kept as if each piece of work were only begun when
all that it asks can be answered. -/
theorem exists_kept {h : History} (hp : h.Possible o) :
    ∃ b : Books, b.Kept o ∧ b.history = h ∧ b.pieces.Perm (untouched o h.loop) := by
  induction hp with
  | start => exact ⟨_, .start, rfl, .refl _⟩
  | @offered h t past ho ih =>
    obtain ⟨b, hb, rfl, hpieces⟩ := ih
    obtain ⟨new, ht⟩ := TakesUp.offer b.history.loop t
    have hs := History.sound_loop past
    exact ⟨_, .offered t hb ho, rfl, untouched_turn ht rfl hs.fresh hpieces⟩
  | @closed h past ho ih =>
    obtain ⟨b, hb, rfl, hpieces⟩ := ih
    have hs := History.sound_loop past
    exact ⟨_, .closed hb ho, rfl, untouched_turn (TakesUp.refl _) rfl hs.fresh hpieces⟩
  | @finished h id w c past hw hc ih =>
    obtain ⟨b, hb, rfl, hpieces⟩ := ih
    have hs := History.sound_loop past
    have hrunning := (hs.running_perm (c := c) hw).map fun p => (⟨p.1, p.2.task o⟩ : Piece)
    obtain ⟨b', hb', hhistory, hdone⟩ := hb.answered (hpieces.trans hrunning) hc
    obtain ⟨new, ht⟩ := TakesUp.offerAll (b.history.loop.without id c) c.followUps
    refine ⟨_, .finished hb' hdone, congrArg _ hhistory, ?_⟩
    rw [← hhistory] at ht hs ⊢
    exact untouched_turn (l := b'.history.loop.without id c) ht rfl
      (fun p hp => hs.fresh p (List.mem_of_mem_filter hp)) (.refl _)

/-- At every point of every run the gauge shows how many attempts are under way. When the loop has
ended, as many triggers about topics of the users were offered as attempts and drops were counted;
as many failures were counted as attempts returned an error, and as many warnings as were handed to
the cluster; and the gauge shows none. -/
theorem accounts_balance (h : b.Kept o) :
    b.counters.lastInFlight = b.history.loop.attempts.length ∧
      (b.history.Ended →
        b.history.triggers.countP Trigger.isExternal =
            b.counters.reconciliations + b.counters.droppedTriggers ∧
          b.counters.errors = b.history.completions.countP Completion.isFailure ∧
          b.counters.warningEvents = b.calls.countP OperatorCall.isWarning ∧
          b.counters.lastInFlight = 0) := by
  have hpossible := (matches_of_kept h).possible
  have hinflight : b.counters.lastInFlight = b.history.loop.attempts.length :=
    (gauge_of_kept h).trans (History.sound_loop hpossible).size_ledger
  refine ⟨hinflight, fun hended => ?_⟩
  have htriggers := History.triggers_balance hpossible
  obtain ⟨hattempts, herrors, hwarnings, hdrops⟩ := counters_of_idle h hended.2
  have hnone : b.history.loop.attempts.length = 0 := by
    rw [attempts, hended.2]
    rfl
  exact ⟨by omega, herrors, hwarnings, hinflight.trans hnone⟩

/-- Of two triggers for one topic one is an attempt, which fails, and one is dropped. -/
theorem accounts_balance_unreadableStore :
    ∃ b : Books, b.Kept ⟨.managed, .default⟩ ∧ b.history.Ended ∧
      b.history.triggers.countP Trigger.isExternal = 2 ∧ b.counters.reconciliations = 1 ∧
      b.counters.droppedTriggers = 1 ∧ b.counters.errors = 1 ∧
      b.counters.warningEvents = b.calls.countP OperatorCall.isWarning ∧
      b.counters.lastInFlight = 0 := by
  have hpossible : (History.unreadableStore ⟨"orders", by decide⟩).Possible ⟨.managed, .default⟩ :=
    History.possible_unreadableStore (by decide)
  obtain ⟨b, hb, hhistory, -⟩ := exists_kept hpossible
  have hended : b.history.Ended := by
    rw [hhistory]
    exact ⟨rfl, by decide +kernel⟩
  have hoffered : b.history.triggers.countP Trigger.isExternal = 2 := by
    rw [hhistory]
    decide +kernel
  have hdropped : b.counters.droppedTriggers = 1 := by
    rw [(counters_of_idle hb hended.2).2.2.2, hhistory]
    decide +kernel
  have hfailures : b.history.completions.countP Completion.isFailure = 1 := by
    rw [hhistory]
    rfl
  obtain ⟨htriggers, herrors, hwarnings, hgauge⟩ := (accounts_balance hb).2 hended
  exact ⟨b, hb, hended, hoffered, by omega, hdropped, by omega, hwarnings, hgauge⟩

end Accounts

end Books

end Loop

end TopicSync
