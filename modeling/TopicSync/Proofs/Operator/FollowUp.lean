import Mathlib.Data.List.Perm.Subperm
import TopicSync.Proofs.Operator.Admission
import TopicSync.Proofs.Operator.Deletion

/-!
How many attempts the loop makes. An attempt that loses the race to create its topic is followed by
exactly one more, so that there are as many follow-ups as lost races. If only attempts of other
triggers lose races, there are at most two attempts for each of them. Nothing keeps a follow-up from
losing a race in its turn, though, and then one trigger leads to any number of attempts.
-/
namespace TopicSync

/-- The work was an attempt that lost the race to create its topic. -/
def Completion.isLostRace : Completion → Bool
  | reconciled _ (.error e) => e.isCreateRace
  | _ => false

def Loop.Event.isLostRace : Loop.Event → Bool
  | finished _ c => c.isLostRace
  | _ => false

/-- An attempt loses the race if there is no record of the topic, the resource describes it, and the
brokers do not show it but will not create it either. -/
theorem Operator.yields_lost_race {o : Operator} {topic : TopicName} {r : Resource} {t : Topic}
    (named : Option ResourceName) (hr : r.isManaged o.managed = true) (ht : r.toTopic = .ok t)
    (hn : t.name = topic) :
    (o.reconcile topic named).Yields (.error (.broker (.topicExists topic.text))) := by
  have hsettle : ∀ n, (o.settle topic none ⟨n, some r⟩).Yields
      (.error (.broker (.topicExists topic.text))) := by
    intro n
    have hdescribed : described topic ⟨n, some r⟩ = .ok (some t) := by simp [described, ht, hn]
    rw [settle, hdescribed]
    exact .ask (.ok none) (.ask (.error (.broker (.topicExists topic.text))) (.done _))
  have hattempt : (o.attempt topic named).Yields
      (⟨resourceFor topic named none, some r⟩,
        .error (.broker (.topicExists topic.text))) := by
    refine .ask (.ok none) (.ask (.ok (some r)) ?_)
    change Program.Yields (ite _ _ _) _
    rw [if_neg (by simp [hr])]
    exact (hsettle _).bind (.done _)
  refine .ask () (hattempt.bind ?_)
  exact .ask () (.ask () (.ask () (.ask () (.ask (.ok ()) (.done _)))))

namespace Loop

/-- The numbers of the attempts under way. -/
def attempts (l : Loop) : List Nat := (l.running.filter (·.2.topic?.isSome)).map (·.1)

theorem mem_attempts {l : Loop} {id : Nat} :
    id ∈ l.attempts ↔
      ∃ topic resource cause, (id, .attempt topic resource cause) ∈ l.running := by
  constructor
  · intro h
    obtain ⟨⟨i, w⟩, hp, rfl⟩ := List.mem_map.1 h
    obtain ⟨hp, hw⟩ := List.mem_filter.1 hp
    cases w with
    | attempt topic resource cause => exact ⟨topic, resource, cause, hp⟩
    | sweep => cases hw
    | reject resource reason => cases hw
  · rintro ⟨topic, resource, cause, hp⟩
    exact List.mem_map.2 ⟨_, List.mem_filter.2 ⟨hp, rfl⟩, rfl⟩

theorem attempts_started (l : Loop) (w : Work) (ledger : Ledger) :
    (l.started w ledger).attempts =
      l.attempts ++ if w.topic?.isSome = true then [l.next] else [] := by
  by_cases h : w.topic?.isSome = true <;> simp [attempts, started, h]

/-- New attempts, with distinct numbers that were not given out before. -/
structure Grown (before after : Loop) (new : List Nat) : Prop where
  attempts : after.attempts = before.attempts ++ new
  nodup : new.Nodup
  fresh : ∀ id ∈ new, before.next ≤ id ∧ id < after.next
  next : before.next ≤ after.next

theorem grown_offer (l : Loop) (t : Trigger) : ∃ new, Grown l (l.offer t) new := by
  have hstarted : ∀ w ledger, ∃ new, Grown l (l.started w ledger) new := by
    intro w ledger
    refine ⟨_, attempts_started l w ledger, ?_, ?_, Nat.le_succ _⟩
    · split <;> simp
    · intro id hid
      have hnext : id = l.next := by
        split at hid
        · exact List.mem_singleton.1 hid
        · cases hid
      exact ⟨Nat.le_of_eq hnext.symm, hnext ▸ Nat.lt_succ_self _⟩
  rcases offer_cases l t with ⟨-, w, -, he⟩ | ⟨topic, -, ⟨-, he⟩ | ⟨-, -, he⟩ | ⟨-, -, he⟩⟩
  · rw [he]
    exact hstarted _ _
  · rw [he]
    exact ⟨[], (List.append_nil _).symm, .nil, by simp, Nat.le_refl _⟩
  · rw [he]
    exact ⟨[], (List.append_nil _).symm, .nil, by simp, Nat.le_refl _⟩
  · rw [he]
    exact hstarted _ _

theorem grown_offerAll (l : Loop) (ts : List Trigger) :
    ∃ new, Grown l (ts.foldl offer l) new := by
  induction ts generalizing l with
  | nil => exact ⟨[], (List.append_nil _).symm, .nil, by simp, Nat.le_refl _⟩
  | cons t ts ih =>
    obtain ⟨first, hf⟩ := grown_offer l t
    obtain ⟨rest, hr⟩ := ih (l.offer t)
    refine ⟨first ++ rest, ?_, ?_, ?_, Nat.le_trans hf.next hr.next⟩
    · rw [List.foldl_cons, hr.attempts, hf.attempts, List.append_assoc]
    · refine List.nodup_append.2 ⟨hf.nodup, hr.nodup, ?_⟩
      rintro i hi j hj rfl
      exact absurd (hf.fresh i hi).2 (Nat.not_lt.2 (hr.fresh i hj).1)
    · intro id hid
      rcases List.mem_append.1 hid with hid | hid
      · exact ⟨(hf.fresh id hid).1, Nat.lt_of_lt_of_le (hf.fresh id hid).2 hr.next⟩
      · exact ⟨Nat.le_trans hf.next (hr.fresh id hid).1, (hr.fresh id hid).2⟩

theorem mem_attempts_without {l : Loop} {id i : Nat} {c : Completion}
    (h : i ∈ (l.without id c).attempts) : i ∈ l.attempts ∧ i ≠ id := by
  obtain ⟨topic, resource, cause, hp⟩ := mem_attempts.1 h
  obtain ⟨hp, hne⟩ := List.mem_filter.1 hp
  exact ⟨mem_attempts.2 ⟨topic, resource, cause, hp⟩, by simpa using hne⟩

/-- The attempt that lost a race makes room for its follow-up, which is never dropped. -/
theorem Sound.complete_lost_race {l : Loop} (hs : l.Sound) {id : Nat} {topic : TopicName}
    {resource : Option ResourceName} {cause : String} {e : Failure}
    (hw : (id, .attempt topic resource cause) ∈ l.running) (he : e.isCreateRace = true) :
    ∃ ledger, l.complete id (.reconciled topic (.error e)) =
      (l.without id (.reconciled topic (.error e))).started (.attempt topic none "Resync")
        ledger := by
  have hexternal : topic.isInternal = false :=
    hs.external topic (mem_topics.2 ⟨id, resource, cause, hw⟩)
  have hgone : (l.without id (.reconciled topic (.error e))).ledger.contains topic = false := by
    simp [Loop.without, Completion.leave, Ledger.complete, Ledger.contains, TextMap.contains,
      TextMap.get?_erase]
  have hfollow : l.complete id (.reconciled topic (.error e)) =
      (l.without id (.reconciled topic (.error e))).offer (.resync topic none) := by
    simp [Loop.complete, Completion.followUps, he, Loop.without]
  rw [hfollow, offer_of_topic rfl, hexternal, hgone]
  exact ⟨_, rfl⟩

namespace History

/-- The numbers of the attempts that the latest event begins. -/
def begun : History → List Nat
  | [] => []
  | e :: h => (loop (e :: h)).attempts.filter ((loop h).next ≤ ·)

/-- The numbers of all attempts. -/
def allBegun : History → List Nat
  | [] => []
  | e :: h => begun (e :: h) ++ allBegun h

/-- The numbers of the attempts begun by triggers that are no follow-ups. -/
def admitted : History → List Nat
  | [] => []
  | e :: h => if e.isLostRace then admitted h else begun (e :: h) ++ admitted h

/-- The numbers of the attempts that follow a lost race. -/
def followUps : History → List Nat
  | [] => []
  | e :: h => if e.isLostRace then begun (e :: h) ++ followUps h else followUps h

/-- The numbers of the attempts that have lost a race. -/
def lost : History → List Nat
  | [] => []
  | .finished id c :: h => if c.isLostRace then id :: lost h else lost h
  | _ :: h => lost h

theorem length_allBegun (h : History) :
    h.allBegun.length = h.admitted.length + h.followUps.length := by
  induction h with
  | nil => rfl
  | cons e h ih =>
    by_cases he : e.isLostRace = true <;>
      simp [allBegun, admitted, followUps, he, ih] <;> omega

theorem mem_allBegun {h : History} {id : Nat} :
    id ∈ h.allBegun ↔ id ∈ h.admitted ∨ id ∈ h.followUps := by
  induction h with
  | nil => simp [allBegun, admitted, followUps]
  | cons e h ih =>
    by_cases he : e.isLostRace = true <;> simp [allBegun, admitted, followUps, he, ih, or_assoc,
      or_left_comm]

/-- The books of the attempts: each has a number of its own, those under way have not lost a race,
and every lost race has one follow-up. -/
structure Accounted (h : History) : Prop where
  nodup : h.allBegun.Nodup
  given : ∀ id ∈ h.allBegun, id < h.loop.next
  underWay : ∀ id ∈ h.loop.attempts, id ∈ h.allBegun
  lost_nodup : h.lost.Nodup
  lost_mem : ∀ id ∈ h.lost, id ∈ h.allBegun ∧ id ∉ h.loop.attempts
  balance : h.followUps.length = h.lost.length

theorem accounted_nil : Accounted [] where
  nodup := .nil
  given := by simp [allBegun]
  underWay := by rintro id ⟨⟩
  lost_nodup := .nil
  lost_mem := by simp [lost]
  balance := rfl

namespace Accounted

variable {h : History} {e : Event} {l : Loop} {new : List Nat}

/-- What an event begins are the attempts that it adds to those it leaves under way. -/
theorem begun_eq (ha : h.Accounted) (hn : l.next = h.loop.next)
    (hl : ∀ id ∈ l.attempts, id ∈ h.loop.attempts) (hg : Grown l (loop (e :: h)) new) :
    begun (e :: h) = new := by
  have hold : l.attempts.filter (h.loop.next ≤ ·) = [] := by
    refine List.filter_eq_nil_iff.2 fun id hid => ?_
    have hlt := ha.given id (ha.underWay id (hl id hid))
    simpa using hlt
  have hnew : new.filter (h.loop.next ≤ ·) = new := by
    refine List.filter_eq_self.2 fun id hid => ?_
    simpa [← hn] using (hg.fresh id hid).1
  rw [begun, hg.attempts, List.filter_append, hold, hnew, List.nil_append]

/-- An event that leaves some attempts under way and adds others keeps the books, if what it does to
the lost races and the follow-ups is in order. -/
theorem step (ha : h.Accounted) (hn : l.next = h.loop.next)
    (hl : ∀ id ∈ l.attempts, id ∈ h.loop.attempts) (hg : Grown l (loop (e :: h)) new)
    (hlost : (lost (e :: h)).Nodup)
    (hmem : ∀ id ∈ lost (e :: h), id ∈ h.allBegun ∧ id ∉ l.attempts)
    (hbalance : (followUps (e :: h)).length = (lost (e :: h)).length) :
    Accounted (e :: h) := by
  have hbegun := ha.begun_eq hn hl hg
  have hnext : h.loop.next ≤ (loop (e :: h)).next := hn ▸ hg.next
  refine ⟨?_, ?_, ?_, hlost, ?_, hbalance⟩
  · rw [allBegun, hbegun]
    refine List.nodup_append.2 ⟨hg.nodup, ha.nodup, ?_⟩
    rintro i hi j hj rfl
    have hlow := (hg.fresh i hi).1
    have hhigh := ha.given i hj
    omega
  · intro id hid
    rw [allBegun, hbegun] at hid
    rcases List.mem_append.1 hid with hid | hid
    · exact (hg.fresh id hid).2
    · exact Nat.lt_of_lt_of_le (ha.given id hid) hnext
  · intro id hid
    rw [hg.attempts] at hid
    rw [allBegun, hbegun]
    rcases List.mem_append.1 hid with hid | hid
    · exact List.mem_append_right _ (ha.underWay id (hl id hid))
    · exact List.mem_append_left _ hid
  · intro id hid
    obtain ⟨hall, hnot⟩ := hmem id hid
    refine ⟨List.mem_append_right _ hall, ?_⟩
    rw [hg.attempts]
    intro hmem'
    rcases List.mem_append.1 hmem' with hmem' | hmem'
    · exact hnot hmem'
    · have hlow := (hg.fresh id hmem').1
      have hhigh := ha.given id hall
      omega

section LostRace

variable {id : Nat} {topic : TopicName} {resource : Option ResourceName} {cause : String}
  {f : Failure}

theorem grown_lost_race (hs : h.loop.Sound)
    (hw : (id, .attempt topic resource cause) ∈ h.loop.running) (hf : f.isCreateRace = true) :
    Grown (h.loop.without id (.reconciled topic (.error f)))
      (loop (.finished id (.reconciled topic (.error f)) :: h)) [h.loop.next] := by
  obtain ⟨ledger, hcomplete⟩ := hs.complete_lost_race hw hf
  rw [loop, hcomplete]
  refine ⟨attempts_started _ _ _, by simp, ?_, Nat.le_succ _⟩
  intro i hi
  cases List.mem_singleton.1 hi
  exact ⟨Nat.le_refl _, Nat.lt_succ_self _⟩

theorem begun_lost_race (ha : h.Accounted) (hs : h.loop.Sound)
    (hw : (id, .attempt topic resource cause) ∈ h.loop.running) (hf : f.isCreateRace = true) :
    begun (.finished id (.reconciled topic (.error f)) :: h) = [h.loop.next] :=
  have hnext : (h.loop.without id (.reconciled topic (.error f))).next = h.loop.next := rfl
  ha.begun_eq hnext (fun _ hi => (mem_attempts_without hi).1) (grown_lost_race hs hw hf)

theorem step_lost_race (ha : h.Accounted) (hs : h.loop.Sound)
    (hw : (id, .attempt topic resource cause) ∈ h.loop.running) (hf : f.isCreateRace = true) :
    Accounted (.finished id (.reconciled topic (.error f)) :: h) := by
  have hnext : (h.loop.without id (.reconciled topic (.error f))).next = h.loop.next := rfl
  have hself : id ∈ h.loop.attempts := mem_attempts.2 ⟨topic, resource, cause, hw⟩
  have hlost : lost (.finished id (.reconciled topic (.error f)) :: h) = id :: lost h := if_pos hf
  have hfollow : followUps (.finished id (.reconciled topic (.error f)) :: h) =
      begun (.finished id (.reconciled topic (.error f)) :: h) ++ followUps h := if_pos hf
  refine ha.step hnext (fun _ hi => (mem_attempts_without hi).1) (grown_lost_race hs hw hf) ?_ ?_ ?_
  · rw [hlost]
    exact List.nodup_cons.2 ⟨fun hid => (ha.lost_mem id hid).2 hself, ha.lost_nodup⟩
  · rw [hlost]
    intro i hi
    rcases List.mem_cons.1 hi with rfl | hi
    · exact ⟨ha.underWay i hself, fun hi => (mem_attempts_without hi).2 rfl⟩
    · obtain ⟨hall, hnot⟩ := ha.lost_mem i hi
      exact ⟨hall, fun hi => hnot (mem_attempts_without hi).1⟩
  · rw [hlost, hfollow, ha.begun_lost_race hs hw hf, List.length_append, ha.balance]
    exact Nat.add_comm _ _

end LostRace

end Accounted

variable {o : Operator} {h : History}

theorem accounted (hp : h.Possible o) : h.Accounted := by
  induction hp with
  | start => exact accounted_nil
  | @offered h t past _ ih =>
    obtain ⟨new, hg⟩ := grown_offer h.loop t
    exact ih.step rfl (fun _ hid => hid) hg ih.lost_nodup ih.lost_mem ih.balance
  | @closed h past _ ih =>
    have hg : Grown h.loop (loop (.closed :: h)) [] :=
      ⟨(List.append_nil _).symm, .nil, by simp, Nat.le_refl _⟩
    exact ih.step rfl (fun _ hid => hid) hg ih.lost_nodup ih.lost_mem ih.balance
  | @finished h id w c past hw hc ih =>
    by_cases hr : c.isLostRace = true
    · cases Work.endsWith_of_yields hc with
      | sweep subjects => cases hr
      | reject resource reason => cases hr
      | attempt topic resource cause result =>
        cases result with
        | ok d => cases hr
        | error f => exact ih.step_lost_race (sound_loop past) hw hr
    · obtain ⟨new, hg⟩ := grown_offerAll (h.loop.without id c) c.followUps
      have hnext : (h.loop.without id c).next = h.loop.next := rfl
      have hlost : lost (.finished id c :: h) = lost h := if_neg hr
      have hfollow : followUps (.finished id c :: h) = followUps h := if_neg hr
      refine ih.step hnext (fun _ hi => (mem_attempts_without hi).1) hg ?_ ?_ ?_
      · rw [hlost]
        exact ih.lost_nodup
      · rw [hlost]
        intro i hi
        obtain ⟨hall, hnot⟩ := ih.lost_mem i hi
        exact ⟨hall, fun hi => hnot (mem_attempts_without hi).1⟩
      · rw [hlost, hfollow]
        exact ih.balance

/-- One trigger, after which the channel is closed and every attempt loses the race. -/
def races (t : Trigger) (topic : TopicName) : Nat → History
  | 0 => [.closed, .offered t]
  | n + 1 =>
    .finished n (.reconciled topic (.error (.broker (.topicExists topic.text)))) ::
      races t topic n

section Races

variable {t : Trigger} {topic : TopicName} {r : Resource} {described : Topic}

/-- The attempt that the next race is about. -/
structure Racing (o : Operator) (t : Trigger) (topic : TopicName) (n : Nat) : Prop where
  possible : (races t topic n).Possible o
  attempt : ∃ resource cause, (n, .attempt topic resource cause) ∈ (races t topic n).loop.running
  next : (races t topic n).loop.next = n + 1

theorem racing (ht : t.topic? = some topic) (hi : topic.isInternal = false)
    (hr : r.isManaged o.managed = true) (hd : r.toTopic = .ok described)
    (hn : described.name = topic) (n : Nat) : Racing o t topic n := by
  induction n with
  | zero =>
    refine ⟨.closed (.offered t .start rfl) rfl, ⟨t.resource?, t.cause, ?_⟩, ?_⟩
    · rw [races, loop, loop, loop, offer_empty ht hi]
      exact .head _
    · rw [races, loop, loop, loop, offer_empty ht hi]
      rfl
  | succ n ih =>
    obtain ⟨resource, cause, hw⟩ := ih.attempt
    have hyields : ((Work.attempt topic resource cause).task o).Yields
        (.reconciled topic (.error (.broker (.topicExists topic.text)))) :=
      (Operator.yields_lost_race resource hr hd hn).bind (.done _)
    obtain ⟨ledger, hcomplete⟩ := (sound_loop ih.possible).complete_lost_race hw
      (show (Failure.broker (.topicExists topic.text)).isCreateRace = true from rfl)
    refine ⟨.finished ih.possible hw hyields, ⟨none, "Resync", ?_⟩, ?_⟩
    · rw [races, loop, hcomplete, started]
      exact List.mem_append_right _ (by simp [Loop.without, ih.next])
    · rw [races, loop, hcomplete, started]
      exact congrArg (· + 1) ih.next

theorem Racing.length_allBegun (hs : ∀ n, Racing o t topic n) (n : Nat) :
    (races t topic n).allBegun.length = (races t topic n).admitted.length + n := by
  rw [History.length_allBegun, (accounted (hs n).possible).balance]
  congr 1
  induction n with
  | zero => rfl
  | succ n ih => exact congrArg (· + 1) ih

end Races

/-- Every attempt that lost a race is followed by exactly one more. As long as no follow-up loses a
race in its turn, at most two attempts are made for each that another trigger began. -/
theorem attempts_bounded (hp : h.Possible o) :
    h.followUps.length = h.lost.length ∧
      ((∀ id ∈ h.lost, id ∉ h.followUps) → h.allBegun.length ≤ 2 * h.admitted.length) := by
  have ha := accounted hp
  refine ⟨ha.balance, fun hfirst => ?_⟩
  have hsub : h.lost ⊆ h.admitted := by
    intro id hid
    rcases mem_allBegun.1 (ha.lost_mem id hid).1 with hin | hin
    · exact hin
    · exact absurd hin (hfirst id hid)
  have hle : h.lost.length ≤ h.admitted.length := (ha.lost_nodup.subperm hsub).length_le
  rw [length_allBegun, ha.balance]
  omega

def ordersAdded : Trigger := .resourceAdded Plan.ordersStored.name ⟨"orders"⟩

theorem racing_orders (n : Nat) :
    Racing Memory.World.ordersOperator ordersAdded Plan.ordersStored.name n := by
  have hdescribed : (Resource.ofTopic Plan.ordersStored "kafka").toTopic =
      .ok Plan.ordersStored := by
    decide +kernel
  exact racing rfl (by decide) (by decide +kernel) hdescribed rfl n

theorem attempts_bounded_orders :
    (races ordersAdded Plan.ordersStored.name 1).Possible Memory.World.ordersOperator ∧
      (races ordersAdded Plan.ordersStored.name 1).allBegun.length ≤
        2 * (races ordersAdded Plan.ordersStored.name 1).admitted.length :=
  have hp := (racing_orders 1).possible
  ⟨hp, (attempts_bounded hp).2 (by decide +kernel)⟩

/-- No number bounds the attempts that one trigger leads to. -/
theorem attempts_unbounded :
    ¬ ∃ bound, ∀ h : History, h.Possible Memory.World.ordersOperator → h.isOpen = false →
      h.admitted.length = 1 → h.allBegun.length ≤ bound := by
  rintro ⟨bound, hb⟩
  have hopen : ∀ n, (races ordersAdded Plan.ordersStored.name n).isOpen = false := by
    intro n
    induction n with
    | zero => rfl
    | succ n ih => exact ih
  have hone : ∀ n, (races ordersAdded Plan.ordersStored.name n).admitted.length = 1 := by
    intro n
    induction n with
    | zero => decide +kernel
    | succ n ih => exact ih
  have hle := hb _ (racing_orders bound).possible (hopen bound) (hone bound)
  rw [Racing.length_allBegun racing_orders, hone] at hle
  omega

end History

end Loop

end TopicSync
