import TopicSync.Proofs.Interleaving

/-!
Waiting for something to become visible, whatever the reads find. Reads take place up to the first
that settles the matter, but no more of them than there may be, and between any two of them there is
one wait. Reading and waiting are looked at as bare calls; what they are carried out by only takes
the places of these. On a clock, the waits say when the reads take place.
-/
namespace TopicSync.Visibility

variable {I : Interface} {α β : Type}

/-- What a read finds: something, nothing yet, or a failure. -/
abbrev Outcome (α : Type) : Type := Except Failure (Option α)

/-- The calls to read, and to wait in between, that are left from a read on. -/
def callsLeft (r : RetrySettings) (topic : String) (left attempt : Nat) :
    Program (interface α) (Except Failure α) :=
  readUpTo r topic (Program.call (I := interface α) .read)
    (fun ms => Program.call (I := interface α) (.wait ms)) left attempt

/-- Waiting by bare calls. -/
def awaitCalls (r : RetrySettings) (topic : String) : Program (interface α) (Except Failure α) :=
  await r topic (Program.call (I := interface α) .read)
    fun ms => Program.call (I := interface α) (.wait ms)

theorem awaitCalls_eq (r : RetrySettings) (topic : String) :
    (awaitCalls r topic : Program (interface α) (Except Failure α)) =
      callsLeft r topic (max 1 r.maxAttempts) 1 := rfl

theorem callsLeft_succ (r : RetrySettings) (topic : String) (left attempt : Nat) :
    (callsLeft r topic (left + 1) attempt : Program (interface α) (Except Failure α)) =
      .ask Call.read fun
        | .error e => .done (.error e)
        | .ok (some a) => .done (.ok a)
        | .ok none =>
          if left = 0 then .done (.error (.metadataTimeout topic r.attempts))
          else .ask (Call.wait (r.delayAfter attempt)) fun _ =>
            callsLeft r topic left (attempt + 1) := rfl

/-- Bare calls carried out by a way to read and a way to wait. -/
def carryOut (read : Program I (Outcome α)) (wait : Nat → Program I Unit) :
    (c : Call) → Program I (c.Answer α)
  | .read => read
  | .wait ms => wait ms

theorem await_eq_translate (r : RetrySettings) (topic : String) (read : Program I (Outcome α))
    (wait : Nat → Program I Unit) :
    await r topic read wait =
      Program.translate (I := interface α) (carryOut read wait) (awaitCalls r topic) := by
  suffices h : ∀ left attempt, readUpTo r topic read wait left attempt =
      Program.translate (I := interface α) (carryOut read wait)
        (callsLeft r topic left attempt) from h _ _
  intro left
  induction left with
  | zero => exact fun _ => rfl
  | succ left ih =>
    intro attempt
    refine congrArg read.bind (funext fun outcome => ?_)
    match outcome with
    | .error e => rfl
    | .ok (some a) => rfl
    | .ok none =>
      by_cases hleft : left = 0
      · subst hleft
        rfl
      · simp only [if_neg hleft]
        exact congrArg (wait _).bind (funext fun _ => ih _)

section Outcomes

variable {outcomes : Nat → Outcome α} {left n : Nat}

/-- Reads find what is to come, one after the other. -/
def fromOutcomes : (c : Call) → (Nat → Outcome α) → c.Answer α × (Nat → Outcome α)
  | .read, outcomes => (outcomes 0, fun k => outcomes (k + 1))
  | .wait _, outcomes => ((), outcomes)

/-- The calls that are made in turn. -/
def calls (p : Program (interface α) β) (outcomes : Nat → Outcome α) : List Call :=
  (p.moments fromOutcomes outcomes).map Prod.fst

/-- What is yielded in the end. -/
def result (p : Program (interface α) β) (outcomes : Nat → Outcome α) : β :=
  (p.run fromOutcomes outcomes).1

/-- What the last read leads to; if it has found nothing, the attempts have been in vain. -/
def verdict (r : RetrySettings) (topic : String) : Outcome α → Except Failure α
  | .ok (some a) => .ok a
  | .ok none => .error (.metadataTimeout topic (max 1 r.maxAttempts))
  | .error e => .error e

/-- The read after `n` others is the last one: none of these has settled the matter, and it does so
itself unless there may be no more. -/
structure IsLast (bound : Nat) (outcomes : Nat → Outcome α) (n : Nat) : Prop where
  within : n < bound
  unsettled : ∀ k < n, outcomes k = .ok none
  settled : outcomes n = .ok none → n + 1 = bound

/-- A read that settles the matter is the last, as is one that leaves no others. -/
theorem last_of_settled (r : RetrySettings) (topic : String) (attempt : Nat)
    (h : outcomes 0 = .ok none → left = 0) :
    calls (callsLeft r topic (left + 1) attempt) outcomes = [.read] ∧
      result (callsLeft r topic (left + 1) attempt) outcomes = verdict r topic (outcomes 0) := by
  rw [callsLeft_succ, calls, result, Program.moments_ask, Program.run_ask]
  dsimp only [fromOutcomes]
  match hfound : outcomes 0 with
  | .error e => exact ⟨rfl, rfl⟩
  | .ok (some a) => exact ⟨rfl, rfl⟩
  | .ok none =>
    rw [if_pos (h hfound)]
    exact ⟨rfl, rfl⟩

/-- A read that finds nothing is followed by the wait after it, and then by the reads left. -/
theorem next_of_unsettled (r : RetrySettings) (topic : String) (attempt : Nat)
    (hfound : outcomes 0 = .ok none) (hleft : left ≠ 0) :
    calls (callsLeft r topic (left + 1) attempt) outcomes =
        .read :: .wait (r.delayAfter attempt) ::
          calls (callsLeft r topic left (attempt + 1)) (fun k => outcomes (k + 1)) ∧
      result (callsLeft r topic (left + 1) attempt) outcomes =
        result (callsLeft r topic left (attempt + 1)) fun k => outcomes (k + 1) := by
  rw [callsLeft_succ, calls, result, Program.moments_ask, Program.run_ask]
  dsimp only [fromOutcomes]
  rw [hfound]
  dsimp only
  rw [if_neg hleft]
  exact ⟨rfl, rfl⟩

/-- What the reads after the first find tells which of all reads is the last. -/
theorem IsLast.next {bound : Nat} (h : IsLast bound (fun k => outcomes (k + 1)) n)
    (hfound : outcomes 0 = .ok none) : IsLast (bound + 1) outcomes (n + 1) where
  within := Nat.succ_lt_succ h.within
  unsettled
    | 0, _ => hfound
    | k + 1, hk => h.unsettled k (Nat.lt_of_succ_lt_succ hk)
  settled hlast := congrArg (· + 1) (h.settled hlast)

/-- By induction on the reads left: one that does not settle the matter leaves a wait and the rest,
where the next read is the first. -/
theorem exists_isLast (r : RetrySettings) (topic : String) (left attempt : Nat)
    (outcomes : Nat → Outcome α) :
    ∃ n, IsLast (left + 1) outcomes n ∧
      calls (callsLeft r topic (left + 1) attempt) outcomes =
        (List.range n).flatMap (fun k => [.read, .wait (r.delayAfter (k + attempt))]) ++ [.read] ∧
      result (callsLeft r topic (left + 1) attempt) outcomes = verdict r topic (outcomes n) := by
  induction left generalizing attempt outcomes with
  | zero =>
    exact ⟨0, ⟨Nat.one_pos, nofun, fun _ => rfl⟩, last_of_settled r topic attempt fun _ => rfl⟩
  | succ left ih =>
    by_cases hfound : outcomes 0 = .ok none
    · obtain ⟨hcalls, hresult⟩ :=
        next_of_unsettled r topic attempt hfound (Nat.succ_ne_zero left)
      obtain ⟨n, hlast, hcallsRest, hresultRest⟩ := ih (attempt + 1) fun k => outcomes (k + 1)
      refine ⟨n + 1, hlast.next hfound, ?_, hresult.trans hresultRest⟩
      rw [hcalls, hcallsRest, List.range_succ_eq_map, List.flatMap_cons, List.flatMap_map]
      simp [Nat.add_assoc, Nat.add_comm 1]
    · exact ⟨0, ⟨Nat.succ_pos _, nofun, fun h => absurd h hfound⟩,
        last_of_settled r topic attempt fun h => absurd h hfound⟩

/-- Whatever there is to be found, reads take place up to the one that settles the matter, if there
may be so many. Each but the last is followed by the wait that goes with its number, and the last
decides. -/
theorem reads_up_to_last (r : RetrySettings) (topic : String) (outcomes : Nat → Outcome α) :
    ∃ n, IsLast (max 1 r.maxAttempts) outcomes n ∧
      calls (awaitCalls r topic) outcomes =
        (List.range n).flatMap (fun k => [.read, .wait (r.delayAfter (k + 1))]) ++ [.read] ∧
      result (awaitCalls r topic) outcomes = verdict r topic (outcomes n) := by
  obtain ⟨left, hleft⟩ : ∃ left, max 1 r.maxAttempts = left + 1 :=
    Nat.exists_eq_add_one.2 (Nat.le_max_left 1 r.maxAttempts)
  rw [awaitCalls_eq, hleft]
  exact exists_isLast r topic left 1 outcomes

/-- With the default settings, something that the third read finds. -/
example :
    let outcomes : Nat → Outcome Nat := fun k => if k = 2 then .ok (some 7) else .ok none
    let p := awaitCalls .default "orders"
    result p outcomes = .ok 7 ∧
      calls p outcomes = [.read, .wait (RetrySettings.default.delayAfter 1), .read,
        .wait (RetrySettings.default.delayAfter 2), .read] := ⟨rfl, rfl⟩

end Outcomes

section Clock

/-- When the reads among calls take place, on a clock that shows the given time. -/
def readTimes : Nat → List Call → List Nat
  | _, [] => []
  | now, .read :: cs => now :: readTimes now cs
  | now, .wait ms :: cs => readTimes (now + slept ms) cs

/-- Outcomes that are followed by nothing visible. -/
def padded (os : List (Outcome α)) (k : Nat) : Outcome α := os.getD k (.ok none)

theorem padded_succ (os : List (Outcome α)) : (fun k => padded os (k + 1)) = padded os.tail := by
  cases os <;> rfl

theorem answer_read (w : World α) :
    World.answer .read w = (padded w.outcomes 0,
      { w with outcomes := w.outcomes.tail, readAt := w.now :: w.readAt }) := by
  obtain ⟨os, now, past⟩ := w
  cases os <;> rfl

theorem run_world (p : Program (interface α) β) (w : World α) :
    (p.run World.answer w).1 = result p (padded w.outcomes) ∧
      (p.run World.answer w).2.readAt =
        (readTimes w.now (calls p (padded w.outcomes))).reverse ++ w.readAt := by
  induction p generalizing w with
  | done b => exact ⟨rfl, rfl⟩
  | ask c k ih =>
    cases c with
    | wait ms => exact ih () { w with now := w.now + slept ms }
    | read =>
      rw [Program.run_ask, answer_read]
      obtain ⟨hresult, htimes⟩ := ih (padded w.outcomes 0)
        { w with outcomes := w.outcomes.tail, readAt := w.now :: w.readAt }
      rw [hresult, htimes, ← padded_succ]
      refine ⟨rfl, ?_⟩
      change _ = (readTimes w.now (.read :: _)).reverse ++ w.readAt
      rw [readTimes, List.reverse_cons, List.append_assoc]
      rfl

/-- What is observed of a wait: its result, and the times of its reads. -/
theorem observe_eq (r : RetrySettings) (topic : String) (os : List (Outcome α)) :
    observe r topic os = (result (awaitCalls r topic) (padded os),
      readTimes 0 (calls (awaitCalls r topic) (padded os))) := by
  obtain ⟨hresult, htimes⟩ := run_world (awaitCalls r topic) ⟨os, 0, []⟩
  refine Prod.ext hresult ?_
  have hobserved : (observe r topic os).2 =
      ((awaitCalls r topic).run World.answer (⟨os, 0, []⟩ : World α)).2.readAt.reverse := rfl
  rw [hobserved, htimes, List.append_nil, List.reverse_reverse]

end Clock

end TopicSync.Visibility
