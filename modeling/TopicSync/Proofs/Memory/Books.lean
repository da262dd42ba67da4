import TopicSync.Proofs.Operator.Accounts

/-!
The loop that is run in memory keeps books: each of its turns is an event in the loop, or calls of
one piece of work, or the passing of time. So its counters are those of a run, and balance once it
has nothing left to do.
-/
namespace TopicSync.Memory

open Loop (Books History)

section Calls

variable {w w' : World} {c : OperatorCall} {operation : String} {e : Option Failure}

theorem World.counters_of_nextFault (h : (w.note c).nextFault operation = (e, w')) :
    w'.counters = w.counters :=
  (congrArg (fun r => r.2.counters) h).symm

/-- Of all calls, those that count change the counters. -/
theorem World.counters_answer (c : OperatorCall) (w : World) :
    (answer c w).2.counters = w.counters.note c := by
  cases c with
  | broker bc =>
    rw [answer]
    split <;> next hf => exact (counters_of_nextFault hf :)
  | resource rc =>
    rw [answer]
    split <;> next hf => exact (counters_of_nextFault hf :)
  | store sc =>
    rw [answer]
    split <;> next hf => exact (counters_of_nextFault hf :)
  | _ => rfl

end Calls

/-- What is left of a program that was run on. -/
def Progress.rest : Progress → Task Completion
  | ended c => .done c
  | waits _ rest => rest

/-- A piece that is run on makes calls until it ends or waits. -/
theorem kept_advance {o : Operator} {b : Books} {id : Nat} {rest : List Piece} (p : Task Completion)
    {w : World} (h : b.Kept o) (hp : b.pieces.Perm (⟨id, p⟩ :: rest))
    (hc : b.counters = w.counters) :
    ∃ b' : Books, b'.Kept o ∧ b'.history = b.history ∧
      b'.counters = (advance p w).2.counters ∧
      b'.pieces.Perm (⟨id, (advance p w).1.rest⟩ :: rest) := by
  induction p generalizing b w with
  | done c => exact ⟨b, h, rfl, hc, hp⟩
  | ask c k ih =>
    -- The books after the call, in the world that has answered it.
    have hcall : ∀ (r : c.Answer) (w' : World), w'.counters = w.counters.note c →
        ∃ b' : Books, b'.Kept o ∧ b'.history = b.history ∧
          b'.counters = (advance (k r) w').2.counters ∧
          b'.pieces.Perm (⟨id, (advance (k r) w').1.rest⟩ :: rest) := by
      intro r w' hw'
      have hcounters : (b.call c (⟨id, k r⟩ :: rest)).counters = w'.counters := by
        rw [hw', ← hc]
        rfl
      exact (ih r (h.called hp r) (.refl _) hcounters :)
    cases c with
    | wait ms =>
      cases ms with
      | zero => exact hcall () w rfl
      | succ ms => exact ⟨_, h.called hp (), rfl, hc, .refl _⟩
    | _ => exact hcall _ _ (World.counters_answer _ w)

namespace Schedule

variable {o : Operator} {s s' : Schedule} {b : Books}

/-- The books of a schedule so far. The channel stays open as long as triggers may come. -/
structure Recorded (o : Operator) (s : Schedule) (b : Books) : Prop where
  kept : b.Kept o
  isOpen : b.history.isOpen = true
  loop : b.history.loop = s.loop
  counters : b.counters = s.world.counters
  pieces : b.pieces.Perm (s.ready ++ s.asleep.map Prod.snd)

theorem Recorded.offer (h : s.Recorded o b) (t : Trigger) (queue : List Trigger) :
    ∃ b', (moveOn o { s with queue := queue } (s.loop.offer t)).Recorded o b' := by
  refine ⟨_, .offered t h.kept h.isOpen, h.isOpen, ?_, ?_, ?_⟩
  · rw [Books.turn, History.loop, h.loop]
    rfl
  · rw [Books.turn, History.loop, h.loop, h.counters]
    rfl
  · rw [Books.turn, History.loop, h.loop]
    have happend := h.pieces.append_right (newPieces o s.loop (s.loop.offer t))
    refine happend.trans ?_
    rw [moveOn, List.append_assoc, List.append_assoc]
    exact (List.perm_append_comm).append_left _

/-- A piece that is ready goes on, and ends or falls asleep. -/
theorem Recorded.runPiece (h : s.Recorded o b) {p : Piece} {ready : List Piece}
    (hready : s.ready = p :: ready) :
    ∃ b', (runPiece o { s with ready := ready } p).Recorded o b' := by
  have hp : b.pieces.Perm (⟨p.id, p.rest⟩ :: (ready ++ s.asleep.map Prod.snd)) := by
    have hpieces := h.pieces
    rwa [hready] at hpieces
  obtain ⟨b', hkept, hhistory, hcounters, hpieces⟩ := kept_advance p.rest h.kept hp h.counters
  have hopen : b'.history.isOpen = true := hhistory ▸ h.isOpen
  have hloop : b'.history.loop = s.loop := hhistory ▸ h.loop
  rw [Schedule.runPiece]
  cases ha : advance p.rest s.world with
  | mk progress w =>
    rw [ha] at hcounters hpieces
    cases progress with
    | ended c =>
      dsimp only
      refine ⟨_, .finished hkept hpieces, hopen, ?_, ?_, ?_⟩
      · rw [Books.turn, History.loop, hloop]
        rfl
      · rw [Books.turn, History.loop, hloop, hcounters]
        rfl
      · rw [Books.turn, History.loop, hloop, moveOn, List.append_assoc, List.append_assoc]
        exact (List.perm_append_comm).append_left _
    | waits ms rest =>
      refine ⟨b', hkept, hopen, hloop, hcounters, hpieces.trans ?_⟩
      rw [List.map_append, ← List.append_assoc]
      exact (List.perm_append_singleton _ _).symm

/-- Time passes for the work that is asleep, which is all that there is. -/
theorem Recorded.wake (h : s.Recorded o b) (hready : s.ready = []) (time : Nat) :
    (s.wake time).Recorded o b := by
  have hpieces := h.pieces
  rw [Schedule.wake]
  split
  · exact ⟨h.kept, h.isOpen, h.loop, h.counters, hpieces⟩
  · refine ⟨h.kept, h.isOpen, h.loop, h.counters, hpieces.trans ?_⟩
    have hsplit : (s.asleep.filter (·.1 ≤ time) ++ s.asleep.filter fun p => ¬ p.1 ≤ time).Perm
        s.asleep := by
      simpa only [decide_not] using
        List.filter_append_perm (fun p : Nat × Piece => decide (p.1 ≤ time)) s.asleep
    rw [hready, List.nil_append, List.nil_append, ← List.map_append]
    exact (hsplit.map Prod.snd).symm

theorem Recorded.turn (h : s.Recorded o b) (ht : Schedule.turn o s = some s') :
    ∃ b', s'.Recorded o b' := by
  obtain ⟨world, loop, queue, coming, ready, asleep⟩ := s
  cases queue with
  | cons t queue =>
    cases ht
    exact h.offer t queue
  | nil =>
    cases ready with
    | cons p ready =>
      cases ht
      exact h.runPiece rfl
    | nil =>
      obtain ⟨time, -, rfl⟩ := Option.map_eq_some_iff.1 ht
      exact ⟨b, h.wake rfl time⟩

theorem Recorded.turns (h : s.Recorded o b) (n : Nat) :
    ∃ b', (Schedule.turns o n s).Recorded o b' := by
  induction n generalizing s b with
  | zero => exact ⟨b, h⟩
  | succ n ih =>
    rw [Schedule.turns]
    cases ht : Schedule.turn o s with
    | none => exact ⟨b, h⟩
    | some s' =>
      obtain ⟨b', hb'⟩ := h.turn ht
      exact ih hb'

/-- The schedule with which the loop is run on triggers. -/
def start (w : World) (triggers : List (Nat × Trigger)) : Schedule where
  world := w
  loop := .empty
  queue := (triggers.filter (·.1 = 0)).map (·.2)
  coming := triggers.filter (·.1 ≠ 0)
  ready := []
  asleep := []

/-- The books of a run on triggers, in a world in which nothing has been counted: when nothing is
left to do, the channel is closed, and the counters are those that the world is left with. -/
theorem kept_of_ended {w : World} (hw : w.counters = .zero) {n : Nat}
    {triggers : List (Nat × Trigger)} (hs : turns o n (start w triggers) = s)
    (hready : s.ready = []) (hasleep : s.asleep = []) :
    ∃ b : Books, b.Kept o ∧ b.history.Ended ∧
      b.counters = s.world.counters.gauge s.loop.ledger.size := by
  have hstart : (start w triggers).Recorded o ⟨[], [], .zero, []⟩ :=
    ⟨.start, rfl, rfl, hw.symm, .refl _⟩
  obtain ⟨b, hb⟩ := hstart.turns n
  rw [hs] at hb
  have hpieces : b.pieces = [] := by
    have hnone := hb.pieces
    rw [hready, hasleep] at hnone
    exact hnone.eq_nil
  have hidle : b.history.loop.running = [] := by
    have hnumbers := (Books.matches_of_kept hb.kept).numbers
    rw [hpieces] at hnumbers
    exact List.map_eq_nil_iff.1 hnumbers.symm.eq_nil
  refine ⟨_, .closed hb.kept hb.isOpen, ⟨rfl, hidle⟩, ?_⟩
  rw [Books.turn, History.loop, hb.loop, hb.counters, Counters.moveOn, Nat.sub_self]
  rfl

end Schedule

/-- What the run of a loop leaves of the counters is what the books of a run do, if it was let go on
until nothing was left to do. -/
theorem World.kept_runLoop {o : Operator} {w : World} (hw : w.counters = .zero)
    {triggers : List (Nat × Trigger)}
    (hready : (Schedule.turns o maxTurns (.start w triggers)).ready = [])
    (hasleep : (Schedule.turns o maxTurns (.start w triggers)).asleep = []) :
    ∃ b : Books, b.Kept o ∧ b.history.Ended ∧ b.counters = (w.runLoop o triggers).counters :=
  Schedule.kept_of_ended hw rfl hready hasleep

/-- The sweep finds the topic that is being looked at already, and so does the third trigger; the
fourth is about one of the brokers' own topics. -/
example :
    let w := { World.empty with brokers := Brokers.empty.put Plan.ordersStored }
    (w.runLoop ⟨.managed, .default⟩
      [(0, .sweep), (0, .kafkaTopicCreated ⟨"orders", by decide⟩),
        (0, .kafkaTopicChanged ⟨"orders", by decide⟩),
        (0, .kafkaTopicChanged ⟨"__offsets", by decide⟩),
        (0, .resourceRejected ⟨"payments"⟩ "must be 1-249 characters")]).counters =
      { Counters.zero with
        reconciliations := 1, durations := 1, droppedTriggers := 2, warningEvents := 1
        maxInFlight := 1 } := by
  decide +kernel

end TopicSync.Memory
