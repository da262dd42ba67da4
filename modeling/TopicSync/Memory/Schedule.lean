import TopicSync.Memory.World
import TopicSync.Operator.Loop

/-!
Running the trigger loop in a world kept in memory. Queued triggers come first; then work goes on in
the order of admission, each piece until it ends or waits. Pieces that wake at the same time go on
in the order in which they fell asleep, and before triggers that arrive at that time.
-/
namespace TopicSync.Memory

/-- Work that is not finished: its number in the loop and what is left of its program. -/
structure Piece where
  id : Nat
  rest : Task Completion

/-- What happens when a piece is run on: it ends, or waits. -/
inductive Progress where
  | ended (c : Completion)
  | waits (ms : Nat) (rest : Task Completion)

/-- Run a program until it ends or waits for some time. -/
def advance : Task Completion → World → Progress × World
  | .done c, w => (.ended c, w)
  | .ask (.wait 0) k, w => advance (k ()) w
  | .ask (.wait (ms + 1)) k, w => (.waits (ms + 1) (k ()), w)
  | .ask (.broker c) k, w =>
    let r := World.answer (.broker c) w
    advance (k r.1) r.2
  | .ask (.resource c) k, w =>
    let r := World.answer (.resource c) w
    advance (k r.1) r.2
  | .ask (.store c) k, w =>
    let r := World.answer (.store c) w
    advance (k r.1) r.2
  | .ask (.warn x) k, w =>
    let r := World.answer (.warn x) w
    advance (k r.1) r.2
  | .ask (.count m) k, w =>
    let r := World.answer (.count m) w
    advance (k r.1) r.2

structure Schedule where
  world : World
  loop : Loop
  /-- Triggers that wait to be taken in. -/
  queue : List Trigger
  /-- Triggers still to arrive, in order, with their times. -/
  coming : List (Nat × Trigger)
  /-- Pieces that can go on, in order. -/
  ready : List Piece
  /-- Pieces that wait, with the times at which they wake, in the order they fell asleep. -/
  asleep : List (Nat × Piece)

namespace Schedule

/-- The work that the loop has taken up since it was `before`, as pieces. -/
def newPieces (o : Operator) (before after : Loop) : List Piece :=
  (after.running.filter fun w => before.next ≤ w.1).map fun w => ⟨w.1, w.2.task o⟩

/-- The loop goes on: new work is made ready, drops are counted and the gauge is set. -/
def moveOn (o : Operator) (s : Schedule) (l : Loop) : Schedule :=
  let counters := { s.world.counters with
    droppedTriggers := s.world.counters.droppedTriggers + (l.dropped - s.loop.dropped) }
  { s with
    world := { s.world with counters := counters.gauge l.ledger.size }
    loop := l
    ready := s.ready ++ newPieces o s.loop l }

/-- Let a piece go on. -/
def runPiece (o : Operator) (s : Schedule) (p : Piece) : Schedule :=
  match advance p.rest s.world with
  | (.ended c, w) => moveOn o { s with world := w } (s.loop.complete p.id c)
  | (.waits ms rest, w) =>
    { s with world := w, asleep := s.asleep ++ [(w.now + slept ms, ⟨p.id, rest⟩)] }

/-- The time at which something happens next, when nothing is ready. -/
def nextTime (s : Schedule) : Option Nat :=
  match s.coming, (s.asleep.map (·.1)).min? with
  | [], wake => wake
  | (at', _) :: _, none => some (max s.world.now at')
  | (at', _) :: _, some wake => some (min (max s.world.now at') wake)

/-- Wake at the given time what is due; triggers only arrive when nothing wakes. -/
def wake (s : Schedule) (time : Nat) : Schedule :=
  let world := { s.world with now := time }
  let due := s.asleep.filter (·.1 ≤ time)
  if due.isEmpty then
    { s with
      world := world
      queue := s.queue ++ (s.coming.takeWhile (·.1 ≤ time)).map (·.2)
      coming := s.coming.dropWhile (·.1 ≤ time) }
  else
    { s with
      world := world
      ready := s.ready ++ due.map (·.2)
      asleep := s.asleep.filter fun p => ¬ p.1 ≤ time }

/-- One turn of the loop; `none` once nothing is left to do. -/
def turn (o : Operator) (s : Schedule) : Option Schedule :=
  match s.queue, s.ready with
  | t :: queue, _ => some (moveOn o { s with queue := queue } (s.loop.offer t))
  | [], p :: ready => some (runPiece o { s with ready := ready } p)
  | [], [] => s.nextTime.map s.wake

/-- Turn until nothing is left to do, at most as often as the first argument says. -/
def turns (o : Operator) : Nat → Schedule → Schedule
  | 0, s => s
  | n + 1, s =>
    match turn o s with
    | some s => turns o n s
    | none => s

end Schedule

/-- More turns than any run of the loop that ends within memory and time. -/
def maxTurns : Nat := 1000000000000

/-- Run the loop on triggers with their times of arrival; those of time zero are queued at once. -/
def World.runLoop (w : World) (o : Operator) (triggers : List (Nat × Trigger)) : World :=
  let s : Schedule :=
    { world := w
      loop := .empty
      queue := (triggers.filter (·.1 = 0)).map (·.2)
      coming := triggers.filter (·.1 ≠ 0)
      ready := []
      asleep := [] }
  let s := Schedule.turns o maxTurns s
  { s.world with counters := s.world.counters.gauge s.loop.ledger.size }

end TopicSync.Memory
