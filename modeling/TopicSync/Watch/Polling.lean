import TopicSync.Watch.Receiver
import TopicSync.Watch.TopicView

/-!
Polling the brokers at an interval. Times are in milliseconds since the start. A poll that is due
while another one runs follows it at once; when it is late by more than the tolerance, the next one
is due a whole interval after it began.
-/
namespace TopicSync

/-- One poll: how long the brokers take to answer, and their answer. -/
structure Poll where
  duration : Nat
  listing : Option TopicListing
  deriving DecidableEq, Repr

namespace Polling

/-- Lateness up to which a poll still counts as on time. -/
def tolerance : Nat := 5

structure State where
  view : TopicView
  now : Nat
  due : Nat
  receiver : Receiver
  deriving DecidableEq, Repr

def start (limit : Option Nat) : State := ⟨.empty, 0, 0, .taking limit⟩

/-- When the next poll is due, if one that was due at `due` begins at `began`. -/
def nextDue (interval due began : Nat) : Nat :=
  if due + tolerance < began then began + interval else due + interval

/-- Let time pass until a poll has been answered; the receiver has its turn if any time passes. -/
def passTo (s : State) (ended due : Nat) : State :=
  { s with
    now := ended
    due := due
    receiver := if s.now < ended then s.receiver.settle else s.receiver }

/-- What a poll delivers and the state after it, which is missing if the receiver was gone. -/
def step (interval : Nat) (s : State) (p : Poll) : List (Nat × Trigger) × Option State :=
  let began := max s.now s.due
  let s := passTo s (began + p.duration) (nextDue interval s.due began)
  match p.listing with
  | none => ([], some s)
  | some l =>
    let (ts, view) := s.view.observe l
    match s.receiver.send ts with
    | none => ([], none)
    | some r => ((s.receiver.taken ts).map (s.now, ·), some { s with view := view, receiver := r })

structure Outcome where
  delivered : List (Nat × Trigger)
  stopped : Bool
  pollsLeft : Nat
  deriving DecidableEq, Repr

/-- Poll until the answers run out or the receiver is gone. -/
def follow (interval : Nat) (s : State) : List Poll → Outcome
  | [] => ⟨[], false, 0⟩
  | p :: ps =>
    match step interval s p with
    | (ts, none) => ⟨ts, true, ps.length⟩
    | (ts, some s) =>
      let rest := follow interval s ps
      { rest with delivered := ts ++ rest.delivered }

/-- Poll for a receiver that may be limited. Without an interval nobody ever polls. -/
def run (interval : Nat) (limit : Option Nat) (polls : List Poll) : Outcome :=
  if interval = 0 then ⟨[], false, polls.length⟩ else follow interval (start limit) polls

/-- The triggers received at each time, in order. -/
def batches : List (Nat × Trigger) → List (Nat × List Trigger)
  | [] => []
  | (time, t) :: rest =>
    match batches rest with
    | (next, ts) :: more =>
      if next = time then (time, t :: ts) :: more else (time, [t]) :: (next, ts) :: more
    | [] => [(time, [t])]

end Polling

end TopicSync
