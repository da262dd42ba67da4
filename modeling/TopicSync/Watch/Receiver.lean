import TopicSync.Trigger

/-!
The receiving end of a stream of triggers. It may stop after a number of triggers; a sender learns
of that only after the receiver has had its turn.
-/
namespace TopicSync

structure Receiver where
  /-- How many more triggers it takes; `none` for any number. -/
  left : Option Nat
  closed : Bool
  deriving DecidableEq, Repr

namespace Receiver

def taking (limit : Option Nat) : Receiver := ⟨limit, limit = some 0⟩

/-- The receiver has its turn, and closes if it has all it wants. -/
def settle (r : Receiver) : Receiver := { r with closed := r.closed || r.left = some 0 }

/-- The triggers that are taken of those sent at one go. -/
def taken (r : Receiver) (ts : List Trigger) : List Trigger :=
  match r.left with
  | none => ts
  | some n => ts.take n

/-- Send triggers at one go; `none` if the receiver is gone. -/
def send (r : Receiver) (ts : List Trigger) : Option Receiver :=
  if r.closed ∧ ts ≠ [] then none
  else some { r with left := r.left.map (· - ts.length) }

end Receiver

end TopicSync
