import TopicSync.Program
import TopicSync.Retry

/-!
Waiting for something to become visible: read it until a read yields it or fails, at most as often
as the settings allow, and wait between two reads.
-/
namespace TopicSync.Visibility

variable {I : Interface} {α : Type}

/-- Read at most `left` more times; `attempt` numbers the next read. -/
def readUpTo (r : RetrySettings) (topic : String) (read : Program I (Except Failure (Option α)))
    (wait : Nat → Program I Unit) : (left : Nat) → (attempt : Nat) → Program I (Except Failure α)
  | 0, _ => .done (.error (.metadataTimeout topic r.attempts))
  | left + 1, attempt =>
    read.bind fun
      | .error e => .done (.error e)
      | .ok (some a) => .done (.ok a)
      | .ok none =>
        if left = 0 then .done (.error (.metadataTimeout topic r.attempts))
        else (wait (r.delayAfter attempt)).bind fun _ =>
          readUpTo r topic read wait left (attempt + 1)

def await (r : RetrySettings) (topic : String) (read : Program I (Except Failure (Option α)))
    (wait : Nat → Program I Unit) : Program I (Except Failure α) :=
  readUpTo r topic read wait r.attempts 1

/-- Reading, and waiting for a number of milliseconds. -/
inductive Call where
  | read
  | wait (ms : Nat)
  deriving DecidableEq, Repr

def Call.Answer (α : Type) : Call → Type
  | read => Except Failure (Option α)
  | wait _ => Unit

abbrev interface (α : Type) : Interface := ⟨Call, Call.Answer α⟩

/-- A world whose reads have given outcomes, the last of which is followed by nothing visible. -/
structure World (α : Type) where
  outcomes : List (Except Failure (Option α))
  now : Nat
  /-- When reads took place, the latest first. -/
  readAt : List Nat

def World.answer (c : Call) (w : World α) : c.Answer α × World α :=
  match c with
  | .wait ms => ((), { w with now := w.now + slept ms })
  | .read =>
    match w.outcomes with
    | [] => (.ok none, { w with readAt := w.now :: w.readAt })
    | o :: os => (o, { w with outcomes := os, readAt := w.now :: w.readAt })

/-- The result of waiting in such a world, and when the reads took place. -/
def observe (r : RetrySettings) (topic : String) (outcomes : List (Except Failure (Option α))) :
    Except Failure α × List Nat :=
  let p : Program (interface α) (Except Failure α) :=
    await r topic (Program.call (I := interface α) .read)
      fun ms => Program.call (I := interface α) (.wait ms)
  let (result, w) := p.run World.answer ⟨outcomes, 0, []⟩
  (result, w.readAt.reverse)

end TopicSync.Visibility
