import TopicSync.Failure

/-!
Waiting for a topic to become visible: read it again, at growing intervals, a bounded number of
times. Delays are whole milliseconds.
-/
namespace TopicSync

structure RetrySettings where
  maxAttempts : Nat
  initialDelay : Nat
  maxDelay : Nat
  multiplier : Float

namespace RetrySettings

def default : RetrySettings := ⟨6, 100, 10000, 2.0⟩

/-- A power by repeated squaring: the factors are multiplied in the order of the exponent's binary
digits, lowest first. The first argument bounds the number of digits. -/
def powerLoop : Nat → Float → Nat → Float → Float
  | 0, _, _, acc => acc
  | n + 1, base, exponent, acc =>
    let acc := if exponent % 2 = 1 then acc * base else acc
    if exponent / 2 = 0 then acc else powerLoop n (base * base) (exponent / 2) acc

def power (base : Float) (exponent : Nat) : Float := powerLoop (exponent + 1) base exponent 1.0

/-- The lesser of two numbers; of a number and none the number. -/
def least (x y : Float) : Float :=
  if x.isNaN then y else if y.isNaN then x else if x < y then x else y

/-- The wait after the given attempt, the first being 1: it grows by the multiplier with every
attempt up to the thirty-first, and is never above the greatest delay nor below zero. -/
def delayAfter (r : RetrySettings) (attempt : Nat) : Nat :=
  let wish := r.initialDelay.toFloat * power r.multiplier (min (attempt - 1) 30)
  let capped := least wish r.maxDelay.toFloat
  if 0.0 < capped then capped.toUInt64.toNat else 0

/-- How often to read at most: at least once. -/
def attempts (r : RetrySettings) : Nat := max 1 r.maxAttempts

end RetrySettings

/-- The longest sleep that a clock offers, of thirty years of 365 days. -/
def longestSleep : Nat := 30 * 365 * 86400 * 1000

/-- How long a sleep lasts that is asked for by its length. -/
def slept (ms : Nat) : Nat := min ms longestSleep

end TopicSync
