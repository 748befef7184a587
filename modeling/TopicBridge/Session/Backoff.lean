/-
**Waiting before the next attempt.**

A session that has lost its connection waits before it connects again, twice as long after each
failure, up to a limit.

Main definitions:

* `TopicBridge.Backoff` — the next delay and its limits, in milliseconds;
* `Backoff.next?` — the delay before the next attempt; there is none if the one after it is too
  large for a span of time;
* `Backoff.reset` — starts again after a success;
* `Millis.pass` — lets time pass.
-/

set_option autoImplicit false

namespace TopicBridge

/-- A span of time in milliseconds. -/
abbrev Millis := Nat

/-- Spans of time are below this: their whole seconds have 64 bits. -/
def Millis.bound : Nat := UInt64.size * 1000

/-- A clock moves on by a tenth of a second. -/
def Millis.tick : Millis := 100

/-- Lets a time pass tick by tick. -/
def Millis.pass {σ : Type} (onTick : σ → σ) (time : Millis) (s : σ) : σ :=
  Nat.repeat onTick (time / tick) s

/-- The delays of a session. -/
structure Backoff where
  current : Millis
  min : Millis
  max : Millis
  deriving DecidableEq, Repr

namespace Backoff

/-- Delays from `min` up to `max`, which is not taken to be below `min`. -/
def start (min max : Millis) : Backoff := ⟨min, min, Max.max max min⟩

/-- The delay before the next attempt, and the delays that follow it.  The delay is doubled before
it is limited. -/
def next? (b : Backoff) : Option (Millis × Backoff) :=
  if 2 * b.current < Millis.bound then
    some (b.current, { b with current := Min.min (2 * b.current) b.max })
  else none

/-- Starts again with the least delay. -/
def reset (b : Backoff) : Backoff := { b with current := b.min }

end Backoff

end TopicBridge
