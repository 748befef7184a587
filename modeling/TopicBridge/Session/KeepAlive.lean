/-
**Keeping a connection alive.**

A client that has nothing to say asks its broker from time to time whether it is still there.  A
question that has not been answered when the next one is due tells that it is not.

Main definitions:

* `TopicBridge.KeepAlive` — when the next question is due, and whether one is open;
* `KeepAlive.tick?` — what happens when it is due;
* `KeepAlive.answered` — the broker is there.
-/

import TopicBridge.Session.Backoff

set_option autoImplicit false

namespace TopicBridge

/-- The questions of a connection. -/
structure KeepAlive where
  /-- Seconds from one question to the next; zero for none at all. -/
  interval : UInt16
  next : Millis
  /-- Whether a question is open. -/
  outstanding : Bool
  deriving DecidableEq, Repr

namespace KeepAlive

/-- The time from one question to the next. -/
def period (k : KeepAlive) : Millis := 1000 * max k.interval.toNat 1

/-- The first question is due after one interval. -/
def restart (k : KeepAlive) (now : Millis) : KeepAlive :=
  { k with next := now + k.period, outstanding := false }

/-- The questions of a connection that has just been opened. -/
def start (interval : UInt16) (now : Millis) : KeepAlive := restart ⟨interval, 0, false⟩ now

/-- Whether a question is due. -/
def isDue (k : KeepAlive) (now : Millis) : Bool := k.interval ≠ 0 && k.next ≤ now

/-- How late a question may be without the next one being put off. -/
def slack : Millis := 5

/-- A question is put; `none` if the last one is still open.  After a delay the next one follows
in a whole interval. -/
def tick? (k : KeepAlive) (now : Millis) : Option KeepAlive :=
  if k.outstanding then none
  else some { k with
    next := (if k.next + slack < now then now else k.next) + k.period
    outstanding := true }

/-- A question is put only if none is open. -/
theorem outstanding_of_tick? {k k' : KeepAlive} {now : Millis}
    (h : k.tick? now = some k') : k.outstanding = false ∧ k'.outstanding = true := by
  unfold tick? at h
  cases hopen : k.outstanding with
  | true =>
      rw [if_pos hopen] at h
      cases h
  | false =>
      rw [if_neg (by simp [hopen])] at h
      cases h
      exact ⟨rfl, rfl⟩

/-- The broker is there. -/
def answered (k : KeepAlive) : KeepAlive := { k with outstanding := false }

end KeepAlive

end TopicBridge
