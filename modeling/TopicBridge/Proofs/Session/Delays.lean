/-
**How long a session waits before its next attempt.**

A session asks for a delay whenever an attempt has failed, and starts again with the least delay
when one has succeeded.  What it is given doubles with every failure, up to a limit.  The delay that
comes next is worked out at once, and it is limited only after it has been doubled; with a limit
that is half of the largest span of time or more, the doubled delay is no span of time, and then the
session has nothing to wait for.

Main definitions:

* `Backoff.Call`, `Backoff.answers?` — what a session asks of its delays, and the delays that it is
  given, if each of them is a span of time;
* `Backoff.delay` — the delay after some failures in a row;
* `Backoff.delays` — the delays that the calls of a session ask for.

Main results:

* `Backoff.answers?_after` — what is given is what is asked for, unless a delay is too large to be
  doubled;
* `Backoff.answers?_start_isSome_iff` — there is always a delay exactly with a limit below half of
  the largest span of time;
* `Relay.backoff_answers?` — **the delays of the sessions of a relay**;
* `Relay.backoff_exhausted` — settings with which a session has no delay at all.
-/

import Mathlib.Algebra.Group.Nat.Defs
import Mathlib.Tactic.SplitIfs
import TopicBridge.Proofs.Rule.Built
import TopicBridge.Relay.Running

set_option autoImplicit false

namespace TopicBridge

namespace Backoff

/-! ### Calls -/

/-- What a session asks of its delays. -/
inductive Call where
  /-- An attempt has failed: how long to wait before the next one. -/
  | next
  /-- An attempt has succeeded. -/
  | reset
  deriving DecidableEq, Repr

/-- The delays that some calls are given, in order; `none` if one of them is given none. -/
def answers? : Backoff → List Call → Option (List Millis)
  | _, [] => some []
  | b, .next :: calls => b.next?.bind fun (given, b) => (b.answers? calls).map (given :: ·)
  | b, .reset :: calls => b.reset.answers? calls

/-- The delay after `k` failures in a row. -/
def delay (min max k : Nat) : Nat := Min.min (min * 2 ^ k) max

/-- The delays that some calls ask for, when there have been `k` failures since the last success. -/
def delays (min max : Nat) : Nat → List Call → List Nat
  | _, [] => []
  | k, .next :: calls => delay min max k :: delays min max (k + 1) calls
  | _, .reset :: calls => delays min max 0 calls

variable {min max : Nat}

theorem delay_zero (h : min ≤ max) : delay min max 0 = min := by
  rw [delay, pow_zero, Nat.mul_one]
  exact Nat.min_eq_left h

/-- The delay is doubled and then limited. -/
theorem delay_succ (min max k : Nat) :
    delay min max (k + 1) = Min.min (2 * delay min max k) max := by
  have hpow : min * 2 ^ (k + 1) = 2 * (min * 2 ^ k) := by
    rw [pow_succ, ← Nat.mul_assoc, Nat.mul_comm]
  rw [delay, delay, hpow]
  omega

theorem delay_le (min max k : Nat) : delay min max k ≤ max := Nat.min_le_right _ _

/-! ### What is given -/

/-- The delays of a session after `k` failures in a row. -/
def after (min max k : Nat) : Backoff := ⟨delay min max k, min, max⟩

theorem start_eq_after (h : min ≤ max) : start min max = after min max 0 := by
  rw [start, after, delay_zero h, Nat.max_eq_left h]

theorem reset_after (h : min ≤ max) (k : Nat) : (after min max k).reset = after min max 0 := by
  rw [reset, after, after, delay_zero h]

theorem next?_after (min max k : Nat) :
    (after min max k).next? =
      if 2 * delay min max k < Millis.bound then
        some (delay min max k, after min max (k + 1)) else none := by
  rw [next?, after, after, delay_succ]

/-- **What is given is what is asked for**, unless one of the delays is too large to be doubled. -/
theorem answers?_after (h : min ≤ max) (k : Nat) (calls : List Call) :
    (after min max k).answers? calls =
      if ∀ d ∈ delays min max k calls, 2 * d < Millis.bound then
        some (delays min max k calls) else none := by
  induction calls generalizing k with
  | nil => simp [answers?, delays]
  | cons call calls ih =>
      cases call with
      | reset =>
          rw [answers?, reset_after h, ih 0]
          rfl
      | next =>
          rw [answers?, next?_after, delays]
          by_cases hd : 2 * delay min max k < Millis.bound
          · rw [if_pos hd, Option.bind_some]
            dsimp only
            rw [ih (k + 1)]
            simp only [List.forall_mem_cons, hd, true_and]
            split_ifs <;> rfl
          · have hnot : ¬∀ d ∈ delay min max k :: delays min max (k + 1) calls,
                2 * d < Millis.bound := by
              intro hall
              exact hd (hall _ (List.mem_cons_self ..))
            rw [if_neg hd, if_neg hnot]
            rfl

/-! ### The largest delays -/

theorem le_of_mem_delays {k : Nat} {calls : List Call} {d : Nat}
    (h : d ∈ delays min max k calls) : d ≤ max := by
  induction calls generalizing k with
  | nil => cases h
  | cons call calls ih =>
      cases call with
      | reset => exact ih h
      | next =>
          rcases List.mem_cons.1 h with rfl | h
          · exact delay_le min max k
          · exact ih h

/-- Failures in a row ask for one delay after the other. -/
theorem delay_mem_delays_replicate {k n j : Nat} (h : j < n) :
    delay min max (k + j) ∈ delays min max k (List.replicate n .next) := by
  induction n generalizing k j with
  | zero => omega
  | succ n ih =>
      rw [List.replicate_succ, delays]
      cases j with
      | zero => exact List.mem_cons_self ..
      | succ j =>
          have hmem : delay min max (k + 1 + j) ∈
              delays min max (k + 1) (List.replicate n .next) := ih (by omega)
          rw [show k + (j + 1) = k + 1 + j by omega]
          exact List.mem_cons_of_mem _ hmem

/-- With a limit that cannot be doubled, 64 failures in a row are too many: a least delay of a
second has grown to half of the largest span of time by then. -/
theorem answers?_start_replicate (hmin : 1000 ≤ min) (h : min ≤ max)
    (hmax : Millis.bound ≤ 2 * max) :
    (start min max).answers? (List.replicate 64 .next) = none := by
  have hlast : delay min max (0 + 63) ∈ delays min max 0 (List.replicate 64 .next) :=
    delay_mem_delays_replicate (by decide)
  have hlarge : Millis.bound ≤ 2 * delay min max (0 + 63) := by
    rw [Millis.bound, UInt64.size] at hmax ⊢
    rw [delay]
    omega
  rw [start_eq_after h, answers?_after h, if_neg]
  intro hall
  have hlt := hall _ hlast
  omega

/-- **There is always a delay, whatever the calls, exactly with a limit that can be doubled.** -/
theorem answers?_start_isSome_iff (hmin : 1000 ≤ min) (h : min ≤ max) :
    (∀ calls, ((start min max).answers? calls).isSome) ↔ 2 * max < Millis.bound := by
  constructor
  · intro hsome
    by_contra hmax
    have hnone := answers?_start_replicate hmin h (Nat.le_of_not_lt hmax)
    have htrue := hsome (List.replicate 64 .next)
    rw [hnone] at htrue
    cases htrue
  · intro hmax calls
    rw [start_eq_after h, answers?_after h, if_pos]
    · rfl
    · intro d hd
      have hle := le_of_mem_delays hd
      omega

end Backoff

/-! ### The sessions of a relay -/

/-- Settings that have been checked have a least delay, and a limit that is not below it. -/
theorem Config.reconnect_of_validate {c : Config} (h : c.validate = .ok ()) :
    1 ≤ c.relay.reconnectMinSecs.toNat ∧
      c.relay.reconnectMinSecs.toNat ≤ c.relay.reconnectMaxSecs.toNat := by
  have hproblem := Config.validate_eq_ok_iff.1 h
  simp only [Config.problem?, Option.or_eq_none_iff] at hproblem
  have hrelay : c.relay.problem? = none := by simpa using hproblem.2
  rw [RelayOptions.problem?] at hrelay
  split_ifs at hrelay with _ hzero habove
  constructor
  · rw [Nat.one_le_iff_ne_zero]
    intro hnat
    exact hzero (UInt64.toNat_inj.1 hnat)
  · rw [gt_iff_lt, UInt64.lt_iff_toNat_lt] at habove
    exact Nat.le_of_not_lt habove

namespace Relay

/-- **The delays of the sessions of a relay.**  With settings that have been checked, a session is
given the least delay after a success and twice as much after each further failure, up to the limit,
as long as each of these delays can be doubled.  This is so for all calls exactly with a limit below
2 ^ 63 seconds; with any other limit 64 failures in a row leave the session without a delay. -/
theorem backoff_answers? {r : Relay} (hv : r.config.validate = .ok ()) (process : String)
    (flow : Flow) (side : Side) (role : String) :
    (∀ calls, (r.session process flow side role).backoff.answers? calls =
      if ∀ d ∈ Backoff.delays (1000 * r.config.relay.reconnectMinSecs.toNat)
          (1000 * r.config.relay.reconnectMaxSecs.toNat) 0 calls, 2 * d < Millis.bound then
        some (Backoff.delays (1000 * r.config.relay.reconnectMinSecs.toNat)
          (1000 * r.config.relay.reconnectMaxSecs.toNat) 0 calls) else none) ∧
      ((∀ calls, ((r.session process flow side role).backoff.answers? calls).isSome) ↔
        r.config.relay.reconnectMaxSecs.toNat < 2 ^ 63) ∧
      (2 ^ 63 ≤ r.config.relay.reconnectMaxSecs.toNat →
        (r.session process flow side role).backoff.answers? (List.replicate 64 .next) = none) := by
  obtain ⟨hleast, hlimit⟩ := Config.reconnect_of_validate hv
  have hmin : 1000 ≤ 1000 * r.config.relay.reconnectMinSecs.toNat := by omega
  have hmax : 1000 * r.config.relay.reconnectMinSecs.toNat ≤
      1000 * r.config.relay.reconnectMaxSecs.toNat := by omega
  have hbackoff : (r.session process flow side role).backoff =
      .start (1000 * r.config.relay.reconnectMinSecs.toNat)
        (1000 * r.config.relay.reconnectMaxSecs.toNat) := rfl
  rw [hbackoff]
  refine ⟨?_, ?_, ?_⟩
  · intro calls
    rw [Backoff.start_eq_after hmax]
    exact Backoff.answers?_after hmax 0 calls
  · rw [Backoff.answers?_start_isSome_iff hmin hmax, Millis.bound, UInt64.size]
    omega
  · intro hlarge
    refine Backoff.answers?_start_replicate hmin hmax ?_
    rw [Millis.bound, UInt64.size]
    omega

/-- Settings of a relay whose sessions wait between two limits, in seconds. -/
def waiting (least most : UInt64) : Config where
  source := { host := "a" }
  destination := { host := "b" }
  rules := [{ sourceTopic := "wait", destTopic := "wait" }]
  relay := { reconnectMinSecs := least, reconnectMaxSecs := most }

/-- Between one second and ten, and again after a success. -/
theorem backoff_answers?_ten :
    ∃ r, Relay.new (Files.ofList []) "relay" (waiting 1 10) = .ok r ∧
      r.config.validate = .ok () ∧
      (r.session "1" .forward .source "sub").backoff.answers?
          [.next, .next, .next, .next, .next, .next, .reset, .next] =
        some [1000, 2000, 4000, 8000, 10000, 10000, 1000] := by
  have hvalid : (waiting 1 10).validate = .ok () := by rfl
  refine ⟨_, rfl, hvalid, ?_⟩
  rw [(backoff_answers? hvalid "1" .forward .source "sub").1]
  rfl

/-- **Settings are accepted with which a session has no delay at all.**  Its first attempt fails,
2 ^ 63 seconds are asked for, and the session comes to its end instead of waiting. -/
theorem backoff_exhausted :
    ∃ r, Relay.new (Files.ofList []) "relay" (waiting 9223372036854775808 9223372036854775808) =
        .ok r ∧
      Backoff.delays (1000 * 2 ^ 63) (1000 * 2 ^ 63) 0 [.next] = [1000 * 2 ^ 63] ∧
      (r.session "1" .forward .source "sub").backoff.answers? [.next] = none ∧
      ∀ w e, (r.lane "1" .forward).subscriber.step? w
          ⟨.losing e, (r.session "1" .forward .source "sub").backoff⟩ .taken =
        some (⟨.stopped, (r.session "1" .forward .source "sub").backoff⟩, []) := by
  refine ⟨_, rfl, by decide, rfl, ?_⟩
  intro w e
  rfl

end Relay

end TopicBridge
