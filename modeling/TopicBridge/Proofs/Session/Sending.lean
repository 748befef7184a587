/-
**What a connection sends and receives.**

A packet is sent if it has a written form, the broker admits its size and the stream works.  Of the
last two the size is looked at first, so a packet that is too large is refused as such whatever the
state of the stream.  A packet that is received changes nothing but the bytes that are left to be
read, and the broker's first packet nothing but the limits.

Main results:

* `Connection.admits_iff` — which sizes a broker admits;
* `Connection.send_eq_ok_iff` — **when a packet is sent**, and as which bytes;
* `Connection.exists_of_send_eq_packetTooLarge` — what is refused for its size has a written form;
* `Connection.exists_of_receive`, `Connection.exists_of_greet` — what a packet changes that is
  received.
-/

import Mathlib.Tactic.SplitIfs
import TopicBridge.Proofs.Rule.Built
import TopicBridge.Session.Connection

set_option autoImplicit false

namespace TopicBridge.Connection

open Mqtt

variable {c c' : Connection} {packet : Packet} {bytes : Bytes}

/-! ### Sending -/

/-- A broker admits every size up to the limit that it has named. -/
theorem admits_iff {l : ServerLimits} {size : Nat} :
    admits l size ↔ ∀ limit, l.maximumPacketSize = some limit → size ≤ limit.toNat := by
  unfold admits
  cases l.maximumPacketSize <;> simp

/-- A packet that has a written form is refused for its size, or for the state of the stream. -/
theorem send_of_encode (h : packet.encode = .ok bytes) :
    c.send packet =
      if admits c.limits bytes.length then
        match c.fault with
        | some cause => .error (.io cause)
        | none => .ok bytes
      else
        .error (.packetTooLarge bytes.length
          ((c.limits.maximumPacketSize.map (·.toNat)).getD 0)) := by
  simp only [send, h, Except.mapError, bind, Except.bind]
  cases admits c.limits bytes.length
  · rfl
  · cases c.fault <;> rfl

theorem send_of_encode_error {e : EncodeError} (h : packet.encode = .error e) :
    c.send packet = .error (.encode e) := by
  simp only [send, h, Except.mapError, bind, Except.bind]

/-- **When a packet is sent**, and as which bytes. -/
theorem send_eq_ok_iff :
    c.send packet = .ok bytes ↔
      packet.encode = .ok bytes ∧ admits c.limits bytes.length ∧ c.fault = none := by
  cases hencode : packet.encode with
  | error e => simp [send_of_encode_error hencode]
  | ok written =>
      rw [send_of_encode hencode]
      by_cases hfit : admits c.limits written.length
      · rw [if_pos hfit]
        cases c.fault with
        | some cause => simp
        | none =>
            constructor
            · intro h
              cases h
              exact ⟨rfl, hfit, rfl⟩
            · rintro ⟨h, -⟩
              cases h
              rfl
      · rw [if_neg hfit]
        refine iff_of_false nofun ?_
        rintro ⟨h, hadmits, -⟩
        cases h
        exact hfit hadmits

theorem encode_of_send (h : c.send packet = .ok bytes) : packet.encode = .ok bytes :=
  (send_eq_ok_iff.1 h).1

theorem admits_of_send (h : c.send packet = .ok bytes) : admits c.limits bytes.length :=
  (send_eq_ok_iff.1 h).2.1

/-- What is refused for its size has a written form, and one that is too large. -/
theorem exists_of_send_eq_packetTooLarge {size limit : Nat}
    (h : c.send packet = .error (.packetTooLarge size limit)) :
    ∃ bytes, packet.encode = .ok bytes ∧ admits c.limits bytes.length = false := by
  cases hencode : packet.encode with
  | error e =>
      rw [send_of_encode_error hencode] at h
      cases h
  | ok written =>
      refine ⟨written, rfl, ?_⟩
      rw [send_of_encode hencode] at h
      split_ifs at h with hfit
      · split at h <;> cases h
      · simpa using hfit

/-- Whatever keeps a packet from being sent, nothing is waited for. -/
theorem ne_timeout_of_send {e : SessionError} (h : c.send packet = .error e) (what : Awaited) :
    e ≠ .timeout what := by
  rintro rfl
  cases hencode : packet.encode with
  | error e =>
      rw [send_of_encode_error hencode] at h
      cases h
  | ok written =>
      rw [send_of_encode hencode] at h
      split_ifs at h
      · split at h <;> cases h
      · cases h

theorem farewell_eq_some_iff : c.farewell = some bytes ↔ c.send (.disconnect {}) = .ok bytes :=
  toOption_eq_some_iff

/-! ### Receiving -/

/-- A packet that is received is taken from the bytes that are left to be read. -/
theorem exists_of_receive (h : c.receive = .ok (some (packet, c'))) :
    ∃ rest, c.decoder.decode c.inbound = .ok (some (packet, rest)) ∧
      c' = { c with inbound := rest } := by
  unfold receive at h
  split at h
  · cases h
  · rename_i rest hdecode
    obtain ⟨rfl, rfl⟩ := Prod.mk.inj (Option.some.inj (Except.ok.inj h))
    exact ⟨rest, hdecode, rfl⟩
  · split at h <;> cases h

theorem limits_of_receive (h : c.receive = .ok (some (packet, c'))) : c'.limits = c.limits := by
  obtain ⟨rest, -, rfl⟩ := exists_of_receive h
  rfl

/-- The broker's first packet names the limits of the connection. -/
theorem exists_of_greet {answer : ConnAck} (h : c.greet packet = .ok (c', answer)) :
    packet = .connAck answer ∧ answer.reasonCode.isSuccess ∧
      c' = { c with limits := .ofConnAck answer.properties } := by
  unfold greet at h
  split at h
  · split_ifs at h with hsuccess
    obtain ⟨rfl, rfl⟩ := Prod.mk.inj (Except.ok.inj h)
    exact ⟨rfl, hsuccess, rfl⟩
  · cases h

end TopicBridge.Connection
