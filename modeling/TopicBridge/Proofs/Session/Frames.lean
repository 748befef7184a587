/-
**The frames that a session writes.**

The type of a packet can be told from the first byte of its written form.  So what a session writes
can be sorted without being read: messages, acknowledgements, questions.

Main definitions:

* `Bytes.packetType?` — the type of the packet that some bytes begin;
* `Mqtt.Packet.type` — the type of a packet.

Main results:

* `Packet.packetType?_of_encode` — **the type of a packet can be told from its written form**;
* `Effect.mem_written_iff`, `Effect.written_append` — what is written among what is done.
-/

import TopicBridge.Proofs.Mqtt.Reread
import TopicBridge.Session.Link

set_option autoImplicit false

namespace TopicBridge

open Mqtt

/-! ### What is written -/

namespace Effect

theorem mem_written_iff {es : List Effect} {bytes : Bytes} :
    bytes ∈ written es ↔ Effect.write bytes ∈ es := by
  induction es with
  | nil => simp [written]
  | cons e es ih => cases e <;> simp [written, ih]

theorem written_append (es fs : List Effect) : written (es ++ fs) = written es ++ written fs := by
  induction es with
  | nil => rfl
  | cons e es ih => cases e <;> simp [written, ih]

@[simp] theorem written_map_write (frames : List Bytes) :
    written (frames.map Effect.write) = frames := by
  induction frames with
  | nil => rfl
  | cons frame frames ih => simp [written, ih]

theorem written_eq_nil_iff {es : List Effect} :
    written es = [] ↔ ∀ bytes, Effect.write bytes ∉ es := by
  simp [List.eq_nil_iff_forall_not_mem, mem_written_iff]

end Effect

/-! ### Types of packets -/

/-- The type of the packet that some bytes begin. -/
def Bytes.packetType? (bytes : Bytes) : Option UInt8 :=
  bytes.head?.map fun first : UInt8 => first >>> 4

namespace Mqtt

/-- The type of a packet, as the upper half of the first byte has it. -/
def Packet.type : Packet → UInt8
  | connect _ => 1
  | connAck _ => 2
  | publish _ => 3
  | pubAck _ => 4
  | pubRec _ => 5
  | pubRel _ => 6
  | pubComp _ => 7
  | subscribe _ => 8
  | subAck _ => 9
  | pingReq => 12
  | pingResp => 13
  | disconnect _ => 14

theorem Frame.exists_of_header {first : UInt8} {n : Nat} {header : Bytes}
    (h : Frame.header first n = .ok header) : ∃ size, header = first :: size := by
  obtain ⟨size, -, hheader⟩ := bind_eq_ok_iff.1 h
  exact ⟨size, (Except.ok.inj hheader).symm⟩

theorem Publish.packetType?_of_encode {p : Publish} {bytes : Bytes} (h : p.encode = .ok bytes) :
    bytes.packetType? = some 3 := by
  obtain ⟨header, topic, properties, hheader, -, -, rfl⟩ := encode_eq_ok_iff.1 h
  obtain ⟨size, rfl⟩ := Frame.exists_of_header hheader
  exact congrArg some p.type_first

theorem Connect.packetType?_of_encode {p : Connect} {bytes : Bytes} (h : p.encode = .ok bytes) :
    bytes.packetType? = some 1 := by
  obtain ⟨header, hheader, hprotocol⟩ := bind_eq_ok_iff.1 h
  obtain ⟨protocol, -, hproperties⟩ := bind_eq_ok_iff.1 hprotocol
  obtain ⟨properties, -, hclient⟩ := bind_eq_ok_iff.1 hproperties
  obtain ⟨client, -, husername⟩ := bind_eq_ok_iff.1 hclient
  obtain ⟨username, -, hpassword⟩ := bind_eq_ok_iff.1 husername
  obtain ⟨password, -, hbytes⟩ := bind_eq_ok_iff.1 hpassword
  obtain ⟨size, rfl⟩ := Frame.exists_of_header hheader
  cases hbytes
  rfl

theorem Subscribe.packetType?_of_encode {p : Subscribe} {bytes : Bytes}
    (h : p.encode = .ok bytes) : bytes.packetType? = some 8 := by
  obtain ⟨header, hheader, hproperties⟩ := bind_eq_ok_iff.1 h
  obtain ⟨properties, -, hsubscriptions⟩ := bind_eq_ok_iff.1 hproperties
  obtain ⟨subscriptions, -, hbytes⟩ := bind_eq_ok_iff.1 hsubscriptions
  obtain ⟨size, rfl⟩ := Frame.exists_of_header hheader
  cases hbytes
  rfl

theorem Disconnect.packetType?_of_encode {p : Disconnect} {bytes : Bytes}
    (h : p.encode = .ok bytes) : bytes.packetType? = some 14 := by
  unfold Disconnect.encode at h
  split_ifs at h
  · cases h
    rfl
  · obtain ⟨header, hheader, hproperties⟩ := bind_eq_ok_iff.1 h
    obtain ⟨properties, -, hbytes⟩ := bind_eq_ok_iff.1 hproperties
    obtain ⟨size, rfl⟩ := Frame.exists_of_header hheader
    cases hbytes
    rfl

/-- An acknowledgement is told apart from the others by its first byte alone. -/
theorem Ack.packetType?_encode (first : UInt8) (a : Ack) :
    (a.encode first).packetType? = some (first >>> 4) := by
  rw [Ack.encode_eq]
  rfl

/-- The type of a packet can be told from its written form. -/
theorem Packet.packetType?_of_encode {packet : Packet} {bytes : Bytes}
    (h : packet.encode = .ok bytes) : bytes.packetType? = some packet.type := by
  cases packet with
  | connect p => exact Connect.packetType?_of_encode h
  | publish p => exact Publish.packetType?_of_encode h
  | subscribe p => exact Subscribe.packetType?_of_encode h
  | disconnect p => exact Disconnect.packetType?_of_encode h
  | pubAck a | pubRec a | pubRel a | pubComp a =>
      cases h
      exact Ack.packetType?_encode _ a
  | pingReq =>
      cases h
      rfl
  | connAck | subAck | pingResp => cases h

/-- Each of the frames that are the written forms of some packets is that of one of them. -/
theorem Packet.exists_of_mem_frames {frames : List Bytes} {packets : List Packet} {frame : Bytes}
    (h : frames.map Except.ok = packets.map Packet.encode) (hframe : frame ∈ frames) :
    ∃ packet ∈ packets, packet.encode = .ok frame := by
  have hmem : Except.ok frame ∈ packets.map Packet.encode := by
    rw [← h]
    exact List.mem_map_of_mem hframe
  exact List.mem_map.1 hmem

end Mqtt

end TopicBridge
