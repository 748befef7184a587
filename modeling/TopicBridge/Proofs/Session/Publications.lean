/-
**What a publisher writes and publishes.**

A publisher writes at most one frame in a step.  It is the written form of the one packet that a
step of this kind can send, and if there is a connection the broker admits its size.  Among the
frames the messages are told apart by their first byte: in a step a publisher publishes nothing, or
the message that it has just been given, and a message that it has been given is published or
counted as failed.

Main definitions:

* `Effect.publications` — the messages among the frames that are written;
* `Publisher.Sends` — the packets that a publisher sends, and when;
* `Publisher.Publishes` — a message is published.

Main results:

* `Publisher.frame_of_step` — **what is written in a step**;
* `Publisher.publications_of_step` — **what is published in a step**.
-/

import TopicBridge.Proofs.Session.Frames
import TopicBridge.Proofs.Session.PublisherStep

set_option autoImplicit false

namespace TopicBridge

open Mqtt

/-! ### Messages among the frames -/

/-- The messages among the frames that are written. -/
def Effect.publications (es : List Effect) : List Bytes :=
  (Effect.written es).filter fun bytes => bytes.packetType? = some 3

namespace Publisher

variable {p : Publisher} {w : Surroundings} {a b : Phase} {i : Input} {es : List Effect}
  {s : Pumping} {m : Message}

/-! ### What is written -/

/-- The packets that a publisher sends, and when. -/
inductive Sends (p : Publisher) : Phase → Input → Packet → Prop where
  | greeting {deadline : Millis} :
      Sends p (.opening deadline) (.link .opened) (.connect (p.settings.connect true none))
  | question {s : Pumping} : Sends p (.pumping s) (.link .ping) .pingReq
  | message {s : Pumping} {m : Message} : Sends p (.pumping s) (.next m) (s.packet p m)
  | release {s : Pumping} {f : InFlight} :
      Sends p (.settling s f) (.link .packet) (.pubRel ⟨f.id, .success⟩)
  | farewell {s : Pumping} : Sends p (.pumping s) .drained (.disconnect {})

/-- A frame is written: the packet, and that the broker admits its size if there is one already
that has named a limit. -/
structure Writes (p : Publisher) (a : Phase) (i : Input) (packet : Packet) (bytes : Bytes) :
    Prop where
  sends : p.Sends a i packet
  encode : packet.encode = .ok bytes
  admits : ∀ c, a.connection? = some c → Connection.admits c.limits bytes.length

theorem Pumping.packet_of_eq (h : min m.qos s.connection.limits.maximumQoS = .atMostOnce) :
    s.packet p m = .publish (p.publish s.connection.limits m 0) := by
  rw [packet, number_of_eq h]

theorem Pumping.packet_of_ne (h : min m.qos s.connection.limits.maximumQoS ≠ .atMostOnce) :
    s.packet p m = .publish (p.publish s.connection.limits m s.connection.nextId) := by
  rw [packet, number_of_ne h]
  rfl

/-- **What is written in a step**: nothing, or one frame. -/
theorem frame_of_step (h : p.Step w a i b es) :
    Effect.written es = [] ∨
      ∃ packet bytes, Effect.written es = [bytes] ∧ p.Writes a i packet bytes := by
  cases h with
  | away _ _ hes =>
      refine .inl (Effect.written_eq_nil_iff.2 fun bytes hmem => ?_)
      rcases hes _ hmem with h | h | h <;> cases h
  | opened hc =>
      obtain ⟨sent, hsend, hpair⟩ := bind_eq_ok_iff.1 hc
      obtain ⟨-, rfl⟩ := Prod.mk.inj (Except.ok.inj hpair)
      refine .inr ⟨_, _, rfl, .greeting, Connection.encode_of_send hsend, ?_⟩
      rintro c ⟨⟩
  | pinged _ hs =>
      refine .inr ⟨_, _, rfl, .question, Connection.encode_of_send hs, ?_⟩
      rintro c ⟨⟩
      exact Connection.admits_of_send hs
  | @left s =>
      cases hc : s.connection.farewell with
      | none => exact .inl rfl
      | some bytes =>
          have hs := Connection.farewell_eq_some_iff.1 hc
          refine .inr ⟨_, bytes, rfl, .farewell, Connection.encode_of_send hs, ?_⟩
          rintro c ⟨⟩
          exact Connection.admits_of_send hs
  | published hq hs hfit =>
      refine .inr ⟨_, _, rfl, .message, ?_, ?_⟩
      · rwa [Pumping.packet_of_eq hq]
      · rintro c ⟨⟩
        exact hfit
  | sent hf hq hs hfit =>
      subst hf
      refine .inr ⟨_, _, rfl, .message, ?_, ?_⟩
      · rwa [Pumping.packet_of_ne hq]
      · rintro c ⟨⟩
        exact hfit
  | released hr _ hs =>
      refine .inr ⟨_, _, rfl, .release, Connection.encode_of_send hs, ?_⟩
      rintro c ⟨⟩
      exact Connection.limits_of_receive hr ▸ Connection.admits_of_send hs
  | settled =>
      left
      split <;> rfl
  | heard | unwelcome | accepted | ignored | lost | oversized | unsent | waited | failed =>
      exact .inl rfl

/-! ### Publications -/

theorem publications_of_written {packet : Packet} {bytes : Bytes}
    (hes : Effect.written es = [bytes]) (h : packet.encode = .ok bytes) :
    Effect.publications es = if packet.type = 3 then [bytes] else [] := by
  have htype := Packet.packetType?_of_encode h
  rw [Effect.publications, hes]
  split_ifs with hthree <;> simp [htype, hthree]

/-- A message is published: the packet that it becomes, and what is written. -/
structure Publishes (p : Publisher) (a : Phase) (m : Message) (b : Phase) (es : List Effect)
    (q : Publish) (bytes : Bytes) : Prop where
  packet : ∃ s id, a = .pumping s ∧ q = p.publish s.connection.limits m id
  written : q.encode = .ok bytes
  alone : Effect.publications es = [bytes]
  /-- The message awaits its acknowledgement just if it asks for one. -/
  awaited : b.inFlight?.map (fun f => (f.id, f.qos)) = q.packetId.map fun id => (id, q.qos)

/-- What awaits its acknowledgement once a message has been written. -/
theorem awaited_of_step (h : p.Step w (.pumping s) (.next m) b es) (hes : Effect.written es ≠ []) :
    b.inFlight?.map (fun f => (f.id, f.qos)) =
      (p.publish s.connection.limits m (s.number m).1).packetId.map fun id =>
        (id, min m.qos s.connection.limits.maximumQoS) := by
  cases h with
  | oversized | unsent => exact absurd rfl hes
  | published hq => simp [publish, hq, Phase.inFlight?]
  | sent hf hq =>
      subst hf
      rw [Pumping.number_of_ne hq]
      simp [publish, if_neg hq, Phase.inFlight?, Connection.allocateId]

/-- What is published in a step: nothing, or the message that the publisher has just been given. -/
theorem publications_of_step (h : p.Step w a i b es) :
    Effect.publications es = [] ∨
      ∃ m q bytes, i = .next m ∧ p.Publishes a m b es q bytes := by
  rcases frame_of_step h with hnone | ⟨packet, bytes, hwritten, hsends, hencode, -⟩
  · left
    rw [Effect.publications, hnone]
    rfl
  · have hpublications := publications_of_written hwritten hencode
    cases hsends with
    | message =>
        refine .inr ⟨_, _, bytes, rfl, ⟨_, _, rfl, rfl⟩, hencode, hpublications, ?_⟩
        exact awaited_of_step h (by simp [hwritten])
    | greeting | question | release | farewell =>
        exact .inl (hpublications.trans (if_neg (by simp [Packet.type])))

/-- A message that is taken is published, or counted as failed. -/
theorem publications_or_failed_of_step (h : p.Step w a (.next m) b es) :
    Effect.publications es ≠ [] ∨ p.failed ∈ es := by
  cases h with
  | oversized => exact .inr (by simp)
  | unsent => exact .inr (by simp)
  | published _ hs =>
      left
      rw [publications_of_written rfl hs]
      simp [Packet.type]
  | sent _ _ hs =>
      left
      rw [publications_of_written rfl hs]
      simp [Packet.type]

end Publisher

end TopicBridge
