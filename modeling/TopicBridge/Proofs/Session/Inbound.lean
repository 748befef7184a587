/-
**What a connection keeps while it waits.**

Bytes come in on a connection, and packets are taken from the front of them; whatever else is done
with it leaves both the bytes and the decoder as they are.  So at any time the bytes that are left
follow the packets that have been taken, and the limit is still the one that was advertised when the
connection was opened.  From this it follows how many bytes a connection can hold when it has to
wait for more, and which packets it refuses.  No packet can be larger than the protocol admits, so it
does not matter that a limit above that is lowered.

Main definitions:

* `Connection.Listens` — what has come in on a connection and what has been taken from it.

Main results:

* `Connection.Listens.reads` — the bytes that are left follow the packets that have been taken;
* `Connection.limit_of_begin` — the limit of a new connection is the advertised one;
* `Connection.Listens.limited` — **how many bytes are kept, and what is too large**.
-/

import TopicBridge.Proofs.Mqtt.Limit
import TopicBridge.Proofs.Session.Stopping

set_option autoImplicit false

namespace TopicBridge

open Mqtt

/-! ### Reading on -/

namespace Mqtt.Decoder

variable {d : Decoder} {bytes mid rest : Bytes} {p : Packet} {ps : List Packet}

theorem Reads.append (h : d.Reads bytes ps rest) (more : Bytes) :
    d.Reads (bytes ++ more) ps (rest ++ more) := by
  induction h with
  | nil => exact .nil
  | cons hfirst _ ih => exact .cons (decode_append_of_some hfirst more) ih

/-- A further packet is read behind the others. -/
theorem Reads.snoc (h : d.Reads bytes ps mid) (hp : d.decode mid = .ok (some (p, rest))) :
    d.Reads bytes (ps ++ [p]) rest := by
  induction h with
  | nil => exact .cons hp .nil
  | cons hfirst _ ih => exact .cons hfirst (ih hp)

end Mqtt.Decoder

namespace Connection

variable {c c' : Connection} {stream : Bytes} {ps : List Packet}

/-! ### Listening -/

/-- What has come in on a connection since, what has been taken from it, and what it is now. -/
inductive Listens (c : Connection) : Bytes → List Packet → Connection → Prop where
  | start : Listens c [] [] c
  /-- Bytes come in. -/
  | arrive {stream : Bytes} {ps : List Packet} {c' : Connection} (h : Listens c stream ps c')
      (bytes : Bytes) : Listens c (stream ++ bytes) ps (c'.arrive bytes)
  /-- A packet is taken. -/
  | receive {stream : Bytes} {ps : List Packet} {c' c'' : Connection} {p : Packet}
      (h : Listens c stream ps c') (hp : c'.receive = .ok (some (p, c''))) :
      Listens c stream (ps ++ [p]) c''
  /-- The broker's limits become known, an identifier is given away or the stream ends. -/
  | other {stream : Bytes} {ps : List Packet} {c' c'' : Connection} (h : Listens c stream ps c')
      (hdecoder : c''.decoder = c'.decoder) (hinbound : c''.inbound = c'.inbound) :
      Listens c stream ps c''

/-- **The bytes that are left follow the packets that have been taken**, and the decoder is the same
all the time. -/
theorem Listens.reads (h : c.Listens stream ps c') :
    c'.decoder = c.decoder ∧ c.decoder.Reads (c.inbound ++ stream) ps c'.inbound := by
  induction h with
  | start =>
      rw [List.append_nil]
      exact ⟨rfl, .nil⟩
  | arrive _ bytes ih =>
      refine ⟨ih.1, ?_⟩
      rw [← List.append_assoc]
      exact ih.2.append bytes
  | receive _ hp ih =>
      obtain ⟨rest, hdecode, rfl⟩ := exists_of_receive hp
      rw [ih.1] at hdecode
      exact ⟨ih.1, ih.2.snoc hdecode⟩
  | other _ hdecoder hinbound ih =>
      rw [hdecoder, hinbound]
      exact ih

/-! ### Limits -/

/-- **The limit of a new connection is the advertised one**, unless no packet can be that large. -/
theorem limit_of_begin {p : Connect} {first : Bytes} {limit : UInt32}
    (h : begin p = .ok (c, first)) (hlimit : p.properties.maximumPacketSize = some limit) :
    c.decoder.limit = min limit.toNat Decoder.maxPacketSize := by
  obtain ⟨sent, -, hpair⟩ := bind_eq_ok_iff.1 h
  obtain ⟨rfl, -⟩ := Prod.mk.inj (Except.ok.inj hpair)
  rw [hlimit]
  rfl

/-- **How many bytes are kept, and what is too large.**  A connection is opened with an advertised
limit, and bytes come in and packets are taken in any order.  Where it has to wait for more bytes,
it holds fewer than a packet within the limit has, or at most four.  A packet at the front of the
bytes that are left is refused for its size if and only if it is above the limit, as soon as its
length is there and not before. -/
theorem Listens.limited {p : Connect} {first : Bytes} {limit : UInt32}
    (hbegin : begin p = .ok (c, first)) (hlimit : p.properties.maximumPacketSize = some limit)
    (h : c.Listens stream ps c') :
    c.decoder.Reads stream ps c'.inbound ∧
      (c'.decoder.decode c'.inbound = .ok none →
        c'.inbound.length ≤ max (min limit.toNat Decoder.maxPacketSize - 1) 4) ∧
      (∀ size, Frame.Heralds c'.inbound size →
        (c'.decoder.decode c'.inbound = .error .packetTooLarge ↔ limit.toNat < size)) ∧
      (c'.decoder.decode c'.inbound = .error .packetTooLarge →
        ∃ size, Frame.Heralds c'.inbound size ∧ limit.toNat < size) := by
  obtain ⟨hdecoder, hreads⟩ := h.reads
  rw [inbound_of_begin hbegin, List.nil_append] at hreads
  have hsame : c'.decoder.limit = min limit.toNat Decoder.maxPacketSize := by
    rw [hdecoder, limit_of_begin hbegin hlimit]
  -- no packet is above the largest one, so the limit might as well not have been lowered
  have habove : ∀ size, Frame.Heralds c'.inbound size →
      (c'.decoder.limit < size ↔ limit.toNat < size) := by
    intro size hsize
    have hmax := hsize.le_maxPacketSize
    rw [hsame]
    omega
  refine ⟨hreads, ?_, ?_, ?_⟩
  · intro hnone
    rw [← hsame]
    exact Decoder.length_le_of_decode hnone
  · intro size hsize
    rw [Decoder.decode_eq_tooLarge_iff, Frame.exists_heralds_iff hsize, habove size hsize]
  · intro hlarge
    obtain ⟨size, hsize, hlt⟩ := Decoder.decode_eq_tooLarge_iff.1 hlarge
    exact ⟨size, hsize, (habove size hsize).1 hlt⟩

/-- Where 130 bytes are admitted and 131 are announced, the packet is refused after the last byte of
its length, before any of its body is there. -/
theorem limited_announced : ∃ (p : Connect) (first : Bytes) (c c' : Connection),
    begin p = .ok (c, first) ∧ p.properties.maximumPacketSize = some 130 ∧
      c.Listens [0x30, 0x80, 0x01] [] c' ∧ c'.inbound = [0x30, 0x80, 0x01] ∧
      c'.decoder.decode c'.inbound = .error .packetTooLarge := by
  obtain ⟨⟨c, first⟩, hbegin⟩ : ∃ r, begin ⟨"a", true, 0, none, none,
      { maximumPacketSize := some 130 }⟩ = .ok r :=
    ⟨_, toOption_eq_some_iff.1 (Option.some_get (by decide +kernel)).symm⟩
  have hlistens : c.Listens [0x30, 0x80, 0x01] [] ((c.arrive [0x30, 0x80]).arrive [0x01]) :=
    (Listens.start.arrive [0x30, 0x80]).arrive [0x01]
  have hinbound : ((c.arrive [0x30, 0x80]).arrive [0x01]).inbound = [0x30, 0x80, 0x01] := by
    simp only [arrive, inbound_of_begin hbegin]
    rfl
  have hheralds : Frame.Heralds ((c.arrive [0x30, 0x80]).arrive [0x01]).inbound 131 := by
    rw [hinbound]
    exact ⟨0x30, [0x80, 0x01], 128, [], rfl, ⟨.more (by decide) (.last (by decide)), by decide⟩,
      rfl⟩
  have hlimited := Listens.limited hbegin rfl hlistens
  exact ⟨_, first, c, _, hbegin, rfl, hlistens, hinbound,
    (hlimited.2.2.1 131 hheralds).2 (by decide)⟩

end Connection

end TopicBridge
