/-
**What is written for a packet is one frame.**

The length of a body stands in front of it and is computed before the body is written, from the
sizes of the fields; and the same is done once more for the property list inside the body.  The
sizes are those of the written fields, so the announced length would always be right, were it not
cut off: a length is a number of 32 bits before it is compared with the greatest length that a frame
can have.  A body of less than 2 ^ 32 bytes is announced as it is or refused.  A longer one can be
announced as a short one, and whoever reads the frame takes the end of the body for further frames.

Main definitions:

* `Mqtt.Packet.section?` — the property list in the body of a packet, and where it stands;
* `Mqtt.Packet.LaidOut` — the parts of a written packet and the lengths that they announce;
* `Mqtt.Packet.Framed` — one frame whose lengths are those of its parts.

Main results:

* `Packet.laidOut_of_encode` — every written packet is laid out as announced, modulo 2 ^ 32;
* `Packet.encode_framed` — **it is one frame if and only if its body is shorter than that**;
* `Packet.encode_overlong` — a message that is written as more than one frame.
-/

import Mathlib.Tactic.SplitIfs
import TopicBridge.Proofs.Mqtt.Reread

set_option autoImplicit false

namespace TopicBridge.Mqtt

/-! ### Announced lengths -/

/-- A length as it is announced: of the number only 32 bits are looked at. -/
def announced (n : Nat) : Nat := (UInt32.ofNat n).toNat

theorem announced_eq_mod (n : Nat) : announced n = n % 4294967296 := UInt32.toNat_ofNat

/-- A length is announced as it is if and only if it has 32 bits. -/
theorem announced_eq_iff {n : Nat} : announced n = n ↔ n < 4294967296 := by
  rw [announced_eq_mod]
  omega

/-- What stands in front of a body. -/
theorem Frame.header_eq_ok_iff {first : UInt8} {n : Nat} {header : Bytes} :
    Frame.header first n = .ok header ↔
      announced n ≤ VarInt.maxValue ∧ header = first :: VarInt.encode (announced n) := by
  rw [Frame.header, bind_eq_ok_iff]
  constructor
  · rintro ⟨size, hsize, hheader⟩
    obtain ⟨hle, rfl⟩ := VarInt.eq_encode_of_write hsize
    exact ⟨hle, (Except.ok.inj hheader).symm⟩
  · rintro ⟨hle, rfl⟩
    exact ⟨_, if_pos hle, rfl⟩

theorem Frame.header_eq_error {first : UInt8} {n : Nat} (h : VarInt.maxValue < announced n) :
    Frame.header first n = .error .packetTooLarge := by
  rw [announced] at h
  rw [Frame.header, VarInt.write, if_neg (Nat.not_le.2 h)]
  rfl

/-- The parts of a written property list. -/
theorem Properties.exists_of_encode {p : Properties} {bytes : Bytes} (h : p.encode = .ok bytes) :
    ∃ entries, bytes = VarInt.encode (announced p.encodedSize) ++ entries ∧
      writeAll p.toList = .ok entries ∧ entries.length = p.encodedSize ∧
      bytes.length = p.wireSize := by
  obtain ⟨size, hsize, h⟩ := bind_eq_ok_iff.1 h
  obtain ⟨entries, hentries, h⟩ := bind_eq_ok_iff.1 h
  obtain rfl : size ++ entries = bytes := Except.ok.inj h
  obtain ⟨hle, rfl⟩ := VarInt.eq_encode_of_write hsize
  have hlen : entries.length = p.encodedSize := (agrees_of_writeAll hentries).1
  refine ⟨entries, rfl, hentries, hlen, ?_⟩
  rw [List.length_append, VarInt.length_encode hle, hlen, wireSize]

theorem Ack.length_body_le (a : Ack) : a.body.length ≤ 3 := by
  unfold body
  split
  · exact Nat.le_succ 2
  · exact Nat.le_refl 3

namespace Packet

/-! ### Layout -/

/-- The property list that is written with a packet, and the number of bytes in front of it in the
body. -/
def section? : Packet → Option (Nat × Properties)
  | connect p => some (10, p.properties)
  | publish p => some (textSize p.topic + (if p.qos = .atMostOnce then 0 else 2), p.properties)
  | subscribe p => some (2, p.properties)
  | disconnect p => if p = {} then none else some (1, p.properties)
  | _ => none

/-- The property list of a packet stands in its place in the body, behind its announced length. -/
def SectionAt (p : Packet) (body : Bytes) : Prop :=
  ∀ k list, p.section? = some (k, list) → ∃ front entries back,
    body = front ++ (VarInt.encode (announced list.encodedSize) ++ entries) ++ back ∧
    front.length = k ∧ Properties.writeAll list.toList = .ok entries ∧
    entries.length = list.encodedSize

/-- What is written for a packet: a first byte, the announced length and the body. -/
structure LaidOut (p : Packet) (first : UInt8) (body bytes : Bytes) : Prop where
  bytes_eq : bytes = first :: (VarInt.encode (announced p.bodySize) ++ body)
  length_body : body.length = p.bodySize
  announced_le : announced p.bodySize ≤ VarInt.maxValue
  list : p.SectionAt body

variable {p : Packet} {bytes : Bytes}

/-- A packet with a property list, from the parts of its body. -/
theorem laidOut_of_section {k : Nat} {list : Properties} {first : UInt8}
    {header front written back : Bytes} (hsection : p.section? = some (k, list))
    (hheader : Frame.header first p.bodySize = .ok header) (hlist : list.encode = .ok written)
    (hfront : front.length = k) (hsize : k + list.wireSize + back.length = p.bodySize)
    (hbytes : header ++ (front ++ written ++ back) = bytes) :
    ∃ first body, p.LaidOut first body bytes := by
  obtain ⟨hle, rfl⟩ := Frame.header_eq_ok_iff.1 hheader
  obtain ⟨entries, rfl, hentries, hlen, hwire⟩ := Properties.exists_of_encode hlist
  refine ⟨first, _, hbytes.symm, ?_, hle, ?_⟩
  · rw [← hsize, ← hwire, ← hfront, List.length_append, List.length_append]
  · intro k' list' hp
    obtain ⟨rfl, rfl⟩ := Prod.mk.inj (Option.some.inj (hsection.symm.trans hp))
    exact ⟨front, entries, back, rfl, hfront, hentries, hlen⟩

/-- A short body without a property list. -/
theorem laidOut_short {first : UInt8} {body : Bytes} (hlen : body.length = p.bodySize)
    (hshort : body.length ≤ 3) (hnone : p.section? = none) :
    p.LaidOut first body (first :: (VarInt.encode body.length ++ body)) := by
  have hsame : announced p.bodySize = body.length := by
    rw [← hlen]
    exact announced_eq_iff.2 (by omega)
  refine ⟨by rw [hsame], hlen, ?_, ?_⟩
  · rw [hsame, VarInt.maxValue]
    omega
  · intro k list hp
    cases hnone.symm.trans hp

theorem laidOut_empty {first : UInt8} (hsize : p.bodySize = 0) (hnone : p.section? = none) :
    p.LaidOut first [] [first, 0] := by
  have hzero : VarInt.encode 0 = [0] := VarInt.encode_of_lt (by decide)
  have hlaid : p.LaidOut first [] (first :: (VarInt.encode ([] : Bytes).length ++ [])) :=
    laidOut_short hsize.symm (Nat.zero_le 3) hnone
  rwa [List.length_nil, hzero] at hlaid

/-- The length of a field that may be left out. -/
theorem length_of_getD {α : Type} {write : α → Except EncodeError Bytes} {size : α → Nat}
    {field : Option α} {written : Bytes}
    (hsize : ∀ a w, write a = .ok w → w.length = size a)
    (h : (field.map write).getD (.ok []) = .ok written) :
    written.length = (field.map size).getD 0 := by
  cases field with
  | none => exact congrArg List.length (Except.ok.inj h).symm
  | some a => exact hsize a written h

theorem laidOut_connect {p : Connect} (h : p.encode = .ok bytes) :
    ∃ first body, (connect p).LaidOut first body bytes := by
  obtain ⟨header, hheader, h⟩ := bind_eq_ok_iff.1 h
  obtain ⟨protocol, hprotocol, h⟩ := bind_eq_ok_iff.1 h
  obtain ⟨properties, hproperties, h⟩ := bind_eq_ok_iff.1 h
  obtain ⟨client, hclient, h⟩ := bind_eq_ok_iff.1 h
  obtain ⟨user, huser, h⟩ := bind_eq_ok_iff.1 h
  obtain ⟨password, hpassword, h⟩ := bind_eq_ok_iff.1 h
  have hname : protocol.length = 6 := (agrees_of_writeText hprotocol).1
  have hid : client.length = textSize p.clientId := (agrees_of_writeText hclient).1
  have hu : user.length = (p.username.map textSize).getD 0 :=
    length_of_getD (fun _ _ hw => (agrees_of_writeText hw).1) huser
  have hw : password.length = (p.password.map fun bytes => 2 + bytes.length).getD 0 :=
    length_of_getD (fun _ _ hw => (takes_of_writeBinary hw).1) hpassword
  -- the name and the level of the protocol, the flags and the keep alive stand in front of the list
  have hfront :
      (protocol ++ [protocolLevel, p.flags] ++ Bytes.ofUInt16 p.keepAlive).length = 10 := by
    rw [List.length_append, List.length_append, hname]
    rfl
  have hbytes : header ++ (protocol ++ [protocolLevel, p.flags] ++ Bytes.ofUInt16 p.keepAlive ++
      properties ++ (client ++ user ++ password)) = bytes := by
    rw [← Except.ok.inj h]
    simp only [List.append_assoc]
  refine laidOut_of_section rfl hheader hproperties hfront ?_ hbytes
  rw [List.length_append, List.length_append, hid, hu, hw, bodySize, Connect.bodySize]
  omega

theorem laidOut_publish {p : Publish} (h : p.encode = .ok bytes) :
    ∃ first body, (publish p).LaidOut first body bytes := by
  obtain ⟨header, topic, properties, hheader, htopic, hproperties, rfl⟩ :=
    Publish.encode_eq_ok_iff.1 h
  have hname : topic.length = textSize p.topic := (agrees_of_writeText htopic).1
  have hfront : (topic ++ p.idField).length =
      textSize p.topic + if p.qos = .atMostOnce then 0 else 2 := by
    rw [List.length_append, hname, Publish.length_idField]
  refine laidOut_of_section rfl hheader hproperties hfront rfl ?_
  simp only [List.append_assoc]

/-- The filters of a subscription take the announced length. -/
theorem length_of_subscriptions {subscriptions : List Subscription} {parts : List Bytes}
    (h : subscriptions.mapM Subscription.encode = .ok parts) :
    parts.flatten.length = subscriptions.foldr (fun s n => textSize s.filter + 1 + n) 0 := by
  induction subscriptions generalizing parts with
  | nil => exact congrArg (List.length ∘ List.flatten) (Except.ok.inj h).symm
  | cons s subscriptions ih =>
      rw [List.mapM_cons] at h
      obtain ⟨part, hpart, h⟩ := bind_eq_ok_iff.1 h
      obtain ⟨others, hothers, h⟩ := bind_eq_ok_iff.1 h
      obtain rfl : part :: others = parts := Except.ok.inj h
      obtain ⟨filter, hfilter, hpart⟩ := bind_eq_ok_iff.1 hpart
      obtain rfl : filter ++ [s.options] = part := Except.ok.inj hpart
      have hname : filter.length = textSize s.filter := (agrees_of_writeText hfilter).1
      simp only [List.flatten_cons, List.length_append, List.length_singleton, hname,
        ih hothers, List.foldr_cons]

theorem laidOut_subscribe {p : Subscribe} (h : p.encode = .ok bytes) :
    ∃ first body, (subscribe p).LaidOut first body bytes := by
  obtain ⟨header, hheader, h⟩ := bind_eq_ok_iff.1 h
  obtain ⟨properties, hproperties, h⟩ := bind_eq_ok_iff.1 h
  obtain ⟨parts, hparts, h⟩ := bind_eq_ok_iff.1 h
  have hbytes : header ++ (Bytes.ofUInt16 p.packetId ++ properties ++ parts.flatten) = bytes := by
    rw [← Except.ok.inj h]
    simp only [List.append_assoc]
  refine laidOut_of_section rfl hheader hproperties rfl ?_ hbytes
  rw [length_of_subscriptions hparts]
  rfl

theorem laidOut_disconnect {p : Disconnect} (h : p.encode = .ok bytes) :
    ∃ first body, (disconnect p).LaidOut first body bytes := by
  by_cases hp : p = {}
  · rw [Disconnect.encode, if_pos hp] at h
    obtain rfl := Except.ok.inj h
    exact ⟨0xE0, [], laidOut_empty (by rw [bodySize, if_pos hp]) (by rw [section?, if_pos hp])⟩
  · rw [Disconnect.encode, if_neg hp] at h
    obtain ⟨header, hheader, h⟩ := bind_eq_ok_iff.1 h
    obtain ⟨properties, hproperties, h⟩ := bind_eq_ok_iff.1 h
    have hsection : (disconnect p).section? = some (1, p.properties) := by
      rw [section?, if_neg hp]
    have hsize : (disconnect p).bodySize = p.bodySize := by
      rw [bodySize, if_neg hp]
    rw [← hsize] at hheader
    have hbytes : header ++ ([p.reasonCode.code] ++ properties ++ []) = bytes := by
      rw [← Except.ok.inj h]
      simp only [List.append_assoc, List.append_nil]
    refine laidOut_of_section hsection hheader hproperties rfl ?_ hbytes
    rw [hsize, Disconnect.bodySize, List.length_nil, Nat.add_zero]

theorem laidOut_ack (make : Ack → Packet) (a : Ack) (first : UInt8)
    (hsize : (make a).bodySize = a.body.length) (hnone : (make a).section? = none) :
    ∃ first' body, (make a).LaidOut first' body (a.encode first) := by
  rw [Ack.encode_eq, List.cons_append]
  exact ⟨first, a.body, laidOut_short hsize.symm a.length_body_le hnone⟩

/-- **Whatever is written for a packet is laid out as announced**, the lengths being cut off at 32
bits. -/
theorem laidOut_of_encode (h : p.encode = .ok bytes) :
    ∃ first body, p.LaidOut first body bytes := by
  cases p with
  | connect p => exact laidOut_connect h
  | publish p => exact laidOut_publish h
  | subscribe p => exact laidOut_subscribe h
  | disconnect p => exact laidOut_disconnect h
  | pubAck a => exact Except.ok.inj h ▸ laidOut_ack pubAck a 0x40 rfl rfl
  | pubRec a => exact Except.ok.inj h ▸ laidOut_ack pubRec a 0x50 rfl rfl
  | pubRel a => exact Except.ok.inj h ▸ laidOut_ack pubRel a 0x62 rfl rfl
  | pubComp a => exact Except.ok.inj h ▸ laidOut_ack pubComp a 0x70 rfl rfl
  | pingReq => exact Except.ok.inj h ▸ ⟨0xC0, [], laidOut_empty rfl rfl⟩
  | connAck _ | subAck _ | pingResp => cases h

/-! ### Frames -/

/-- One frame: a first byte, the length of the body and the body.  In the body the property list
stands in its place, behind the length of its entries. -/
def Framed (p : Packet) (bytes : Bytes) : Prop :=
  ∃ first body, bytes = first :: (VarInt.encode body.length ++ body) ∧
    body.length ≤ VarInt.maxValue ∧
    ∀ k list, p.section? = some (k, list) → ∃ front entries back,
      body = front ++ (VarInt.encode entries.length ++ entries) ++ back ∧ front.length = k ∧
      Properties.writeAll list.toList = .ok entries

/-- Two numbers with what follows them are written alike only if they are the same. -/
theorem eq_of_encode_append {m n : Nat} {body body' : Bytes} (hm : m ≤ VarInt.maxValue)
    (hn : n ≤ VarInt.maxValue) (h : VarInt.encode m ++ body = VarInt.encode n ++ body') :
    m = n ∧ body = body' := by
  have hread := (VarInt.read_encode_append hm body).symm.trans
    ((congrArg VarInt.read h).trans (VarInt.read_encode_append hn body'))
  exact Prod.mk.inj (Except.ok.inj hread)

theorem LaidOut.framed_iff {first : UInt8} {body : Bytes} (h : p.LaidOut first body bytes) :
    p.Framed bytes ↔ p.bodySize < 4294967296 := by
  constructor
  · rintro ⟨first', body', hbytes, hle, -⟩
    -- the length that stands there can be read in one way only
    have htails := (List.cons.inj (h.bytes_eq.symm.trans hbytes)).2
    obtain ⟨hsame, rfl⟩ := eq_of_encode_append h.announced_le hle htails
    rw [h.length_body] at hsame
    exact announced_eq_iff.1 hsame
  · intro hlt
    have hsame : announced p.bodySize = body.length := by
      rw [h.length_body]
      exact announced_eq_iff.2 hlt
    refine ⟨first, body, hsame ▸ h.bytes_eq, hsame ▸ h.announced_le, ?_⟩
    intro k list hsection
    obtain ⟨front, entries, back, hbody, hfront, hentries, hlen⟩ := h.list k list hsection
    -- the entries are a part of the body, so their number is not cut off either
    have hpart : entries.length ≤ body.length := by
      rw [hbody]
      simp only [List.length_append]
      omega
    have hshort : announced list.encodedSize = entries.length := by
      rw [hlen]
      apply announced_eq_iff.2
      rw [← hlen]
      have hwhole := h.length_body
      omega
    exact ⟨front, entries, back, hshort ▸ hbody, hfront, hentries⟩

/-- A body whose announced length does not fit into a header is refused. -/
theorem encode_eq_error (h : VarInt.maxValue < announced p.bodySize) :
    p.encode = .error .packetTooLarge := by
  have hsmall {n : Nat} (hn : n ≤ 3) : ¬VarInt.maxValue < announced n := by
    rw [announced_eq_iff.2 (by omega), VarInt.maxValue]
    omega
  cases p with
  | connect p =>
      rw [bodySize] at h
      rw [encode, Connect.encode, Frame.header_eq_error h]
      rfl
  | publish p =>
      rw [bodySize] at h
      rw [encode, Publish.encode, Frame.header_eq_error h]
      rfl
  | subscribe p =>
      rw [bodySize] at h
      rw [encode, Subscribe.encode, Frame.header_eq_error h]
      rfl
  | disconnect p =>
      by_cases hp : p = {}
      · rw [bodySize, if_pos hp] at h
        exact absurd h (hsmall (Nat.zero_le 3))
      · rw [bodySize, if_neg hp] at h
        rw [encode, Disconnect.encode, if_neg hp, Frame.header_eq_error h]
        rfl
  | pubAck a | pubRec a | pubRel a | pubComp a => exact absurd h (hsmall a.length_body_le)
  | pingReq | connAck _ | subAck _ | pingResp => exact absurd h (hsmall (Nat.zero_le 3))

/-- **What is written for a packet is one frame if and only if the length of its body has 32 bits.**
Up to there a body that is too long for any frame is refused; in general the length in front of it
is the number that is left of the length when it is cut off. -/
theorem encode_framed (p : Packet) :
    (∀ bytes, p.encode = .ok bytes →
      (∃ first body, p.LaidOut first body bytes) ∧
      (p.Framed bytes ↔ p.bodySize < 4294967296)) ∧
    (VarInt.maxValue < p.bodySize → p.bodySize < 4294967296 →
      p.encode = .error .packetTooLarge) := by
  constructor
  · intro bytes h
    obtain ⟨first, body, hlaid⟩ := laidOut_of_encode h
    exact ⟨⟨first, body, hlaid⟩, hlaid.framed_iff⟩
  · intro hlong hlt
    apply encode_eq_error
    rwa [announced_eq_iff.2 hlt]

/-- A message with the topic `a` and nothing else but a payload. -/
def plain (payload : Bytes) : Packet :=
  publish ⟨false, .atMostOnce, false, "a", none, payload, {}⟩

theorem bodySize_plain (payload : Bytes) : (plain payload).bodySize = 4 + payload.length := by
  have htopic : textSize "a" = 3 := by
    rfl
  have hlist : Properties.wireSize {} = 1 := by
    decide +kernel
  rw [plain, bodySize, Publish.bodySize, htopic, hlist, if_pos rfl]

/-- A subscription with an identifier is one frame; a message of 2 ^ 28 bytes is none at all. -/
theorem encode_framed_subscribe :
    let s : Packet := subscribe
      ⟨2, [⟨"a/+", .atLeastOnce, true, true, .always⟩], { subscriptionIdentifiers := [300] }⟩
    s.Framed [0x82, 12, 0, 2, 3, 0x0B, 0xAC, 2, 0, 3, 0x61, 0x2F, 0x2B, 0x0D] ∧
      (plain (List.replicate 268435456 0)).encode = .error .packetTooLarge := by
  intro s
  have hwritten : s.encode =
      .ok [0x82, 12, 0, 2, 3, 0x0B, 0xAC, 2, 0, 3, 0x61, 0x2F, 0x2B, 0x0D] :=
    toOption_eq_some_iff.1 (by decide +kernel)
  have hsize : s.bodySize < 4294967296 := by
    decide +kernel
  have hlong : (plain (List.replicate 268435456 0)).bodySize = 268435460 := by
    rw [bodySize_plain, List.length_replicate]
  refine ⟨((encode_framed s).1 _ hwritten).2.2 hsize, (encode_framed _).2 ?_ ?_⟩
  · rw [hlong, VarInt.maxValue]
    decide
  · rw [hlong]
    decide

/-- The length of a payload of just 2 ^ 32 bytes is not announced. -/
theorem encode_plain {payload : Bytes} (h : announced (4 + payload.length) = 4) :
    (plain payload).encode = .ok ([0x30, 4, 0, 1, 0x61, 0] ++ payload) := by
  have hfour : VarInt.encode 4 = [4] := VarInt.encode_of_lt (by decide)
  have htopic : writeText "a" = .ok [0, 1, 0x61] := toOption_eq_some_iff.1 (by decide +kernel)
  have hlist : Properties.encode {} = .ok [0] := toOption_eq_some_iff.1 (by decide +kernel)
  refine Publish.encode_eq_ok_iff.2 ⟨[0x30, 4], [0, 1, 0x61], [0], ?_, htopic, hlist, rfl⟩
  have hsize := bodySize_plain payload
  rw [plain, bodySize] at hsize
  rw [hsize, Frame.header_eq_ok_iff, h, hfour]
  exact ⟨by decide, rfl⟩

/-- **A message that is not one frame.**  Its payload has 2 ^ 32 bytes, of which the header
announces none: what is read is a message without a payload, and the payload is left for further
packets. -/
theorem encode_overlong :
    let payload : Bytes := List.replicate 4294967296 0
    let bytes := [0x30, 4, 0, 1, 0x61, 0] ++ payload
    (plain payload).encode = .ok bytes ∧
      VarInt.maxValue < (plain payload).bodySize ∧
      ¬(plain payload).Framed bytes ∧
      Decoder.decode default bytes = .ok (some (plain [], payload)) := by
  intro payload bytes
  have hlen : payload.length = 4294967296 := List.length_replicate
  have hsize : (plain payload).bodySize = 4294967300 := by
    rw [bodySize_plain, hlen]
  have hwritten : (plain payload).encode = .ok bytes := by
    apply encode_plain
    rw [hlen, announced_eq_mod]
  obtain ⟨first, body, hlaid⟩ := laidOut_of_encode hwritten
  refine ⟨hwritten, ?_, ?_, ?_⟩
  · rw [hsize, VarInt.maxValue]
    decide
  · rw [hlaid.framed_iff, hsize]
    decide
  · have hfour : VarInt.encode 4 = [4] := VarInt.encode_of_lt (by decide)
    have hread : ofFrame ⟨0x30, [0, 1, 0x61, 0]⟩ = .ok (plain []) :=
      toOption_eq_some_iff.1 (by decide +kernel)
    have hdecode :=
      Decoder.decode_encode_append (d := default) (by decide) (by decide) hread payload
    rw [List.length_cons, List.length_cons, List.length_cons, List.length_singleton, hfour]
      at hdecode
    exact hdecode

end Packet

end TopicBridge.Mqtt
