/-
**What is written is read back: packets.**

Some packets are sent by clients and brokers alike: messages, the steps of their acknowledgement
and the end of a connection.  Such a packet, if the protocol admits its fields and the decoder its
size, is read back from its written form, whatever follows it.

Main definitions:

* `Mqtt.Publish.Admissible` — the messages that the protocol admits;
* `Mqtt.Packet.Mutual` — the packets that are written and read, with the fields they may have;
* `Mqtt.Packet.bodySize`, `Packet.size` — the lengths of the written form.

Main results:

* `Frame.split_encode_append` — a frame is split off behind its header;
* `Publish.value_read`, `Ack.value_read`, `Disconnect.value_read` — a body is read back;
* `Packet.exists_encode_decode` — **a packet is read back**, and takes as many bytes
  as its size says.
-/

import TopicBridge.Mqtt.Packet.Encode
import TopicBridge.Proofs.Mqtt.Field
import TopicBridge.Proofs.Mqtt.Stream

set_option autoImplicit false

namespace TopicBridge.Mqtt

/-! ### Frames -/

theorem VarInt.size_pos (n : UInt32) : 0 < VarInt.size n := by
  unfold VarInt.size
  repeat' split
  all_goals decide

namespace Frame

variable {first : UInt8} {limit : Nat} {body : Bytes}

theorem header_of_le {n : Nat} (h : n ≤ VarInt.maxValue) :
    header first n = .ok (first :: VarInt.encode n) := by
  rw [header, VarInt.write_ofNat h]
  rfl

/-- A frame within the limit is split off behind its header. -/
theorem split_encode_append (hlen : body.length ≤ VarInt.maxValue)
    (hlimit : 1 + VarInt.size (UInt32.ofNat body.length) + body.length ≤ limit) (more : Bytes) :
    split limit (first :: VarInt.encode body.length ++ body ++ more) =
      .ok (some (⟨first, body⟩, more)) := by
  have hread := VarInt.read_encode_append hlen (body ++ more)
  have hextent : VarInt.extent (VarInt.encode body.length ++ (body ++ more)) =
      VarInt.size (UInt32.ofNat body.length) := by
    have htotal := VarInt.extent_add_length_of_readGroups hread
    simp only [List.length_append, VarInt.length_encode_ofNat hlen] at htotal
    omega
  rw [List.append_assoc, List.cons_append, split, hread]
  simp only [hextent]
  have hfits : ¬1 + VarInt.size (UInt32.ofNat body.length) + body.length > limit := by omega
  rw [splitBody, if_neg hfits]
  simp

end Frame

/-- A packet is read from its frame if the decoder admits the size of the frame. -/
theorem Decoder.decode_encode_append {d : Decoder} {first : UInt8} {body : Bytes} {p : Packet}
    (hlen : body.length ≤ VarInt.maxValue)
    (hlimit : 1 + VarInt.size (UInt32.ofNat body.length) + body.length ≤ d.limit)
    (hread : Packet.ofFrame ⟨first, body⟩ = .ok p) (more : Bytes) :
    d.decode (first :: VarInt.encode body.length ++ body ++ more) = .ok (some (p, more)) := by
  rw [decode_of_split (Frame.split_encode_append hlen hlimit more), hread]
  rfl

/-! ### Messages -/

namespace Publish

variable {p : Publish}

/-- The messages that the protocol admits, as far as one can tell without knowing the connection:
those with a topic, and with an identifier exactly if they are to be acknowledged. -/
structure Admissible (p : Publish) : Prop where
  topic_ne : p.topic ≠ ""
  topic_isText : IsText p.topic
  topic_plus : '+' ∉ p.topic.toList
  topic_hash : '#' ∉ p.topic.toList
  packetId_iff : p.packetId = none ↔ p.qos = .atMostOnce
  packetId_ne : p.packetId ≠ some 0
  dup_eq : p.qos = .atMostOnce → p.dup = false
  properties : p.properties.Writable

/-! The flags in the first byte are read back. -/

theorem type_first (p : Publish) : p.first >>> 4 = 3 := by
  unfold first
  cases p.dup <;> cases p.qos <;> cases p.retain <;> decide

theorem qos_first (p : Publish) :
    QoS.ofNat? (((p.first &&& 0x0F) >>> 1) &&& 3).toNat = some p.qos := by
  unfold first
  cases p.dup <;> cases p.qos <;> cases p.retain <;> decide

theorem dup_first (p : Publish) : decide (p.first &&& 0x0F &&& 8 ≠ 0) = p.dup := by
  unfold first
  cases p.dup <;> cases p.qos <;> cases p.retain <;> decide

theorem retain_first (p : Publish) : decide (p.first &&& 0x0F &&& 1 ≠ 0) = p.retain := by
  unfold first
  cases p.dup <;> cases p.qos <;> cases p.retain <;> decide

theorem length_idField (p : Publish) :
    p.idField.length = if p.qos = .atMostOnce then 0 else 2 := by
  unfold idField
  split <;> rfl

/-- The identifier is read back, or its absence. -/
theorem takes_readId (h : p.Admissible) : (readId p.qos).Takes p.idField p.packetId := by
  intro more
  by_cases hqos : p.qos = .atMostOnce
  · rw [h.packetId_iff.2 hqos]
    simp only [readId, idField, if_pos hqos]
    rfl
  · match hid : p.packetId with
    | none => exact absurd (h.packetId_iff.1 hid) hqos
    | some id =>
        have hne : id ≠ 0 := fun hzero => h.packetId_ne (hid.trans (congrArg some hzero))
        simp only [readId, idField, if_neg hqos, hid, Option.getD_some]
        rw [(Reader.takes_twoBytes id).bind_append]
        simp only [if_neg hne]
        rfl

/-- The body of a message is read back. -/
theorem value_read (h : p.Admissible) {topic properties : Bytes}
    (htopic : Reader.text.Takes topic p.topic)
    (hproperties : Reader.Takes Properties.read properties p.properties) :
    (read (p.first &&& 0x0F)).value (topic ++ p.idField ++ properties ++ p.payload) = .ok p := by
  have hdup : ¬(p.qos = .atMostOnce ∧ p.first &&& 0x0F &&& 8 ≠ 0) := by
    rintro ⟨hqos, hset⟩
    have hfalse := (dup_first p).trans (h.dup_eq hqos)
    exact of_decide_eq_false hfalse hset
  have hwild : ¬('+' ∈ p.topic.toList ∨ '#' ∈ p.topic.toList) := by
    rintro (hplus | hhash)
    · exact h.topic_plus hplus
    · exact h.topic_hash hhash
  -- field by field, the payload being what is left
  simp only [Reader.value, read, qos_first, if_neg hdup, List.append_assoc]
  rw [htopic.bind_append]
  simp only [if_neg hwild]
  rw [(takes_readId h).bind_append, hproperties.bind_append]
  simp only [if_neg h.topic_ne, dup_first, retain_first]
  rfl

end Publish

/-! ### Acknowledgements -/

namespace Ack

/-- The body of an acknowledgement; success is not spelled out. -/
def body (a : Ack) : Bytes :=
  Bytes.ofUInt16 a.packetId ++ if a.reasonCode = .success then [] else [a.reasonCode.code]

theorem encode_eq (first : UInt8) (a : Ack) :
    a.encode first = first :: VarInt.encode a.body.length ++ a.body := by
  have htwo : VarInt.encode 2 = [2] := VarInt.encode_of_lt (by decide)
  have hthree : VarInt.encode 3 = [3] := VarInt.encode_of_lt (by decide)
  unfold encode body
  split
  · simp [htwo]
  · simp [hthree]

/-- The body of an acknowledgement is read back. -/
theorem value_read (expected : UInt8) (a : Ack) :
    (read expected expected).value a.body = .ok a := by
  obtain ⟨id, code⟩ := a
  simp only [Reader.value, read, ne_eq, not_true_eq_false, if_false, body]
  rw [(Reader.takes_twoBytes id).bind_append]
  by_cases hsuccess : code = .success
  · rw [hsuccess]
    rfl
  · rw [if_neg hsuccess]
    rfl

end Ack

/-! ### The end of a connection -/

/-- The body of the last packet is read back. -/
theorem Disconnect.value_read {p : Disconnect} {properties : Bytes}
    (hproperties : Reader.Takes Properties.read properties p.properties)
    (hne : properties ≠ []) : (read 0).value (p.reasonCode.code :: properties) = .ok p := by
  have hread : Properties.readOptional properties = .ok p.properties [] := by
    have hall := hproperties []
    rw [List.append_nil] at hall
    cases properties with
    | nil => exact absurd rfl hne
    | cons _ _ => exact hall
  have hcode : read 0 (p.reasonCode.code :: properties) =
      (do return Disconnect.mk p.reasonCode (← Properties.readOptional)) properties := rfl
  rw [Reader.value, hcode, Reader.bind_of_ok hread]
  rfl

/-! ### All packets -/

namespace Packet

/-- The packets that are sent by clients and brokers alike, with the fields that they may have. -/
inductive Mutual : Packet → Prop
  | publish {p : Publish} (h : p.Admissible) : Mutual (publish p)
  | pubAck (a : Ack) : Mutual (pubAck a)
  | pubRec (a : Ack) : Mutual (pubRec a)
  | pubRel (a : Ack) : Mutual (pubRel a)
  | pubComp (a : Ack) : Mutual (pubComp a)
  | disconnect {p : Disconnect} (h : p.properties.Writable) : Mutual (disconnect p)

/-- The length of the body of a packet that clients send. -/
def bodySize : Packet → Nat
  | connect p => p.bodySize
  | publish p => p.bodySize
  | pubAck a => a.body.length
  | pubRec a => a.body.length
  | pubRel a => a.body.length
  | pubComp a => a.body.length
  | subscribe p => p.bodySize
  | disconnect p => if p = {} then 0 else p.bodySize
  | _ => 0

/-- The length of the frame of a packet that clients send. -/
def size (p : Packet) : Nat := 1 + VarInt.size (UInt32.ofNat p.bodySize) + p.bodySize

theorem bodySize_le_of_size_le {p : Packet} (h : p.size ≤ Decoder.maxPacketSize) :
    p.bodySize ≤ VarInt.maxValue := by
  rw [size, Decoder.maxPacketSize, VarInt.maxValue] at h
  rw [VarInt.maxValue]
  apply Nat.le_of_not_lt
  intro hgt
  -- a length just above the greatest still takes four bytes
  have hnat : (UInt32.ofNat p.bodySize).toNat = p.bodySize :=
    UInt32.toNat_ofNat_of_lt' (Nat.lt_of_le_of_lt (by omega : _ ≤ 268435460) (by decide))
  have hfour : VarInt.size (UInt32.ofNat p.bodySize) = 4 := by
    rw [VarInt.size, hnat, if_neg (by omega), if_neg (by omega), if_neg (by omega)]
  omega

/-- The packet of a frame, from the reader that its first byte selects. -/
theorem ofFrame_of_value {α : Type} {make : α → Packet} {m : Reader α} {t first : UInt8}
    {body : Bytes} {a : α} (htype : first >>> 4 = t)
    (hreader : reader t (first &&& 0x0F) = do return make (← m)) (h : m.value body = .ok a) :
    ofFrame ⟨first, body⟩ = .ok (make a) := by
  rw [ofFrame, Frame.type, Frame.flags, htype, hreader]
  unfold Reader.value at h ⊢
  split at h
  · rename_i hok
    cases h
    rw [Reader.bind_of_ok hok]
    rfl
  · cases h

theorem ofFrame_ack {make : Ack → Packet} (first type : UInt8) (a : Ack)
    (htype : first >>> 4 = type)
    (hreader : ∀ flags, reader type flags = do return make (← Ack.read (first &&& 0x0F) flags)) :
    ofFrame ⟨first, a.body⟩ = .ok (make a) :=
  ofFrame_of_value htype (hreader _) (a.value_read _)

theorem exists_frame_publish {p : Publish} (h : p.Admissible)
    (hlen : p.bodySize ≤ VarInt.maxValue) :
    ∃ f : Frame, p.encode = .ok (f.first :: VarInt.encode f.body.length ++ f.body) ∧
      f.body.length = p.bodySize ∧ ofFrame f = .ok (publish p) := by
  have hentries : p.properties.encodedSize ≤ VarInt.maxValue := by
    rw [Publish.bodySize, Properties.wireSize] at hlen
    omega
  obtain ⟨topic, htopic, htlen, htread⟩ := exists_writeText h.topic_isText
  obtain ⟨properties, hprops, hplen, hpread⟩ := Properties.exists_encode h.properties hentries
  have hbody : (topic ++ p.idField ++ properties ++ p.payload).length = p.bodySize := by
    simp only [List.length_append, htlen, hplen, Publish.length_idField, Publish.bodySize, textSize]
  refine ⟨⟨p.first, topic ++ p.idField ++ properties ++ p.payload⟩, ?_, hbody, ?_⟩
  · rw [Publish.encode, Frame.header_of_le hlen, htopic, hprops, hbody]
    exact congrArg Except.ok (by simp only [List.append_assoc])
  · exact ofFrame_of_value (Publish.type_first p) rfl (Publish.value_read h htread hpread)

theorem exists_frame_disconnect {p : Disconnect} (h : p.properties.Writable)
    (hlen : (disconnect p).bodySize ≤ VarInt.maxValue) :
    ∃ f : Frame, p.encode = .ok (f.first :: VarInt.encode f.body.length ++ f.body) ∧
      f.body.length = (disconnect p).bodySize ∧ ofFrame f = .ok (disconnect p) := by
  by_cases hp : p = {}
  · have hzero : VarInt.encode 0 = [0] := VarInt.encode_of_lt (by decide)
    refine ⟨⟨0xE0, []⟩, ?_, ?_, ?_⟩
    · rw [Disconnect.encode, if_pos hp]
      simp [hzero]
    · rw [bodySize, if_pos hp]
      rfl
    · rw [hp]
      rfl
  · rw [bodySize, if_neg hp] at hlen ⊢
    have hentries : p.properties.encodedSize ≤ VarInt.maxValue := by
      rw [Disconnect.bodySize, Properties.wireSize] at hlen
      omega
    obtain ⟨properties, hprops, hplen, hpread⟩ := Properties.exists_encode h hentries
    have hbody : (p.reasonCode.code :: properties).length = p.bodySize := by
      rw [List.length_cons, hplen, Disconnect.bodySize, Nat.add_comm]
    refine ⟨⟨0xE0, p.reasonCode.code :: properties⟩, ?_, hbody, ?_⟩
    · rw [Disconnect.encode, if_neg hp, Frame.header_of_le hlen, hprops, hbody]
      exact congrArg Except.ok (by simp only [List.append_assoc, List.singleton_append])
    · have hne : properties ≠ [] := by
        intro hnil
        rw [hnil, List.length_nil, Properties.wireSize] at hplen
        have hpos := VarInt.size_pos (UInt32.ofNat p.properties.encodedSize)
        omega
      have hread := Disconnect.value_read hpread hne
      exact ofFrame_of_value (t := 14) (by decide) rfl hread

/-- The frame of a packet, of which that packet is read. -/
theorem exists_frame {p : Packet} (hp : p.Mutual) (hlen : p.bodySize ≤ VarInt.maxValue) :
    ∃ f : Frame, p.encode = .ok (f.first :: VarInt.encode f.body.length ++ f.body) ∧
      f.body.length = p.bodySize ∧ ofFrame f = .ok p := by
  cases hp with
  | publish h => exact exists_frame_publish h hlen
  | pubAck a =>
      exact ⟨_, congrArg _ (a.encode_eq 0x40), rfl, ofFrame_ack 0x40 4 a rfl fun _ => rfl⟩
  | pubRec a =>
      exact ⟨_, congrArg _ (a.encode_eq 0x50), rfl, ofFrame_ack 0x50 5 a rfl fun _ => rfl⟩
  | pubRel a =>
      exact ⟨_, congrArg _ (a.encode_eq 0x62), rfl, ofFrame_ack 0x62 6 a rfl fun _ => rfl⟩
  | pubComp a =>
      exact ⟨_, congrArg _ (a.encode_eq 0x70), rfl, ofFrame_ack 0x70 7 a rfl fun _ => rfl⟩
  | disconnect h => exact exists_frame_disconnect h hlen

/-- **A packet is read back.**  It has a written form, as long as its size says, and what is read
at the front of that form and any further bytes is the packet, and nothing more is taken. -/
theorem exists_encode_decode {limit : Nat} {p : Packet} (hp : p.Mutual)
    (hsize : p.size ≤ (Decoder.withLimit limit).limit) :
    ∃ bytes, p.encode = .ok bytes ∧ bytes.length = p.size ∧
      ∀ more, (Decoder.withLimit limit).decode (bytes ++ more) = .ok (some (p, more)) := by
  have hlen : p.bodySize ≤ VarInt.maxValue :=
    bodySize_le_of_size_le (Nat.le_trans hsize (Nat.min_le_right _ _))
  obtain ⟨f, hencode, hbody, hread⟩ := exists_frame hp hlen
  have hsizes : 1 + VarInt.size (UInt32.ofNat f.body.length) + f.body.length = p.size := by
    rw [hbody, size]
  rw [← hbody] at hlen
  refine ⟨_, hencode, ?_, fun more => ?_⟩
  · rw [← hsizes, ← VarInt.length_encode_ofNat hlen]
    simp only [List.length_append, List.length_cons]
    omega
  · exact Decoder.decode_encode_append hlen (hsizes ▸ hsize) hread more

/-- A message to be acknowledged, with a property of each kind of text and an identifier of two
bytes, at just the size that the decoder admits. -/
theorem exists_encode_decode_atLeastOnce :
    let p : Publish :=
      { dup := true, qos := .atLeastOnce, retain := false, topic := "a/b", packetId := some 7
        payload := [1, 0, 2]
        properties :=
          { contentType := some "t", correlationData := some [0], subscriptionIdentifiers := [200]
            userProperties := [("k", "v"), ("k", "")] } }
    ∃ bytes, (publish p).encode = .ok bytes ∧ bytes.length = 37 ∧
      ∀ more, (Decoder.withLimit 37).decode (bytes ++ more) = .ok (some (publish p, more)) := by
  intro p
  have hp : p.Admissible :=
    ⟨by decide, by decide, by decide, by decide, by decide, by decide, by decide, by decide⟩
  have hsize : (publish p).size = 37 := by decide
  have hfits : (publish p).size ≤ (Decoder.withLimit 37).limit := by
    rw [hsize]
    decide
  obtain ⟨bytes, hencode, hlen, hdecode⟩ := exists_encode_decode (.publish hp) hfits
  exact ⟨bytes, hencode, hlen.trans hsize, hdecode⟩

end Packet

end TopicBridge.Mqtt
