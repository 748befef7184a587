/-
**What is read of a written message is that message.**

Not everything that can be written can be read: a text with the character U+0000 has a written form
that no reader accepts, and the length of a very large packet does not fit its header.  But a frame
that is written for a message, and that is read as a whole, is read as that message.  This does not
ask whether the protocol admits the message, so it holds of whatever a relay writes.

It is said of a reader by `Reader.Agrees`: if it reads the bytes at all, it takes just these and
gives the value for which they were written.

Main definitions:

* `Mqtt.Reader.Agrees` — a reader gives no other value for some bytes.

Main results:

* `ValueForm.agrees_of_write`, `Property.agrees_of_write`, `Properties.agrees_of_encode` — values,
  entries and property lists are read as what was written;
* `Publish.packetId_eq_none_iff` — a message that is read has an identifier if it is to be
  acknowledged, and only then;
* `Publish.eq_of_decode_encode` — **and so is a message**, but for an identifier that nobody asks
  for.
-/

import Mathlib.Tactic.SplitIfs
import TopicBridge.Proofs.Mqtt.RoundTrip
import TopicBridge.Proofs.Rule.Built

set_option autoImplicit false

namespace TopicBridge.Mqtt

/-! ### Readers -/

namespace Reader

variable {α β : Type} {m : Reader α} {f : α → Reader β} {bytes bytes' tail : Bytes} {a a' : α}
  {b : β}

/-- If the reader reads these bytes, whatever stands behind them, it takes just them and gives this
value. -/
def Agrees (m : Reader α) (bytes : Bytes) (a : α) : Prop :=
  ∀ ⦃more b tail⦄, m (bytes ++ more) = .ok b tail → b = a ∧ tail = more

theorem Takes.agrees (h : Takes m bytes a) : Agrees m bytes a := by
  intro more b tail hread
  rw [h more] at hread
  cases hread
  exact ⟨rfl, rfl⟩

theorem exists_of_value (h : m.value bytes = .ok a) : ∃ tail, m bytes = .ok a tail := by
  unfold value at h
  split at h
  · cases h
    exact ⟨_, ‹_›⟩
  · cases h

theorem of_pure (h : (pure a : Reader α) bytes = .ok a' tail) : a' = a ∧ tail = bytes := by
  cases h
  exact ⟨rfl, rfl⟩

/-- What is read behind a check has passed it. -/
theorem of_guard {c : Prop} [Decidable c] {e : DecodeError} {g : PUnit → Reader α}
    (h : (if c then (throw e : Reader PUnit) >>= g else m) bytes = .ok a tail) :
    m bytes = .ok a tail := by
  split at h
  · cases h
  · exact h

theorem exists_of_bind (h : (m >>= f) bytes = .ok b tail) :
    ∃ a mid, m bytes = .ok a mid ∧ f a mid = .ok b tail := by
  simp only [bind, EStateM.bind] at h
  split at h
  · exact ⟨_, _, ‹_›, h⟩
  · cases h

/-- The value of the first part of what is read is known. -/
theorem Agrees.of_bind (h : Agrees m bytes a) {more : Bytes}
    (hread : (m >>= f) (bytes ++ more) = .ok b tail) : f a more = .ok b tail := by
  obtain ⟨a', mid, hm, hf⟩ := exists_of_bind hread
  obtain ⟨rfl, rfl⟩ := h hm
  exact hf

theorem Agrees.bind (h : Agrees m bytes a) (hf : Agrees (f a) bytes' b) :
    Agrees (m >>= f) (bytes ++ bytes') b := by
  intro more b' tail hread
  rw [List.append_assoc] at hread
  exact hf (h.of_bind hread)

theorem Agrees.map {g : α → β} (h : Agrees m bytes a) :
    Agrees (m >>= fun a => pure (g a)) bytes (g a) := by
  intro more b tail hread
  cases h.of_bind hread
  exact ⟨rfl, rfl⟩

end Reader

/-! ### Values -/

variable {bytes : Bytes}

theorem takes_of_writeBinary {field : Bytes} (h : writeBinary field = .ok bytes) :
    bytes.length = 2 + field.length ∧ Reader.binary.Takes bytes field := by
  by_cases hlen : field.length ≤ 65535
  · obtain ⟨written, hwrite, hsize, htakes⟩ := exists_writeBinary hlen
    cases hwrite.symm.trans h
    exact ⟨hsize, htakes⟩
  · rw [writeBinary, if_neg hlen] at h
    cases h

theorem agrees_of_writeText {s : String} (h : writeText s = .ok bytes) :
    bytes.length = 2 + s.utf8ByteSize ∧ Reader.text.Agrees bytes s := by
  obtain ⟨hsize, htakes⟩ := takes_of_writeBinary h
  refine ⟨hsize, fun more s' tail hread => ?_⟩
  rw [Reader.text, htakes.bind_append] at hread
  simp only [Bytes.text?_ofString] at hread
  split_ifs at hread
  · cases hread
  · cases hread
    exact ⟨rfl, rfl⟩

/-- A value has the announced length in its written form, and is read as itself. -/
theorem ValueForm.agrees_of_write {form : ValueForm} {v : form.Value}
    (h : form.write v = .ok bytes) :
    bytes.length = form.size v ∧ Reader.Agrees form.read bytes v := by
  cases form with
  | byte =>
      cases h
      exact ⟨rfl, (Reader.takes_byte v).agrees⟩
  | twoBytes =>
      cases h
      exact ⟨rfl, (Reader.takes_twoBytes v).agrees⟩
  | fourBytes =>
      cases h
      exact ⟨rfl, (Reader.takes_fourBytes v).agrees⟩
  | varInt =>
      by_cases hle : UInt32.toNat v ≤ VarInt.maxValue
      · cases (if_pos hle).symm.trans h
        exact ⟨VarInt.length_encode hle, (Reader.takes_varInt_ofNat hle).agrees⟩
      · cases (if_neg hle).symm.trans h
  | text => exact agrees_of_writeText h
  | binary =>
      obtain ⟨hsize, htakes⟩ := takes_of_writeBinary h
      exact ⟨hsize, htakes.agrees⟩
  | textPair =>
      obtain ⟨key, value⟩ := v
      obtain ⟨k, hk, hrest⟩ := bind_eq_ok_iff.1 h
      obtain ⟨w, hw, hbytes⟩ := bind_eq_ok_iff.1 hrest
      cases hbytes
      obtain ⟨hklen, hkread⟩ := agrees_of_writeText hk
      obtain ⟨hwlen, hwread⟩ := agrees_of_writeText hw
      refine ⟨?_, hkread.bind hwread.map⟩
      simp only [List.length_append, hklen, hwlen, size]
      omega

/-- An entry has the announced length in its written form, and is read as itself. -/
theorem Property.agrees_of_write {e : Property} (h : e.write = .ok bytes) :
    bytes.length = e.size ∧ Reader.Agrees read bytes e := by
  obtain ⟨value, hvalue, hbytes⟩ := bind_eq_ok_iff.1 h
  cases hbytes
  obtain ⟨hsize, hagrees⟩ := ValueForm.agrees_of_write hvalue
  refine ⟨by simp only [List.length_cons, hsize, size, Nat.add_comm], ?_⟩
  intro more e' tail hread
  have hbyte : Reader.byte (e.id.code :: value ++ more) = .ok e.id.code (value ++ more) := rfl
  rw [read, Reader.bind_of_ok hbyte, PropertyId.ofCode?_code] at hread
  exact hagrees.map hread

/-! ### Property lists -/

namespace Properties

theorem exists_of_writeAll_cons {e : Property} {entries : List Property}
    (h : writeAll (e :: entries) = .ok bytes) : ∃ first rest, e.write = .ok first ∧
      writeAll entries = .ok rest ∧ bytes = first ++ rest := by
  obtain ⟨parts, hparts, hbytes⟩ := bind_eq_ok_iff.1 h
  rw [List.mapM_cons] at hparts
  obtain ⟨first, hfirst, hothers⟩ := bind_eq_ok_iff.1 hparts
  obtain ⟨rest, hrest, hcons⟩ := bind_eq_ok_iff.1 hothers
  cases hcons
  cases hbytes
  exact ⟨first, rest.flatten, hfirst, bind_eq_ok_iff.2 ⟨rest, hrest, rfl⟩, rfl⟩

theorem exists_of_entriesFrom {seen entries : List Property} (hne : bytes ≠ [])
    (h : entriesFrom seen bytes = .ok entries) :
    ∃ e tail, Property.read bytes = .ok e tail ∧ entriesFrom (e :: seen) tail = .ok entries := by
  rw [entriesFrom, if_neg (by simpa using hne)] at h
  split at h
  · exact ⟨_, _, ‹_›, h⟩
  · cases h

/-- Entries have the announced length in their written form, and are read as themselves. -/
theorem agrees_of_writeAll {entries : List Property} (h : writeAll entries = .ok bytes) :
    bytes.length = entries.foldr (fun e n => e.size + n) 0 ∧
      ∀ seen es, entriesFrom seen bytes = .ok es → es = seen.reverse ++ entries := by
  induction entries generalizing bytes with
  | nil =>
      obtain rfl : bytes = [] := (Except.ok.inj h).symm
      refine ⟨rfl, fun seen es hread => ?_⟩
      rw [entriesFrom_nil] at hread
      cases hread
      rw [List.append_nil]
  | cons e entries ih =>
      obtain ⟨first, rest, hfirst, hrest, rfl⟩ := exists_of_writeAll_cons h
      obtain ⟨hflen, hagrees⟩ := Property.agrees_of_write hfirst
      obtain ⟨hrlen, hread⟩ := ih hrest
      refine ⟨by rw [List.length_append, hflen, hrlen, List.foldr_cons], fun seen es hes => ?_⟩
      have hne : first ++ rest ≠ [] := by
        intro hnil
        have hlen := congrArg List.length (List.append_eq_nil_iff.1 hnil).1
        rw [hflen, Property.size, List.length_nil] at hlen
        omega
      obtain ⟨e', tail, he, htail⟩ := exists_of_entriesFrom hne hes
      obtain ⟨rfl, rfl⟩ := hagrees he
      rw [hread _ _ htail, List.reverse_cons, List.append_assoc, List.singleton_append]

/-- A property list is read as itself, unless it is too long for any packet. -/
theorem agrees_of_encode {p : Properties} (h : p.encode = .ok bytes)
    (hlen : bytes.length ≤ VarInt.maxValue) : Reader.Agrees read bytes p := by
  obtain ⟨size, hsize, hentries⟩ := bind_eq_ok_iff.1 h
  obtain ⟨body, hbody, hbytes⟩ := bind_eq_ok_iff.1 hentries
  obtain rfl : size ++ body = bytes := Except.ok.inj hbytes
  obtain ⟨hblen, hread⟩ := agrees_of_writeAll hbody
  replace hblen : body.length = p.encodedSize := hblen
  rw [List.length_append] at hlen
  have hle : body.length ≤ VarInt.maxValue := by omega
  -- the length has not been cut off, so it is the one that is written
  rw [← hblen, VarInt.write_ofNat hle] at hsize
  obtain rfl : VarInt.encode body.length = size := Except.ok.inj hsize
  intro more q tail hq
  rw [read, List.append_assoc] at hq
  have hrest := (Reader.takes_take body).agrees.of_bind ((Reader.takes_varInt hle).agrees.of_bind hq)
  cases hes : entries body with
  | error e =>
      simp only [hes] at hrest
      cases hrest
  | ok es =>
      simp only [hes] at hrest
      obtain ⟨hq, htail⟩ := Reader.of_pure hrest
      have hlist := hread [] es hes
      rw [List.reverse_nil, List.nil_append] at hlist
      exact ⟨by rw [hq, hlist, ofList_toList], htail⟩

end Properties

/-! ### Messages -/

namespace Publish

variable {p q : Publish}

/-- The parts of which a message consists in its written form. -/
theorem encode_eq_ok_iff :
    p.encode = .ok bytes ↔ ∃ header topic properties,
      Frame.header p.first p.bodySize = .ok header ∧ writeText p.topic = .ok topic ∧
      p.properties.encode = .ok properties ∧
      bytes = header ++ topic ++ p.idField ++ properties ++ p.payload := by
  constructor
  · intro h
    obtain ⟨header, hheader, h⟩ := bind_eq_ok_iff.1 h
    obtain ⟨topic, htopic, h⟩ := bind_eq_ok_iff.1 h
    obtain ⟨properties, hproperties, h⟩ := bind_eq_ok_iff.1 h
    exact ⟨header, topic, properties, hheader, htopic, hproperties, (Except.ok.inj h).symm⟩
  · rintro ⟨header, topic, properties, hheader, htopic, hproperties, rfl⟩
    refine bind_eq_ok_iff.2 ⟨header, hheader, ?_⟩
    refine bind_eq_ok_iff.2 ⟨topic, htopic, ?_⟩
    exact bind_eq_ok_iff.2 ⟨properties, hproperties, rfl⟩

/-- What is read for an identifier takes the field of the identifier. -/
theorem tail_of_readId {id : Option UInt16} {more tail : Bytes}
    (h : readId p.qos (p.idField ++ more) = .ok id tail) : tail = more := by
  by_cases hqos : p.qos = .atMostOnce
  · rw [readId, idField, if_pos hqos, if_pos hqos] at h
    cases h
    rfl
  · rw [readId, idField, if_neg hqos, if_neg hqos] at h
    have hrest := (Reader.takes_twoBytes _).agrees.of_bind h
    exact (Reader.of_pure (Reader.of_guard hrest)).2

/-- What is read of the body of a message is the message, but for its identifier. -/
theorem eq_of_value_read {topic properties : Bytes} (htopic : writeText p.topic = .ok topic)
    (hproperties : p.properties.encode = .ok properties)
    (hlen : properties.length ≤ VarInt.maxValue)
    (h : (read (p.first &&& 0x0F)).value (topic ++ p.idField ++ properties ++ p.payload) = .ok q) :
    q = { p with packetId := q.packetId } := by
  obtain ⟨tail, hread⟩ := Reader.exists_of_value h
  simp only [read, qos_first, List.append_assoc] at hread
  -- field by field, the payload being what is left
  have hname := (agrees_of_writeText htopic).2.of_bind (Reader.of_guard hread)
  obtain ⟨id, mid, hid, hlist⟩ := Reader.exists_of_bind (Reader.of_guard hname)
  obtain rfl := tail_of_readId hid
  have hend := (Properties.agrees_of_encode hproperties hlen).of_bind hlist
  obtain ⟨payload, end', hrest, hpacket⟩ := Reader.exists_of_bind (Reader.of_guard hend)
  cases hrest
  obtain ⟨rfl, -⟩ := Reader.of_pure hpacket
  simp only [dup_first, retain_first]

end Publish

/-! ### Frames -/

/-- A header with a length is read as a whole with its body only if the length is that of the
body. -/
theorem Frame.eq_of_split_encode {limit n : Nat} {first : UInt8} {body : Bytes} {f : Frame}
    (hn : n ≤ VarInt.maxValue)
    (h : split limit (first :: (VarInt.encode n ++ body)) = .ok (some (f, []))) :
    f = ⟨first, body⟩ ∧ body.length = n := by
  have hread : VarInt.read (VarInt.encode n ++ body) = .ok (n, body) :=
    VarInt.read_encode_append hn body
  simp only [split, hread, splitBody, List.length_take] at h
  split_ifs at h with hlimit hshort
  · cases h
  · obtain ⟨rfl, hrest⟩ := Prod.mk.inj (Option.some.inj (Except.ok.inj h))
    have hle := List.drop_eq_nil_iff.1 hrest
    exact ⟨by rw [List.take_of_length_le hle], by omega⟩

theorem VarInt.eq_encode_of_write {n : UInt32} (h : write n = .ok bytes) :
    n.toNat ≤ maxValue ∧ bytes = encode n.toNat := by
  unfold write at h
  split_ifs at h with hle
  exact ⟨hle, (Except.ok.inj h).symm⟩

theorem Decoder.exists_of_decode {d : Decoder} {packet : Packet} {rest : Bytes}
    (h : d.decode bytes = .ok (some (packet, rest))) :
    ∃ f, Frame.split d.limit bytes = .ok (some (f, rest)) ∧ Packet.ofFrame f = .ok packet := by
  unfold decode at h
  split at h
  · cases h
  · cases h
  · rename_i f _ hsplit
    split at h
    · cases h
    · rename_i hpacket
      obtain ⟨rfl, rfl⟩ := Prod.mk.inj (Option.some.inj (Except.ok.inj h))
      exact ⟨f, hsplit, hpacket⟩

/-- The packet of a frame whose type is that of a message. -/
theorem Publish.value_read_of_ofFrame {f : Frame} {q : Publish} (htype : f.type = 3)
    (h : Packet.ofFrame f = .ok (.publish q)) : (read f.flags).value f.body = .ok q := by
  rw [Packet.ofFrame, htype] at h
  obtain ⟨tail, hread⟩ := Reader.exists_of_value h
  obtain ⟨q', mid, hq, hpacket⟩ := Reader.exists_of_bind (m := read f.flags) hread
  cases (Reader.of_pure hpacket).1
  rw [Reader.value, hq]

/-- Whether there is an identifier depends on the quality of service alone. -/
theorem Publish.none_iff_of_readId {qos : QoS} {id : Option UInt16} {tail : Bytes}
    (h : readId qos bytes = .ok id tail) : id = none ↔ qos = .atMostOnce := by
  by_cases hqos : qos = .atMostOnce
  · rw [readId, if_pos hqos] at h
    obtain rfl := (Reader.of_pure h).1
    exact iff_of_true rfl hqos
  · rw [readId, if_neg hqos] at h
    obtain ⟨n, mid, -, hcheck⟩ := Reader.exists_of_bind h
    obtain rfl := (Reader.of_pure (Reader.of_guard hcheck)).1
    exact iff_of_false (by simp) hqos

theorem Publish.packetId_eq_none_iff_of_value {flags : UInt8} {q : Publish}
    (h : (read flags).value bytes = .ok q) : q.packetId = none ↔ q.qos = .atMostOnce := by
  obtain ⟨tail, hread⟩ := Reader.exists_of_value h
  cases hq : QoS.ofNat? ((flags >>> 1) &&& 3).toNat with
  | none =>
      simp only [read, hq] at hread
      cases hread
  | some qos =>
      simp only [read, hq] at hread
      obtain ⟨topic, _, -, hname⟩ := Reader.exists_of_bind (Reader.of_guard hread)
      obtain ⟨id, _, hid, hlist⟩ := Reader.exists_of_bind (Reader.of_guard hname)
      obtain ⟨properties, _, -, hend⟩ := Reader.exists_of_bind hlist
      obtain ⟨payload, _, -, hpacket⟩ := Reader.exists_of_bind (Reader.of_guard hend)
      obtain ⟨rfl, -⟩ := Reader.of_pure hpacket
      exact none_iff_of_readId hid

/-- Only frames of one type are read as messages. -/
theorem Frame.type_of_ofFrame {f : Frame} {q : Publish} (h : Packet.ofFrame f = .ok (.publish q)) :
    f.type = 3 := by
  unfold Packet.ofFrame Packet.reader at h
  split at h
  case h_2 htype => exact htype
  all_goals obtain ⟨tail, hread⟩ := Reader.exists_of_value h
  case h_8 => cases (Reader.of_pure (Reader.of_guard hread)).1
  case h_10 => cases hread
  all_goals
    obtain ⟨_, _, -, hpacket⟩ := Reader.exists_of_bind hread
    cases (Reader.of_pure hpacket).1

/-- **A message that is read has an identifier if and only if it is to be acknowledged.** -/
theorem Publish.packetId_eq_none_iff {d : Decoder} {q : Publish} {rest : Bytes}
    (h : d.decode bytes = .ok (some (.publish q, rest))) :
    q.packetId = none ↔ q.qos = .atMostOnce := by
  obtain ⟨f, -, hpacket⟩ := Decoder.exists_of_decode h
  exact packetId_eq_none_iff_of_value
    (value_read_of_ofFrame (Frame.type_of_ofFrame hpacket) hpacket)

/-- **What is read of the frame of a message is the message**, but for its identifier. -/
theorem Publish.eq_of_decode_encode {d : Decoder} {p q : Publish} (h : p.encode = .ok bytes)
    (hd : d.decode bytes = .ok (some (.publish q, []))) : q = { p with packetId := q.packetId } := by
  obtain ⟨header, topic, properties, hheader, htopic, hproperties, rfl⟩ := encode_eq_ok_iff.1 h
  obtain ⟨size, hsize, hfirst⟩ := bind_eq_ok_iff.1 hheader
  obtain rfl : p.first :: size = header := Except.ok.inj hfirst
  obtain ⟨hle, rfl⟩ := VarInt.eq_encode_of_write hsize
  obtain ⟨f, hsplit, hpacket⟩ := Decoder.exists_of_decode hd
  have hlayout : p.first :: VarInt.encode (UInt32.ofNat p.bodySize).toNat ++ topic ++ p.idField ++
      properties ++ p.payload = p.first :: (VarInt.encode (UInt32.ofNat p.bodySize).toNat ++
        (topic ++ p.idField ++ properties ++ p.payload)) := by
    simp only [List.cons_append, List.append_assoc]
  rw [hlayout] at hsplit
  obtain ⟨rfl, hlen⟩ := Frame.eq_of_split_encode hle hsplit
  have htype : (Frame.mk p.first (topic ++ p.idField ++ properties ++ p.payload)).type = 3 :=
    p.type_first
  have hread := value_read_of_ofFrame htype hpacket
  simp only [List.length_append] at hlen
  exact eq_of_value_read htopic hproperties (by omega) hread

end TopicBridge.Mqtt
