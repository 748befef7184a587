/-
**What is written into a buffer.**

A packet is written into a buffer field by field, and the first field that cannot be written ends
that.  `Packet.encode` says at once whether a packet can be written and as which bytes.  The two
agree: if a packet has a written form, then just these bytes are added to the buffer; if it has
none, then the same error comes up somewhere on the way, when some bytes have been added already.

Main definitions:

* `Mqtt.Writer.Emits` — a writer adds the bytes of an encoding, or fails as it does.

Main results:

* `Writer.Emits.seq` — two writers after each other add the bytes of both encodings;
* `Writer.emits_forM` — so do the writers of a list of parts;
* `Packet.emits` — **a packet is written as `Packet.encode` says**, or fails with its error.
-/

import TopicBridge.Mqtt.Packet.Emit
import TopicBridge.Proofs.Rule.Built

set_option autoImplicit false

namespace TopicBridge.Mqtt

namespace Writer

/-! ### Writing in steps -/

/-- The writer adds the bytes of an encoding to the buffer.  If the encoding fails, the writer fails
with the same error, and the buffer still begins as it did. -/
structure Emits (w : Writer Unit) (x : Except EncodeError Bytes) : Prop where
  ok : ∀ bytes, x = .ok bytes → ∀ buffer, w buffer = .ok () (buffer ++ bytes)
  error : ∀ e, x = .error e → ∀ buffer, ∃ part, w buffer = .error e (buffer ++ part)

variable {w w' : Writer Unit} {x y : Except EncodeError Bytes} {buffer buffer' : Bytes}

theorem seq_of_ok (h : w buffer = .ok () buffer') : (w >>= fun _ => w') buffer = w' buffer' := by
  show EStateM.bind w (fun _ => w') buffer = _
  rw [EStateM.bind, h]

theorem seq_of_error {e : EncodeError} (h : w buffer = .error e buffer') :
    (w >>= fun _ => w') buffer = .error e buffer' := by
  show EStateM.bind w (fun _ => w') buffer = _
  rw [EStateM.bind, h]

/-- Two writers after each other add the bytes of both encodings; where one fails, both do. -/
theorem Emits.seq (h : Emits w x) (h' : Emits w' y) :
    Emits (w >>= fun _ => w') (x >>= fun front => y >>= fun back => pure (front ++ back)) := by
  constructor
  · intro bytes hbytes buffer
    obtain ⟨front, hfront, hbytes⟩ := bind_eq_ok_iff.1 hbytes
    obtain ⟨back, hback, hbytes⟩ := bind_eq_ok_iff.1 hbytes
    obtain rfl : front ++ back = bytes := Except.ok.inj hbytes
    rw [seq_of_ok (h.ok front hfront buffer), h'.ok back hback, List.append_assoc]
  · intro e he buffer
    cases hx : x with
    | error e' =>
        rw [hx] at he
        obtain rfl : e' = e := Except.error.inj he
        obtain ⟨part, hpart⟩ := h.error e' hx buffer
        exact ⟨part, seq_of_error hpart⟩
    | ok front =>
        rw [hx] at he
        cases hy : y with
        | error e' =>
            rw [hy] at he
            obtain rfl : e' = e := Except.error.inj he
            obtain ⟨part, hpart⟩ := h'.error e' hy (buffer ++ front)
            refine ⟨front ++ part, ?_⟩
            rw [seq_of_ok (h.ok front hx buffer), hpart, List.append_assoc]
        | ok back =>
            rw [hy] at he
            cases he

theorem emits_nothing : Emits (pure ()) (pure []) := by
  constructor
  · intro bytes hbytes buffer
    obtain rfl := Except.ok.inj hbytes
    rw [List.append_nil]
    rfl
  · intro e he
    cases he

theorem emits_bytes (b : Bytes) : Emits (.bytes b) (pure b) := by
  constructor
  · intro bytes hbytes buffer
    obtain rfl := Except.ok.inj hbytes
    rfl
  · intro e he
    cases he

theorem emits_field (x : Except EncodeError Bytes) : Emits (.field x) x := by
  cases x with
  | ok b => exact emits_bytes b
  | error e =>
      constructor
      · intro bytes hbytes
        cases hbytes
      · intro e' he buffer
        obtain rfl := Except.error.inj he
        exact ⟨[], by rw [List.append_nil]; rfl⟩

theorem emits_optional {α : Type} (write : α → Except EncodeError Bytes) (field : Option α) :
    Emits (.optional write field) ((field.map write).getD (.ok [])) := by
  cases field with
  | none => exact emits_nothing
  | some a => exact emits_field (write a)

/-- The parts of a list are written one after the other. -/
theorem emits_forM {α : Type} {emit : α → Writer Unit} {write : α → Except EncodeError Bytes}
    (h : ∀ a, Emits (emit a) (write a)) (l : List α) :
    Emits (l.forM emit) (l.mapM write >>= fun parts => pure parts.flatten) := by
  induction l with
  | nil => exact emits_nothing
  | cons a l ih =>
      have hcons := (h a).seq ih
      rw [List.forM_eq_forM, List.forM_cons, ← List.forM_eq_forM, List.mapM_cons]
      simpa only [bind_assoc, pure_bind, List.flatten_cons] using hcons

end Writer

open Writer

/-! ### Property lists -/

theorem ValueForm.emits {form : ValueForm} (v : form.Value) :
    Emits (form.emit v) (form.write v) := by
  cases form with
  | byte => exact emits_bytes [v]
  | twoBytes => exact emits_bytes (Bytes.ofUInt16 v)
  | fourBytes => exact emits_bytes (Bytes.ofUInt32 v)
  | varInt => exact emits_field (VarInt.write v)
  | text => exact emits_field (writeText v)
  | binary => exact emits_field (writeBinary v)
  | textPair => exact (emits_field (writeText v.1)).seq (emits_field (writeText v.2))

theorem Property.emits (e : Property) : Emits e.emit e.write := by
  have h := (emits_bytes [e.id.code]).seq (ValueForm.emits e.value)
  rw [emit, write]
  simpa only [pure_bind, List.singleton_append] using h

/-- A property list is written as `Properties.encode` says. -/
theorem Properties.emits (p : Properties) : Emits p.emit p.encode := by
  have h := (emits_field (VarInt.write (UInt32.ofNat p.encodedSize))).seq
    (emits_forM Property.emits p.toList)
  exact h

/-! ### Packets -/

theorem Frame.emits_header (first : UInt8) (n : Nat) :
    Emits (emitHeader first n) (header first n) := by
  have h := (emits_bytes [first]).seq (emits_field (VarInt.write (UInt32.ofNat n)))
  rw [emitHeader, header]
  simpa only [pure_bind, List.singleton_append] using h

theorem Connect.emits (p : Connect) : Emits p.emit p.encode := by
  have h := (Frame.emits_header 0x10 p.bodySize).seq <| (emits_field (writeText "MQTT")).seq <|
    (emits_bytes [protocolLevel]).seq <| (emits_bytes [p.flags]).seq <|
    (emits_bytes (Bytes.ofUInt16 p.keepAlive)).seq <| p.properties.emits.seq <|
    (emits_field (writeText p.clientId)).seq <| (emits_optional writeText p.username).seq <|
    emits_optional writeBinary p.password
  rw [emit, encode]
  simpa only [bind_assoc, pure_bind, List.append_assoc, List.cons_append, List.nil_append] using h

theorem Publish.emits (p : Publish) : Emits p.emit p.encode := by
  have h := (Frame.emits_header p.first p.bodySize).seq <| (emits_field (writeText p.topic)).seq <|
    (emits_bytes p.idField).seq <| p.properties.emits.seq <| emits_bytes p.payload
  rw [emit, encode]
  simpa only [bind_assoc, pure_bind, List.append_assoc] using h

theorem Ack.emits (first : UInt8) (a : Ack) : Emits (a.emit first) (pure (a.encode first)) := by
  unfold emit encode
  split
  · exact (emits_bytes [first]).seq <| (emits_bytes [2]).seq <|
      emits_bytes (Bytes.ofUInt16 a.packetId)
  · exact (emits_bytes [first]).seq <| (emits_bytes [3]).seq <|
      (emits_bytes (Bytes.ofUInt16 a.packetId)).seq <| emits_bytes [a.reasonCode.code]

theorem Subscription.emits (s : Subscription) : Emits s.emit s.encode := by
  have h := (emits_field (writeText s.filter)).seq (emits_bytes [s.options])
  rw [emit, encode]
  simpa only [pure_bind] using h

theorem Subscribe.emits (p : Subscribe) : Emits p.emit p.encode := by
  have h := (Frame.emits_header 0x82 p.bodySize).seq <|
    (emits_bytes (Bytes.ofUInt16 p.packetId)).seq <| p.properties.emits.seq <|
    emits_forM Subscription.emits p.subscriptions
  rw [emit, encode]
  simpa only [bind_assoc, pure_bind, List.append_assoc] using h

theorem Disconnect.emits (p : Disconnect) : Emits p.emit p.encode := by
  unfold emit encode
  split
  · exact (emits_bytes [0xE0]).seq (emits_bytes [0])
  · have h := (Frame.emits_header 0xE0 p.bodySize).seq <|
      (emits_bytes [p.reasonCode.code]).seq p.properties.emits
    simpa only [bind_assoc, pure_bind, List.append_assoc] using h

/-- **A packet is written as `Packet.encode` says**, or fails with the same error. -/
theorem Packet.emits (p : Packet) : Emits p.emit p.encode := by
  cases p with
  | connect p => exact p.emits
  | publish p => exact p.emits
  | pubAck a => exact a.emits 0x40
  | pubRec a => exact a.emits 0x50
  | pubRel a => exact a.emits 0x62
  | pubComp a => exact a.emits 0x70
  | subscribe p => exact p.emits
  | pingReq => exact (emits_bytes [0xC0]).seq (emits_bytes [0])
  | disconnect p => exact p.emits
  | connAck _ | subAck _ | pingResp => exact emits_field (.error _)

end TopicBridge.Mqtt
