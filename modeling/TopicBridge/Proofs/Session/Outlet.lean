/-
**The stream takes whole packets only.**

A packet that cannot be written is noticed when its beginning is in the buffer already, and a packet
that is too large when all of it is there.  Neither shows: the buffer is emptied before each packet,
and only a buffer with a whole packet is handed to the stream.  So what the stream has taken are the
written forms of the packets that were sent, in that order, and whoever leaves out the calls that
were refused finds the same stream and the same answers to the others.

Main definitions:

* `Outlet.Alike` — two states differ at most in what is left in the buffer;
* `Outlet.WritesWhole` — what becomes of a sequence of calls.

Main results:

* `Outlet.send_cases` — a call does what `Connection.send` says, and nothing if that is an error;
* `Outlet.run_alike` — what is left in the buffer has no influence;
* `Outlet.writesWhole` — **every sequence of calls writes whole packets**.
-/

import TopicBridge.Proofs.Mqtt.Emission
import TopicBridge.Proofs.Mqtt.Framing
import TopicBridge.Proofs.Session.Sending
import TopicBridge.Session.Outlet

set_option autoImplicit false

namespace TopicBridge.Outlet

open Mqtt

/-! ### One call -/

/-- **What a call does.**  The bytes of the packet go out as a whole, or nothing changes but what is
left in the buffer. -/
theorem send_cases (p : Packet) (o : Outlet) :
    (∃ bytes, o.connection.send p = .ok bytes ∧
      send p o = .ok () { o with buffer := bytes, stream := o.stream ++ bytes }) ∨
    (∃ e buffer, o.connection.send p = .error e ∧ send p o = .error e { o with buffer }) := by
  cases hp : p.encode with
  | error e =>
      obtain ⟨part, hemit⟩ := p.emits.error e hp []
      refine .inr ⟨.encode e, [] ++ part, Connection.send_of_encode_error hp, ?_⟩
      simp only [send, bind, EStateM.bind, clear, encode, hemit]
  | ok bytes =>
      have hemit := p.emits.ok bytes hp []
      rw [List.nil_append] at hemit
      rw [Connection.send_of_encode hp]
      by_cases hfit : Connection.admits o.connection.limits bytes.length
      · rw [if_pos hfit]
        cases hfault : o.connection.fault with
        | some cause =>
            refine .inr ⟨.io cause, bytes, rfl, ?_⟩
            simp only [send, bind, EStateM.bind, clear, encode, hemit, check, if_pos hfit, flush,
              hfault]
        | none =>
            refine .inl ⟨bytes, rfl, ?_⟩
            simp only [send, bind, EStateM.bind, clear, encode, hemit, check, if_pos hfit, flush,
              hfault]
      · rw [if_neg hfit]
        refine .inr ⟨_, bytes, rfl, ?_⟩
        simp only [send, bind, EStateM.bind, clear, encode, hemit, check, if_neg hfit]

variable {o o' : Outlet} {p : Packet}

theorem call_of_send {bytes : Bytes} (h : o.connection.send p = .ok bytes) :
    o.call p = (⟨p, o.connection, .ok ()⟩,
      { o with buffer := bytes, stream := o.stream ++ bytes }) := by
  rcases send_cases p o with ⟨bytes', hsend, hcall⟩ | ⟨e, buffer, hsend, -⟩
  · obtain rfl := Except.ok.inj (hsend.symm.trans h)
    rw [call, hcall]
  · cases hsend.symm.trans h

theorem call_of_send_error {e : SessionError} (h : o.connection.send p = .error e) :
    ∃ buffer, o.call p = (⟨p, o.connection, .error e⟩, { o with buffer }) := by
  rcases send_cases p o with ⟨bytes, hsend, -⟩ | ⟨e', buffer, hsend, hcall⟩
  · cases hsend.symm.trans h
  · obtain rfl := Except.error.inj (hsend.symm.trans h)
    exact ⟨buffer, by rw [call, hcall]⟩

/-! ### What is left in the buffer -/

/-- Two states differ at most in what is left in the buffer. -/
structure Alike (o o' : Outlet) : Prop where
  connection : o.connection = o'.connection
  stream : o.stream = o'.stream

theorem call_alike (h : o.Alike o') (p : Packet) :
    (o.call p).1 = (o'.call p).1 ∧ (o.call p).2.Alike (o'.call p).2 := by
  cases hsend : o.connection.send p with
  | ok bytes =>
      have hsend' : o'.connection.send p = .ok bytes := h.connection ▸ hsend
      rw [call_of_send hsend, call_of_send hsend', h.connection]
      exact ⟨rfl, rfl, congrArg (· ++ bytes) h.stream⟩
  | error e =>
      have hsend' : o'.connection.send p = .error e := h.connection ▸ hsend
      obtain ⟨buffer, hcall⟩ := call_of_send_error hsend
      obtain ⟨buffer', hcall'⟩ := call_of_send_error hsend'
      rw [hcall, hcall', h.connection]
      exact ⟨rfl, rfl, h.stream⟩

theorem run_send (o : Outlet) (p : Packet) (acts : List Act) :
    o.run (.send p :: acts) =
      ((o.call p).1 :: ((o.call p).2.run acts).1, ((o.call p).2.run acts).2) :=
  rfl

/-- What is left in the buffer has no influence on later calls. -/
theorem run_alike (h : o.Alike o') (acts : List Act) :
    (o.run acts).1 = (o'.run acts).1 ∧ (o.run acts).2.Alike (o'.run acts).2 := by
  induction acts generalizing o o' with
  | nil => exact ⟨rfl, h⟩
  | cons act acts ih =>
      cases act with
      | send p =>
          obtain ⟨hcall, hnext⟩ := call_alike h p
          obtain ⟨hcalls, hend⟩ := ih hnext
          exact ⟨by rw [run_send, run_send, hcall, hcalls], hend⟩
      | meanwhile change => exact ih ⟨congrArg change h.connection, h.stream⟩

/-- A packet that is not sent changes nothing but what is left in the buffer. -/
theorem call_alike_of_not_succeeded (h : (o.call p).1.succeeded = false) :
    (o.call p).2.Alike o := by
  cases hsend : o.connection.send p with
  | ok bytes =>
      rw [call_of_send hsend] at h
      cases h
  | error e =>
      obtain ⟨buffer, hcall⟩ := call_of_send_error hsend
      rw [hcall]
      exact ⟨rfl, rfl⟩

/-! ### Sequences of calls -/

theorem run_append (o : Outlet) (before after : List Act) :
    o.run (before ++ after) =
      ((o.run before).1 ++ ((o.run before).2.run after).1, ((o.run before).2.run after).2) := by
  induction before generalizing o with
  | nil => rfl
  | cons act before ih =>
      cases act with
      | send p =>
          rw [List.cons_append, run_send, run_send, ih]
          rfl
      | meanwhile change => exact ih _

/-- The bytes of the packet, if it has a written form. -/
def Call.encoding (call : Call) : Bytes := call.packet.encode.toOption.getD []

theorem Call.encoding_of_encode {call : Call} {bytes : Bytes}
    (h : call.packet.encode = .ok bytes) : call.encoding = bytes := by
  rw [encoding, h]
  rfl

/-- What an answer says of the packet. -/
structure Call.Sound (call : Call) : Prop where
  /-- The answer is that of `Connection.send`. -/
  agrees : call.result = (call.connection.send call.packet).map fun _ => ()
  /-- A packet that is sent has a written form within the limit, which is one frame. -/
  complete : call.succeeded → call.packet.encode = .ok call.encoding ∧
    Connection.admits call.connection.limits call.encoding.length ∧
    (call.packet.Framed call.encoding ↔ call.packet.bodySize < 4294967296)
  /-- A packet that cannot be written is not sent. -/
  unwritten : ∀ e, call.packet.encode = .error e → call.result = .error (.encode e)
  /-- Neither is a packet that is too large. -/
  oversize : ∀ bytes limit, call.packet.encode = .ok bytes →
    call.connection.limits.maximumPacketSize = some limit → limit.toNat < bytes.length →
    call.result = .error (.packetTooLarge bytes.length limit.toNat)

theorem call_sound (o : Outlet) (p : Packet) : (o.call p).1.Sound := by
  cases hsend : o.connection.send p with
  | ok bytes =>
      obtain ⟨hencode, hfit, -⟩ := Connection.send_eq_ok_iff.1 hsend
      rw [call_of_send hsend]
      constructor
      · rw [hsend]
        rfl
      · intro _
        rw [Call.encoding_of_encode hencode]
        obtain ⟨first, body, hlaid⟩ := Packet.laidOut_of_encode hencode
        exact ⟨hencode, hfit, hlaid.framed_iff⟩
      · intro e he
        cases hencode.symm.trans he
      · intro bytes' limit hbytes hlimit hlt
        obtain rfl := Except.ok.inj (hencode.symm.trans hbytes)
        exact absurd (Connection.admits_iff.1 hfit limit hlimit) (Nat.not_le.2 hlt)
  | error e =>
      obtain ⟨buffer, hcall⟩ := call_of_send_error hsend
      rw [hcall]
      constructor
      · rw [hsend]
        rfl
      · intro hsent
        cases hsent
      · intro e' he
        rw [Connection.send_of_encode_error he] at hsend
        exact congrArg Except.error (Except.error.inj hsend).symm
      · intro bytes limit hbytes hlimit hlt
        replace hlimit : o.connection.limits.maximumPacketSize = some limit := hlimit
        have hfit : ¬Connection.admits o.connection.limits bytes.length := by
          rw [Connection.admits_iff]
          intro hall
          exact absurd (hall limit hlimit) (Nat.not_le.2 hlt)
        rw [Connection.send_of_encode hbytes, if_neg hfit, hlimit] at hsend
        exact congrArg Except.error (Except.error.inj hsend).symm

/-- The stream takes what is sent. -/
theorem stream_call (o : Outlet) (p : Packet) :
    (o.call p).2.stream =
      o.stream ++ ([(o.call p).1].filter Call.succeeded).flatMap Call.encoding := by
  cases hsend : o.connection.send p with
  | ok bytes =>
      obtain ⟨hencode, -⟩ := Connection.send_eq_ok_iff.1 hsend
      have hbytes : Call.encoding ⟨p, o.connection, .ok ()⟩ = bytes :=
        Call.encoding_of_encode hencode
      rw [call_of_send hsend, List.filter_cons_of_pos rfl, List.filter_nil,
        List.flatMap_singleton, hbytes]
  | error e =>
      obtain ⟨buffer, hcall⟩ := call_of_send_error hsend
      have hrefused : ¬Call.succeeded ⟨p, o.connection, .error e⟩ := Bool.false_ne_true
      rw [hcall, List.filter_cons_of_neg hrefused, List.filter_nil, List.flatMap_nil,
        List.append_nil]

theorem packet_call (o : Outlet) (p : Packet) : (o.call p).1.packet = p := by
  cases hsend : o.connection.send p with
  | ok bytes => rw [call_of_send hsend]
  | error e =>
      obtain ⟨buffer, hcall⟩ := call_of_send_error hsend
      rw [hcall]

/-- There is one answer to each call. -/
theorem map_packet_run (o : Outlet) (acts : List Act) :
    (o.run acts).1.map Call.packet = acts.filterMap Act.packet? := by
  induction acts generalizing o with
  | nil => rfl
  | cons act acts ih =>
      cases act with
      | send p =>
          rw [run_send, List.map_cons, packet_call, ih]
          rfl
      | meanwhile change => exact ih _

theorem stream_run (o : Outlet) (acts : List Act) :
    (o.run acts).2.stream =
      o.stream ++ ((o.run acts).1.filter Call.succeeded).flatMap Call.encoding := by
  induction acts generalizing o with
  | nil => exact (List.append_nil _).symm
  | cons act acts ih =>
      cases act with
      | send p =>
          rw [run_send]
          dsimp only
          rw [ih, stream_call, List.append_assoc, ← List.flatMap_append, ← List.filter_append,
            List.singleton_append]
      | meanwhile change => exact ih _

theorem sound_of_mem_run {call : Call} {acts : List Act} (h : call ∈ (o.run acts).1) :
    call.Sound := by
  induction acts generalizing o with
  | nil => cases h
  | cons act acts ih =>
      cases act with
      | send p =>
          rw [run_send] at h
          rcases List.mem_cons.1 h with rfl | hlater
          · exact call_sound o p
          · exact ih hlater
      | meanwhile change => exact ih h

/-! ### What is written as a whole -/

/-- What becomes of a sequence of calls. -/
structure WritesWhole (o : Outlet) (acts : List Act) : Prop where
  /-- There is one answer to each call, in that order. -/
  answered : (o.run acts).1.map Call.packet = acts.filterMap Act.packet?
  /-- The stream takes the written forms of the packets that are sent, in that order. -/
  stream : (o.run acts).2.stream =
    o.stream ++ ((o.run acts).1.filter Call.succeeded).flatMap Call.encoding
  /-- What is sent is complete and within the limit; what is neither is refused. -/
  sound : ∀ call ∈ (o.run acts).1, call.Sound
  /-- What is not sent leaves nothing on the stream and has no influence on what comes after it. -/
  harmless : ∀ before p after, acts = before ++ .send p :: after →
    ((o.run before).2.call p).1.succeeded = false →
    ((o.run before).2.call p).2.stream = (o.run before).2.stream ∧
    (∃ rest, (o.run acts).1 = (o.run before).1 ++ ((o.run before).2.call p).1 :: rest ∧
      (o.run (before ++ after)).1 = (o.run before).1 ++ rest) ∧
    (o.run acts).2.Alike (o.run (before ++ after)).2

/-- **Every sequence of calls writes whole packets**: those that are sent, and nothing of the
others. -/
theorem writesWhole (o : Outlet) (acts : List Act) : o.WritesWhole acts where
  answered := map_packet_run o acts
  stream := stream_run o acts
  sound := fun _ h => sound_of_mem_run h
  harmless := by
    rintro before p after rfl hrefused
    have hsame := call_alike_of_not_succeeded hrefused
    obtain ⟨hcalls, hend⟩ := run_alike hsame after
    rw [run_append, run_append, run_send]
    exact ⟨hsame.stream, ⟨_, congrArg _ (congrArg _ hcalls), rfl⟩, hend⟩

/-- A request whose property list cannot be written to its end. -/
def unwritable : Packet := .subscribe ⟨1, [], { subscriptionIdentifiers := [4000000000] }⟩

/-- The broker allows 16 bytes, which is too little for the first packet; the second is sent, and
before the third the stream fails. -/
def eventful : List Act :=
  [.meanwhile fun c => { c with limits := { maximumPacketSize := some 16 } },
    .send (.plain [0, 1, 2, 3, 4, 5, 6, 7, 8, 9, 10]), .send (.pubAck ⟨7, .success⟩),
    .meanwhile fun c => c.failWith "reset", .send .pingReq]

/-- Of a packet that breaks off nothing is seen on the stream, or in what comes after it. -/
theorem writesWhole_unwritable :
    (({} : Outlet).call unwritable).2.buffer = [0x82, 8, 0, 1, 5, 0x0B] ∧
      (({} : Outlet).run (.send unwritable :: eventful)).1.map Call.succeeded =
        [false, false, true, false] ∧
      (({} : Outlet).run (.send unwritable :: eventful)).2.stream = [0x40, 2, 0, 7] ∧
      (({} : Outlet).run eventful).2.stream = [0x40, 2, 0, 7] := by
  have hbuffer : (({} : Outlet).call unwritable).2.buffer = [0x82, 8, 0, 1, 5, 0x0B] := by
    decide +kernel
  have hrefused : (({} : Outlet).call unwritable).1.succeeded = false := by
    decide +kernel
  have hcalls : (({} : Outlet).run (.send unwritable :: eventful)).1.map Call.succeeded =
      [false, false, true, false] := by
    decide +kernel
  have hsent : ((({} : Outlet).run (.send unwritable :: eventful)).1.filter
      Call.succeeded).flatMap Call.encoding = [0x40, 2, 0, 7] := by
    decide +kernel
  have hwhole := writesWhole {} (.send unwritable :: eventful)
  have hstream : (({} : Outlet).run (.send unwritable :: eventful)).2.stream = [0x40, 2, 0, 7] := by
    rw [hwhole.stream, hsent]
    rfl
  refine ⟨hbuffer, hcalls, hstream, ?_⟩
  rw [← hstream]
  exact (hwhole.harmless [] unwritable eventful rfl hrefused).2.2.stream.symm

end TopicBridge.Outlet
