/-
**The acknowledgements of a subscriber.**

The packets of a connection are answered one after the other: a message by PUBACK or PUBREC as its
quality of service asks, its release by PUBCOMP, with the identifier of the packet, and nothing else
is acknowledged.  So what is written can be told from what has been read.  What cannot be answered
yet is a message that is being handed over, and what is never answered is the packet that costs the
connection, or the message for which there is nobody.

Main definitions:

* `Effect.acknowledgements`, `Effect.Acknowledges` — the frames that acknowledge something, and the
  packets whose written forms they are;
* `Subscriber.recorded` — a message at quality of service 2 has come in and has not been released;
* `Subscriber.reply?`, `Subscriber.replies` — the answers to some packets;
* `Subscriber.Owes` — the packets that have been read and not answered;
* `Subscriber.Duty` — what a step is to the packets that are to be answered;
* `Move.Earns` — the reasons for which something is acknowledged;
* `Subscriber.Disciplined` — what a run owes to the packets of its connection.

Main results:

* `Subscriber.recorded_eq_confirmed` — what is recorded has been confirmed, and its release has not
  been completed;
* `Subscriber.duty_of_step` — every step does its duty;
* `Run.replied` — **what is written is what the packets ask for**, in their order;
* `Run.disciplined` — **a run is disciplined**.
-/

import TopicBridge.Proofs.Session.Frames
import TopicBridge.Proofs.Session.Redelivery

set_option autoImplicit false

namespace TopicBridge

open Mqtt

/-! ### The frames of an acknowledgement -/

namespace Effect

/-- The frames that acknowledge something: PUBACK, PUBREC, PUBREL and PUBCOMP. -/
def acknowledgements (es : List Effect) : List Bytes :=
  (written es).filter fun bytes => bytes.packetType? ∈ [some 4, some 5, some 6, some 7]

/-- What is done acknowledges something with these packets, and with no others. -/
def Acknowledges (es : List Effect) (packets : List Packet) : Prop :=
  (acknowledgements es).map Except.ok = packets.map Packet.encode

variable {es fs : List Effect} {packets packets' : List Packet}

theorem acknowledges_nil_iff : Acknowledges es [] ↔ acknowledgements es = [] := by
  simp [Acknowledges]

theorem Acknowledges.append (h : Acknowledges es packets) (h' : Acknowledges fs packets') :
    Acknowledges (es ++ fs) (packets ++ packets') := by
  unfold Acknowledges acknowledgements at *
  rw [written_append, List.filter_append, List.map_append, List.map_append, h, h']

/-- What is counted acknowledges nothing. -/
theorem acknowledgements_count (metric : Metric) :
    acknowledgements (.count metric :: es) = acknowledgements es := rfl

/-- Other packets acknowledge nothing. -/
theorem acknowledgements_eq_nil (h : ∀ bytes ∈ written es, ∃ packet : Packet,
    packet.encode = .ok bytes ∧ packet.type ∉ [4, 5, 6, 7]) : acknowledgements es = [] := by
  rw [acknowledgements, List.filter_eq_nil_iff]
  intro bytes hbytes
  obtain ⟨packet, hencode, htype⟩ := h bytes hbytes
  rw [Packet.packetType?_of_encode hencode]
  simpa using htype

/-- Frames of acknowledgements, as what is done. -/
theorem acknowledges_map_write {frames : List Bytes}
    (h : frames.map Except.ok = packets.map Packet.encode)
    (hack : ∀ packet ∈ packets, packet.type ∈ [4, 5, 6, 7]) :
    Acknowledges (frames.map Effect.write) packets := by
  have hall : frames.filter (fun bytes => bytes.packetType? ∈ [some 4, some 5, some 6, some 7]) =
      frames := by
    rw [List.filter_eq_self]
    intro bytes hbytes
    obtain ⟨packet, hpacket, hencode⟩ := Packet.exists_of_mem_frames h hbytes
    rw [Packet.packetType?_of_encode hencode]
    simpa using hack packet hpacket
  rw [Acknowledges, acknowledgements, written_map_write, hall, h]

end Effect

namespace Subscriber

/-! ### The answers to some packets -/

/-- A message at quality of service 2 with a packet identifier. -/
def copies (n : UInt16) : Packet → Bool
  | .publish m => m.qos = .exactlyOnce ∧ m.packetId = some n
  | _ => false

/-- The release of a packet identifier. -/
def releases (n : UInt16) : Packet → Bool
  | .pubRel a => a.packetId = n
  | _ => false

/-- A message at quality of service 2 has come in under a packet identifier, and has not been
released since. -/
def recorded (n : UInt16) (packets : List Packet) : Bool :=
  (since (releases n) packets).any (copies n)

/-- The answer to a packet, given the identifiers that have been recorded. -/
def reply? (known : UInt16 → Bool) : Packet → Option Packet
  | .publish m => receipt? m.qos m.packetId
  | .pubRel a =>
    some (.pubComp ⟨a.packetId, if known a.packetId then .success else .packetIdNotFound⟩)
  | _ => none

/-- The answers to some packets, in their order, each given what has come in before. -/
def replies (before : List Packet) : List Packet → List Packet
  | [] => []
  | packet :: rest =>
    (reply? (recorded · before) packet).toList ++ replies (before ++ [packet]) rest

variable {packets rest : List Packet} {packet : Packet} {n : UInt16}

theorem replies_concat (before : List Packet) : replies before (packets ++ [packet]) =
    replies before packets ++ (reply? (recorded · (before ++ packets)) packet).toList := by
  induction packets generalizing before with
  | nil => simp [replies]
  | cons first packets ih => simp [replies, ih]

@[simp] theorem recorded_nil : recorded n [] = false := by simp [recorded]

theorem recorded_concat : recorded n (packets ++ [packet]) =
    (!releases n packet && (recorded n packets || copies n packet)) := by
  cases h : releases n packet with
  | true => simp [recorded, since_concat_of_pos h]
  | false => simp [recorded, since_concat_of_neg h]

/-- Whether a packet confirms that one with a packet identifier has been received. -/
def confirms (n : UInt16) : Packet → Bool
  | .pubRec a => a.packetId = n
  | _ => false

/-- Whether a packet completes the release of a packet identifier. -/
def completes (n : UInt16) : Packet → Bool
  | .pubComp a => a.packetId = n
  | _ => false

/-- Among some answers, a packet identifier has been confirmed, and its release has not been
completed since. -/
def confirmed (n : UInt16) (answers : List Packet) : Bool :=
  (since (completes n) answers).any (confirms n)

theorem confirmed_concat {answers : List Packet} {answer : Packet} :
    confirmed n (answers ++ [answer]) =
      (!completes n answer && (confirmed n answers || confirms n answer)) := by
  cases h : completes n answer with
  | true => simp [confirmed, since_concat_of_pos h]
  | false => simp [confirmed, since_concat_of_neg h]

/-- **What is recorded has been confirmed**, and its release has not been completed since. -/
theorem recorded_eq_confirmed : recorded n packets = confirmed n (replies [] packets) := by
  induction packets using List.reverseRecOn with
  | nil => simp [confirmed, replies]
  | append_singleton packets packet ih =>
      rw [replies_concat, recorded_concat, ih]
      cases packet with
      | publish m =>
          simp only [reply?, releases, copies]
          unfold receipt?
          split
          all_goals simp_all [confirmed_concat, completes, confirms]
      | pubRel a => simp [reply?, releases, copies, confirmed_concat, completes, confirms]
      | _ => simp [reply?, releases, copies]

/-! ### Duties -/

/-- The packets that have been read and not been answered in a phase: the message that is being
handed over, and without a connection at most the packet that has cost it. -/
def Owes : Phase → List Packet → Prop
  | .delivering _ m id, rest =>
    ∃ q : Publish, rest = [.publish q] ∧ m = .ofPublish q ∧ id = q.packetId
  | .welcoming _ _ _, rest | .serving _, rest | .reporting _ _, rest => rest = []
  | _, rest => rest.length ≤ 1

variable {p : Subscriber} {a b : Phase} {mv : Move} {ms : List Move} {st : State}

theorem owes_of_not_isConnected (h : a.isConnected = false) (hl : rest.length ≤ 1) :
    Owes a rest := by
  cases a with
  | welcoming | serving | delivering | reporting => cases h
  | _ => exact hl

theorem Owes.length_le (h : Owes a rest) : rest.length ≤ 1 := by
  cases a with
  | delivering s m id =>
      obtain ⟨q, rfl, -⟩ := h
      exact le_rfl
  | welcoming | serving | reporting =>
      obtain rfl : rest = [] := h
      exact Nat.zero_le 1
  | _ => exact h

theorem Owes.of_update? {f : Connection → Connection} (h : a.update? f = some b)
    (ho : Owes a rest) : Owes b rest := by
  cases a with
  | greeting | welcoming | serving | delivering | reporting =>
      cases h
      exact ho
  | _ => cases h

theorem owes_of_afterAnswer {s : Serving} (h : p.afterAnswer s = .ok b) : Owes b [] := by
  rcases afterAnswer_eq_ok h with ⟨-, rfl⟩ | ⟨-, rfl⟩ <;> rfl

/-- Nothing that may be done where a connection is given up acknowledges anything. -/
theorem acknowledgements_of_transit {es : List Effect} (h : ∀ e ∈ es, Transit p e) :
    Effect.acknowledgements es = [] := by
  refine Effect.acknowledgements_eq_nil fun bytes hbytes => ?_
  cases h _ (Effect.mem_written_iff.1 hbytes) with
  | @subscription q _ hq => exact ⟨.subscribe q, hq, by simp [Packet.type]⟩
  | farewell hq => exact ⟨_, hq, by simp [Packet.type]⟩

/-- What a step is to the packets that are to be answered. -/
inductive Duty (p : Subscriber) (mv : Move) : Prop where
  | welcome (hw : mv.isWelcome) (hes : Effect.acknowledgements mv.effects = [])
      (ho : Owes mv.after.phase [])
  /-- Nothing is read, and nothing is acknowledged. -/
  | idle (hw : mv.isWelcome = false) (hr : mv.received? = none)
      (hes : Effect.acknowledgements mv.effects = [])
      (ho : ∀ rest, Owes mv.before.phase rest → Owes mv.after.phase rest)
  /-- A packet is answered as soon as it is read.  If it is a message, it is known or one of the
  relay itself. -/
  | answered {s : Serving} {packet : Packet} (hb : mv.before.phase = .serving s)
      (hr : mv.received? = some packet)
      (hes : Effect.Acknowledges mv.effects (reply? s.unreleased.contains packet).toList)
      (hm : ∀ m, packet = .publish m →
        s.Knows m ∨ p.isOwn m ∧ Effect.count .loopDropped ∈ mv.effects)
      (ho : Owes mv.after.phase [])
  /-- A message is to be handed over first. -/
  | offered {s : Serving} {m : Publish} (hb : mv.before.phase = .serving s)
      (hr : mv.received? = some (.publish m)) (hk : ¬s.Knows m)
      (hes : Effect.acknowledgements mv.effects = []) (ho : Owes mv.after.phase [.publish m])
  /-- A packet costs the connection. -/
  | lost {s : Serving} {packet : Packet} (hb : mv.before.phase = .serving s)
      (hr : mv.received? = some packet) (hes : Effect.acknowledgements mv.effects = [])
      (hc : mv.after.phase.isConnected = false)
  /-- A message has been handed over, and is answered now. -/
  | handed {s : Serving} {m : Message} {id : Option UInt16}
      (hb : mv.before.phase = .delivering s m id) (hi : mv.input = .taken)
      (hes : Effect.Acknowledges mv.effects (receipt? m.qos id).toList)
      (ho : Owes mv.after.phase [])

/-- The receipt of a message, as what is written for it. -/
theorem acknowledges_of_acknowledge {s s' : Serving} {qos : QoS} {id : Option UInt16}
    {written : List Effect} (h : acknowledge s qos id = .ok (s', written)) :
    Effect.Acknowledges written (receipt? qos id).toList := by
  obtain ⟨-, -, frames, rfl, hframes⟩ := receipt_of_acknowledge h
  refine Effect.acknowledges_map_write hframes fun answer hanswer => ?_
  have htype := type_of_receipt? (Option.mem_toList.1 hanswer)
  rcases htype with htype | htype <;> simp [htype]

/-- An answer that is sent, as what is written. -/
theorem acknowledges_of_send {c : Connection} {answer : Packet} {bytes : Bytes}
    (h : c.send answer = .ok bytes) (htype : answer.type ∈ [4, 5, 6, 7]) :
    Effect.Acknowledges [.write bytes] [answer] :=
  @Effect.acknowledges_map_write [answer] [bytes] (by simp [Connection.encode_of_send h])
    (by simpa using htype)

/-- What costs the connection, or ends everything, as a duty. -/
theorem duty_of_transit (hb : mv.after.phase.isAway) (hes : ∀ e ∈ mv.effects, Transit p e) :
    Duty p mv := by
  have hcon := Phase.not_isConnected_of_isAway hb
  have hquiet := acknowledgements_of_transit hes
  cases hr : mv.received? with
  | none =>
      refine .idle (isWelcome_of_isAway hb) hr hquiet fun rest ho => ?_
      exact owes_of_not_isConnected hcon ho.length_le
  | some packet =>
      obtain ⟨-, s, c, hphase, -⟩ := received?_eq_some_iff.1 hr
      exact .lost hphase hr hquiet hcon

/-- **Every step does its duty.** -/
theorem duty_of_step (h : Step p mv.before.phase mv.input mv.after.phase mv.effects) :
    Duty p mv := by
  generalize ha : mv.before.phase = a, hi : mv.input = i, hb : mv.after.phase = b,
    he : mv.effects = es at h
  cases h with
  | stop _ hes =>
      subst he
      exact duty_of_transit (by rw [hb]; rfl) hes
  | away hb' _ _ hes =>
      subst hb he
      exact duty_of_transit hb' hes
  | opened _ _ hs =>
      obtain ⟨q, hencode⟩ := hs
      refine .idle (by simp [Move.isWelcome, Move.welcomed?, ha]) (received?_eq_none (by simp [hi]))
        ?_ ?_
      · rw [he]
        refine Effect.acknowledgements_eq_nil fun bytes hbytes => ?_
        obtain rfl := List.mem_singleton.1 hbytes
        exact ⟨.connect q, hencode, by simp [Packet.type]⟩
      · rw [ha, hb]
        exact fun rest ho => ho
  | heard _ hin hup =>
      refine .idle ?_ (received?_eq_none (by simpa [hi] using hin)) (by rw [he]; rfl) ?_
      · cases a <;> cases hup <;> simp [Move.isWelcome, Move.welcomed?, ha, hb]
      · rw [ha, hb]
        exact fun rest => Owes.of_update? hup
  | accepted =>
      exact .welcome (by simp [Move.isWelcome, Move.welcomed?, ha, hb]) (by rw [he]; rfl)
        (by rw [hb]; rfl)
  | subscribed hs hans =>
      obtain ⟨hwritten, -⟩ := subscribeAll_cases hs (by simp)
      refine .idle (isWelcome_of_isConnected (by rw [ha]; rfl)) (received?_eq_none (by simp [hi]))
        ?_ ?_
      · rw [he]
        refine Effect.acknowledgements_eq_nil fun bytes hbytes => ?_
        rw [Effect.written_map_write] at hbytes
        obtain ⟨q, hq⟩ := hwritten bytes hbytes
        exact ⟨.subscribe q, hq, by simp [Packet.type]⟩
      · rw [ha, hb]
        rintro rest rfl
        exact owes_of_afterAnswer hans
  | @repeated s c m id bytes hr hk hid hs =>
      refine .answered ha (received?_eq_some_iff.2 ⟨hi, _, _, ha, hr⟩) ?_ ?_ (by rw [hb]; rfl)
      · rw [he, reply?, hk.1, hid]
        exact acknowledges_of_send hs (by simp [Packet.type])
      · rintro m' hm'
        obtain rfl := Packet.publish.inj hm'
        exact .inl hk
  | own hr _ ho hack =>
      refine .answered ha (received?_eq_some_iff.2 ⟨hi, _, _, ha, hr⟩) ?_ ?_ (by rw [hb]; rfl)
      · rw [he, Effect.Acknowledges, Effect.acknowledgements_count]
        exact acknowledges_of_acknowledge hack
      · rintro m' hm'
        obtain rfl := Packet.publish.inj hm'
        exact .inr ⟨ho, by simp [he]⟩
  | offered hr hk _ =>
      refine .offered ha (received?_eq_some_iff.2 ⟨hi, _, _, ha, hr⟩) hk (by rw [he]; rfl) ?_
      rw [hb]
      exact ⟨_, rfl, rfl, rfl⟩
  | released hr hs =>
      refine .answered ha (received?_eq_some_iff.2 ⟨hi, _, _, ha, hr⟩) ?_ (by simp)
        (by rw [hb]; rfl)
      rw [he]
      exact acknowledges_of_send hs (by simp [Packet.type])
  | answered hr _ hans =>
      refine .answered ha (received?_eq_some_iff.2 ⟨hi, _, _, ha, hr⟩) ?_ (by simp) ?_
      · rw [he]
        rfl
      · rw [hb]
        exact owes_of_afterAnswer hans
  | @ignored s c packet k hr hm hrel _ _ =>
      refine .answered ha (received?_eq_some_iff.2 ⟨hi, _, _, ha, hr⟩) ?_ ?_ (by rw [hb]; rfl)
      · have hnone : reply? s.unreleased.contains packet = none := by
          cases packet with
          | publish m => exact absurd rfl (hm m)
          | pubRel x => exact absurd rfl (hrel x)
          | _ => rfl
        rw [he, hnone]
        rfl
      · exact fun m h => absurd h (hm m)
  | pinged _ hs =>
      refine .idle (isWelcome_of_isConnected (by rw [ha]; rfl)) (received?_eq_none (by simp [hi]))
        ?_ ?_
      · rw [he]
        refine Effect.acknowledgements_eq_nil fun bytes hbytes => ?_
        obtain rfl := List.mem_singleton.1 hbytes
        exact ⟨.pingReq, Connection.encode_of_send hs, by simp [Packet.type]⟩
      · rw [ha, hb]
        exact fun rest ho => ho
  | handed hack =>
      refine .handed ha hi ?_ (by rw [hb]; rfl)
      rw [he]
      exact acknowledges_of_acknowledge hack
  | reported _ =>
      refine .idle (isWelcome_of_isConnected (by rw [ha]; rfl)) (received?_eq_none (by simp [hi]))
        (by rw [he]; rfl) ?_
      rw [ha, hb]
      exact fun rest ho => ho

/-! ### Runs -/

/-- What is done in some moves. -/
def performed (ms : List Move) : List Effect := ms.flatMap Move.effects

theorem performed_concat : performed (ms ++ [mv]) = performed ms ++ mv.effects := by
  simp [performed]

theorem received_concat_of_none (h : mv.received? = none) :
    received (ms ++ [mv]) = received ms := by
  rw [received, filterMap_concat, h, Option.toList_none, List.append_nil, received]

theorem received_concat_of_some (h : mv.received? = some packet) :
    received (ms ++ [mv]) = received ms ++ [packet] := by
  rw [received, filterMap_concat, h, Option.toList_some, received]

theorem copies_of_received? (h : mv.received? = some packet) :
    mv.copies n = copies n packet := by
  unfold Move.copies copies
  rw [h]
  cases packet <;> rfl

theorem releases_of_received? (h : mv.received? = some packet) :
    mv.releases n = releases n packet := by
  unfold Move.releases releases
  rw [h]
  cases packet <;> rfl

/-- The copies on the current connection that have not been released are in the packets. -/
theorem any_copies_eq_recorded :
    (current (life n ms)).any (Move.copies n) = recorded n (received (current ms)) := by
  induction ms using List.reverseRecOn with
  | nil => simp [life, current, received]
  | append_singleton ms mv ih =>
      cases hw : mv.isWelcome with
      | true =>
          obtain ⟨-, hr, -⟩ := quiet_of_isWelcome (n := n) hw
          rw [life_concat hr, current_of_isWelcome hw, current_of_isWelcome hw]
          simp [received]
      | false =>
          have hcurrent : current (ms ++ [mv]) = current ms ++ [mv] := current_concat hw
          cases hrec : mv.received? with
          | none =>
              have hr : mv.releases n = false := by simp [Move.releases, hrec]
              rw [any_current_life_concat hw hr, ih, hcurrent, received_concat_of_none hrec]
              simp [Move.copies, hrec]
          | some packet =>
              rw [hcurrent, received_concat_of_some hrec, recorded_concat, ← ih,
                ← copies_of_received? hrec, ← releases_of_received? hrec]
              cases hr : mv.releases n with
              | true => simp [life_concat_of_releases hr, current]
              | false => simp [any_current_life_concat hw hr]

/-- What waits for its release has been recorded. -/
theorem Run.contains_unreleased {shutdown : Bool} (h : Run p (p.start shutdown) ms st)
    {s : Serving} (hs : st.phase = .serving s) :
    s.unreleased.contains n = recorded n (received (current ms)) := by
  have hknows := h.knows_iff (n := n) (by rw [hs]; rfl)
  rw [any_copies_eq_recorded, hs] at hknows
  rw [Bool.eq_iff_iff, ← hknows, List.contains_iff_mem]
  rfl

/-- The packets of the connection have been answered in their order, but for what is owed. -/
def Replied (ms : List Move) (a : Phase) : Prop :=
  ∃ answered rest, received (current ms) = answered ++ rest ∧ Owes a rest ∧
    Effect.Acknowledges (performed (current ms)) (replies [] answered)

theorem Replied.idle (h : Replied ms mv.before.phase) (hw : mv.isWelcome = false)
    (hr : mv.received? = none) (hes : Effect.acknowledgements mv.effects = [])
    (ho : ∀ rest, Owes mv.before.phase rest → Owes mv.after.phase rest) :
    Replied (ms ++ [mv]) mv.after.phase := by
  obtain ⟨answered, rest, hreceived, howes, hsays⟩ := h
  refine ⟨answered, rest, ?_, ho rest howes, ?_⟩
  · rw [current_concat hw, received_concat_of_none hr, hreceived]
  · rw [current_concat hw, performed_concat]
    simpa using hsays.append (Effect.acknowledges_nil_iff.2 hes)

/-- While the subscriptions are served everything has been answered. -/
theorem Replied.of_serving {s : Serving} (h : Replied ms a) (ha : a = .serving s) :
    Effect.Acknowledges (performed (current ms)) (replies [] (received (current ms))) := by
  obtain ⟨answered, rest, hreceived, howes, hsays⟩ := h
  rw [ha] at howes
  obtain rfl : rest = [] := howes
  rwa [hreceived, List.append_nil]

/-- A packet is read and not answered. -/
theorem Replied.unanswered {s : Serving} (h : Replied ms mv.before.phase)
    (hb : mv.before.phase = .serving s) (hr : mv.received? = some packet)
    (hes : Effect.acknowledgements mv.effects = []) (ho : Owes mv.after.phase [packet]) :
    Replied (ms ++ [mv]) mv.after.phase := by
  have hw : mv.isWelcome = false := isWelcome_of_isConnected (by rw [hb]; rfl)
  refine ⟨received (current ms), [packet], ?_, ho, ?_⟩
  · rw [current_concat hw, received_concat_of_some hr]
  · rw [current_concat hw, performed_concat]
    simpa using (h.of_serving hb).append (Effect.acknowledges_nil_iff.2 hes)

/-- A packet is read and answered at once. -/
theorem Replied.answer {s : Serving} (h : Replied ms mv.before.phase)
    (hb : mv.before.phase = .serving s) (hr : mv.received? = some packet)
    (hes : Effect.Acknowledges mv.effects
      (reply? (recorded · (received (current ms))) packet).toList)
    (ho : Owes mv.after.phase []) : Replied (ms ++ [mv]) mv.after.phase := by
  have hw : mv.isWelcome = false := isWelcome_of_isConnected (by rw [hb]; rfl)
  refine ⟨received (current ms) ++ [packet], [], ?_, ho, ?_⟩
  · rw [current_concat hw, received_concat_of_some hr, List.append_nil]
  · rw [current_concat hw, performed_concat, replies_concat]
    exact (h.of_serving hb).append hes

/-- A message has been handed over: the packet that is owed. -/
theorem Replied.handOver {s : Serving} {m : Message} {id : Option UInt16}
    (h : Replied ms mv.before.phase) (hb : mv.before.phase = .delivering s m id)
    (hi : mv.input = .taken) (hes : Effect.Acknowledges mv.effects (receipt? m.qos id).toList)
    (ho : Owes mv.after.phase []) : Replied (ms ++ [mv]) mv.after.phase := by
  obtain ⟨answered, rest, hreceived, howes, hsays⟩ := h
  have hw : mv.isWelcome = false := isWelcome_of_isConnected (by rw [hb]; rfl)
  rw [hb] at howes
  obtain ⟨q, rfl, rfl, rfl⟩ := howes
  refine ⟨answered ++ [.publish q], [], ?_, ho, ?_⟩
  · rw [current_concat hw, received_concat_of_none (received?_eq_none (by simp [hi])), hreceived,
      List.append_nil]
  · rw [current_concat hw, performed_concat, replies_concat]
    exact hsays.append hes

/-- **What is written is what the packets ask for**, in their order. -/
theorem Run.replied {shutdown : Bool} (h : Run p (p.start shutdown) ms st) :
    Replied ms st.phase := by
  induction h with
  | nil =>
      refine ⟨[], [], rfl, ?_, rfl⟩
      cases shutdown <;> exact Nat.zero_le 1
  | snoc h hs ih =>
      cases duty_of_step (step_of_step? hs) with
      | welcome hw _ ho =>
          refine ⟨[], [], ?_, ho, ?_⟩
          all_goals
            rw [current_of_isWelcome hw]
            rfl
      | idle hw hr hes ho => exact ih.idle hw hr hes ho
      | @answered s packet hb hr hes _ ho =>
          have hknown : s.unreleased.contains = (recorded · (received (current _))) :=
            funext fun n => h.contains_unreleased hb
          exact ih.answer hb hr (hknown ▸ hes) ho
      | offered hb hr _ hes ho => exact ih.unanswered hb hr hes ho
      | lost hb hr hes hc => exact ih.unanswered hb hr hes (owes_of_not_isConnected hc le_rfl)
      | handed hb hi hes ho => exact ih.handOver hb hi hes ho

/-- The reasons for which something is acknowledged in a move. -/
inductive Move.Earns (p : Subscriber) (front : List Move) (mv : Move) : Prop where
  /-- The last message that has come in has just been handed over. -/
  | handed {q : Publish} (hh : mv.handed? = some (.message (.ofPublish q)))
      (hr : (received (current front)).getLast? = some (.publish q))
  /-- A message of the relay itself has been dropped. -/
  | own {m : Publish} (hr : mv.received? = some (.publish m)) (ho : p.isOwn m)
      (hes : Effect.count .loopDropped ∈ mv.effects)
  /-- A message repeats an identifier that has been confirmed and not been released. -/
  | repeated {m : Publish} {n : UInt16} (hr : mv.received? = some (.publish m))
      (hq : m.qos = .exactlyOnce) (hid : m.packetId = some n)
      (hc : ∃ answers, Effect.Acknowledges (performed (current front)) answers ∧
        confirmed n answers)
  | released {x : Ack} (hr : mv.received? = some (.pubRel x))

/-- What is acknowledged has been earned. -/
theorem Run.earns_of_step? {shutdown : Bool} (h : Run p (p.start shutdown) ms mv.before)
    (hs : p.step? mv.world mv.before mv.input = some (mv.after, mv.effects))
    (hack : Effect.acknowledgements mv.effects ≠ []) : mv.Earns p ms := by
  have hreplied := h.replied
  cases duty_of_step (step_of_step? hs) with
  | welcome _ hes | idle _ _ hes | offered _ _ _ hes | lost _ _ hes => exact absurd hes hack
  | @answered s packet hb hr hes hm _ =>
      cases packet with
      | publish m =>
          rcases hm m rfl with ⟨hq, n, hn, hid⟩ | ⟨ho, hcount⟩
          · -- the message is known, and so it has been recorded and confirmed
            refine .repeated hr hq hid ⟨_, hreplied.of_serving hb, ?_⟩
            rw [← recorded_eq_confirmed, ← h.contains_unreleased hb]
            exact List.contains_iff_mem.2 hn
          · exact .own hr ho hcount
      | pubRel x => exact .released hr
      | _ => exact absurd (Effect.acknowledges_nil_iff.1 hes) hack
  | handed hb hi _ _ =>
      obtain ⟨answered, rest, hreceived, howes, -⟩ := hreplied
      rw [hb] at howes
      obtain ⟨q, rfl, rfl, rfl⟩ := howes
      have hh : mv.handed? = some (.message (.ofPublish q)) := by
        simp [Move.handed?, hi, State.offer?, hb]
      exact .handed hh (by simp [hreceived])

/-- A phase in which nothing is owed hands no message over. -/
theorem offer?_ne_of_owes_nil (h : Owes st.phase []) (m : Message) :
    st.offer? ≠ some (.message m) := by
  obtain ⟨phase, backoff⟩ := st
  cases phase with
  | delivering =>
      obtain ⟨q, hq, -⟩ := h
      cases hq
  | _ => simp [State.offer?]

/-- A message that repeats a recorded identifier is not handed over. -/
theorem Run.offer?_ne_of_recorded {shutdown : Bool} (h : Run p (p.start shutdown) ms mv.before)
    (hs : p.step? mv.world mv.before mv.input = some (mv.after, mv.effects)) {m : Publish}
    (hr : mv.received? = some (.publish m)) (hq : m.qos = .exactlyOnce)
    (hid : m.packetId = some n) (hrec : recorded n (received (current ms))) (m' : Message) :
    mv.after.offer? ≠ some (.message m') := by
  cases duty_of_step (step_of_step? hs) with
  | welcome _ _ ho | answered _ _ _ _ ho | handed _ _ _ ho => exact offer?_ne_of_owes_nil ho m'
  | lost _ _ _ hc =>
      exact offer?_ne_of_owes_nil (owes_of_not_isConnected hc (Nat.zero_le 1)) m'
  | idle _ hnone =>
      rw [hnone] at hr
      cases hr
  | offered hb hr' hk =>
      -- a message that is handed over is not known, but what has been recorded is
      obtain rfl := Packet.publish.inj (Option.some.inj (hr'.symm.trans hr))
      rw [← h.contains_unreleased hb, List.contains_iff_mem] at hrec
      exact absurd ⟨hq, n, hrec, hid⟩ hk

/-- A message for which there is nobody stops the subscriber, and is not acknowledged. -/
theorem exists_step?_refused {m : Message} (h : st.offer? = some (.message m))
    (w : Surroundings) : ∃ st' es, p.step? w st .refused = some (st', es) ∧ st'.isStopped ∧
      Effect.acknowledgements es = [] := by
  obtain ⟨phase, backoff⟩ := st
  cases phase with
  | delivering s m' id =>
      have hstep : p.step? w ⟨.delivering s m' id, backoff⟩ .refused =
          some (leave ⟨.delivering s m' id, backoff⟩ s.connection) := rfl
      refine ⟨_, _, hstep, rfl, acknowledgements_of_transit (p := p) ?_⟩
      cases step_of_step? hstep with
      | stop _ hes | away _ _ _ hes => exact hes
  | _ => simp [State.offer?] at h

/-- What a run owes to the packets of its connection. -/
structure Disciplined (p : Subscriber) (ms : List Move) (st : State) : Prop where
  /-- The messages that are to be acknowledged are those with an identifier. -/
  identified : ∀ m : Publish, .publish m ∈ received ms → (m.packetId = none ↔ m.qos = .atMostOnce)
  /-- What is written is what the packets ask for, in their order. -/
  replied : Replied ms st.phase
  /-- A message is acknowledged only when it has been handed over or dropped, or is known. -/
  earned : ∀ (front : List Move) (mv : Move) (back : List Move), ms = front ++ mv :: back →
    Effect.acknowledgements mv.effects ≠ [] → mv.Earns p front
  /-- A message that repeats a recorded identifier is not handed over. -/
  silent : ∀ (front : List Move) (mv : Move) (back : List Move) (m : Publish) (n : UInt16),
    ms = front ++ mv :: back → mv.received? = some (.publish m) → m.qos = .exactlyOnce →
    m.packetId = some n → recorded n (received (current front)) →
    ∀ m' : Message, mv.after.offer? ≠ some (.message m')
  /-- A message for which there is nobody is not acknowledged, and it is the last. -/
  abandoned : ∀ (m : Message) (w : Surroundings), st.offer? = some (.message m) →
    ∃ (st' : State) (es : List Effect), p.step? w st .refused = some (st', es) ∧
      Effect.acknowledgements es = [] ∧ st'.isStopped ∧
      ∀ (w' : Surroundings) (i : Input), p.step? w' st' i = none

/-- A message that has been received has an identifier if and only if it is to be acknowledged. -/
theorem packetId_eq_none_iff_of_mem {m : Publish} (h : .publish m ∈ received ms) :
    m.packetId = none ↔ m.qos = .atMostOnce := by
  obtain ⟨mv, -, hr⟩ := List.mem_filterMap.1 h
  obtain ⟨-, s, c, -, hreceive⟩ := received?_eq_some_iff.1 hr
  obtain ⟨rest, hdecode, -⟩ := Connection.exists_of_receive hreceive
  exact Publish.packetId_eq_none_iff hdecode

/-- **A run is disciplined.** -/
theorem Run.disciplined {shutdown : Bool} (h : Run p (p.start shutdown) ms st) :
    Disciplined p ms st where
  identified := fun _ => packetId_eq_none_iff_of_mem
  replied := h.replied
  earned := by
    rintro front mv back rfl hack
    obtain ⟨hrun, hs⟩ := h.split
    exact hrun.earns_of_step? hs hack
  silent := by
    rintro front mv back m n rfl hr hq hid hrec m'
    obtain ⟨hrun, hs⟩ := h.split
    exact hrun.offer?_ne_of_recorded hs hr hq hid hrec m'
  abandoned := by
    intro m w hm
    obtain ⟨st', es, hs, hstopped, hack⟩ := exists_step?_refused (p := p) hm w
    refine ⟨st', es, hs, hack, hstopped, fun w' i => ?_⟩
    cases hnext : p.step? w' st' i with
    | none => rfl
    | some r =>
        rw [isStopped_of_step? hnext] at hstopped
        cases hstopped

/-- What the broker sends is read. -/
def heard (frame : Bytes) : List Input := [.link (.arrived frame), .link .packet]

/-- A message that comes in twice is confirmed twice, and of two releases the second is told that
there is nothing to release. -/
theorem disciplined_repeated :
    ∃ ms st, Run sampler (sampler.start false) ms st ∧ Disciplined sampler ms st ∧
      Effect.acknowledgements (performed (current ms)) =
        [[0x50, 2, 0, 5], [0x50, 2, 0, 5], [0x70, 2, 0, 5], [0x70, 3, 0, 5, 0x92]] := by
  have hfacts : (sampler.play? (timed 0 (resumed false ++ .taken :: heard (sample true) ++
      heard [0x62, 2, 0, 5] ++ heard [0x62, 2, 0, 5])) [] (sampler.start false)).map
        (fun (ms, _) => Effect.acknowledgements (performed (current ms))) =
      some [[0x50, 2, 0, 5], [0x50, 2, 0, 5], [0x70, 2, 0, 5], [0x70, 3, 0, 5, 0x92]] := by
    decide +kernel
  obtain ⟨⟨ms, st⟩, hplay, hack⟩ := Option.map_eq_some_iff.1 hfacts
  have hrun := Run.nil.of_play? hplay
  exact ⟨ms, st, hrun, hrun.disciplined, hack⟩

end Subscriber

end TopicBridge
