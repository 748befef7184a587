/-
**A publisher respects what its broker allows.**

The packet with which a broker accepts a connection names what it allows: the highest quality of
service, whether messages may be retained, and how large a packet may be.  Whatever comes out of the
queue and whatever the broker does afterwards, nothing that is written on the connection goes beyond
that.  A message whose packet is too large costs nothing but itself.

Main definitions:

* `ConnAck.maximumQoS` — the highest quality of service that a broker allows;
* `Publisher.marks` — what the relay adds to the user properties of a message;
* `Publisher.Carries` — the packets in which a message may be published on some terms;
* `Publisher.Respects` — what a move on a connection owes to the terms of the connection.

Main results:

* `Publish.exists_encode_of_packetId` — a message has its length whatever its identifier;
* `Run.exists_acceptance` — a connection has the limits of the broker's latest acceptance;
* `Run.respects` — **every move on a connection respects the terms of the connection**.
-/

import TopicBridge.Proofs.Session.Publications
import TopicBridge.Proofs.Session.PublisherRun

set_option autoImplicit false

namespace TopicBridge

open Mqtt

/-! ### The terms of a connection -/

/-- The highest quality of service that a broker allows.  If it names none, or something that is no
level, it allows all. -/
def Mqtt.ConnAck.maximumQoS (a : ConnAck) : QoS :=
  match a.properties.maximumQoS with
  | some 0 => .atMostOnce
  | some 1 => .atLeastOnce
  | _ => .exactlyOnce

theorem ServerLimits.maximumQoS_ofConnAck (a : ConnAck) :
    (ofConnAck a.properties).maximumQoS = a.maximumQoS := by
  unfold ofConnAck ConnAck.maximumQoS
  cases h : a.properties.maximumQoS with
  | none => rfl
  | some q =>
      simp only [Option.bind_some]
      split
      · next hq =>
          obtain rfl := Option.some.inj hq
          rfl
      · next hq =>
          obtain rfl := Option.some.inj hq
          rfl
      · next hzero hone =>
          have hzero' : q.toNat ≠ 0 := fun hq => hzero (congrArg some (UInt8.toNat_inj.1 hq))
          have hone' : q.toNat ≠ 1 := fun hq => hone (congrArg some (UInt8.toNat_inj.1 hq))
          unfold QoS.ofNat?
          split <;> simp_all

/-! ### Identifiers and lengths -/

/-- A message has a written form, and its length, whatever its identifier. -/
theorem Mqtt.Publish.exists_encode_of_packetId {p : Publish} {bytes : Bytes}
    (h : p.encode = .ok bytes) (id : Option UInt16) :
    ∃ bytes', { p with packetId := id }.encode = .ok bytes' ∧ bytes'.length = bytes.length := by
  obtain ⟨header, topic, properties, hheader, htopic, hproperties, rfl⟩ :=
    Publish.encode_eq_ok_iff.1 h
  refine ⟨_, Publish.encode_eq_ok_iff.2
    ⟨header, topic, properties, hheader, htopic, hproperties, rfl⟩, ?_⟩
  simp only [List.length_append, Publish.length_idField]

namespace Publisher

variable {p : Publisher} {answer : ConnAck} {m : Message} {q : Publish} {s : Pumping}

/-! ### The packet of a message -/

/-- What the relay adds to the user properties of a message: its name, if it is to mark its
messages. -/
def marks (p : Publisher) : List (String × String) :=
  (p.relayId.map fun relay => (Message.originKey, relay)).toList

/-- The packets in which a message may be published on the terms of a broker. -/
structure Carries (p : Publisher) (answer : ConnAck) (m : Message) (q : Publish) : Prop where
  dup : q.dup = false
  qos : q.qos = min m.qos answer.maximumQoS
  retain : q.retain = true ↔ m.retain = true ∧ answer.properties.retainAvailable ≠ some 0
  /-- There is an identifier exactly if the message is to be acknowledged. -/
  packetId : q.packetId = none ↔ q.qos = .atMostOnce
  packetId_ne : q.packetId ≠ some 0
  topic : q.topic = m.topic
  payload : q.payload = m.payload
  properties : q.properties =
    { m.properties with userProperties := m.properties.userProperties ++ p.marks }

theorem number_ne_zero (h : min m.qos s.connection.limits.maximumQoS ≠ .atMostOnce) :
    (s.number m).1 ≠ 0 := by
  rw [Pumping.number_of_ne h]
  exact s.connection.allocateId_ne_zero

/-- A message is published in such a packet. -/
theorem carries_publish (hl : s.connection.limits = .ofConnAck answer.properties) :
    p.Carries answer m (p.publish s.connection.limits m (s.number m).1) where
  dup := rfl
  qos := by rw [← ServerLimits.maximumQoS_ofConnAck, ← hl, publish]
  retain := by simp [publish, hl, ServerLimits.ofConnAck]
  packetId := by simp [publish]
  packetId_ne := by
    simp only [publish]
    split_ifs with hq
    · exact (Option.some_ne_none 0).symm
    · exact fun hid => number_ne_zero hq (Option.some.inj hid)
  topic := rfl
  payload := rfl
  properties := rfl

/-- Such packets differ in nothing but the identifier. -/
theorem Carries.eq_publish (h : p.Carries answer m q) (id : UInt16) :
    p.publish (.ofConnAck answer.properties) m id =
      { q with packetId := (p.publish (.ofConnAck answer.properties) m id).packetId } := by
  obtain ⟨hdup, hqos, hretain, -, -, htopic, hpayload, hproperties⟩ := h
  have hretain' : q.retain =
      (m.retain && (ServerLimits.ofConnAck answer.properties).retainAvailable) := by
    rw [Bool.eq_iff_iff, hretain]
    simp [ServerLimits.ofConnAck]
  rw [← ServerLimits.maximumQoS_ofConnAck] at hqos
  simp only [publish, hdup, hqos, hretain', htopic, hpayload, hproperties, marks]

/-- If one of them has a written form, the packet that is sent has one of the same length. -/
theorem Carries.exists_encode (h : p.Carries answer m q)
    (hl : s.connection.limits = .ofConnAck answer.properties) {bytes : Bytes}
    (he : q.encode = .ok bytes) :
    ∃ bytes', (s.packet p m).encode = .ok bytes' ∧ bytes'.length = bytes.length := by
  rw [Pumping.packet, Packet.encode, hl, h.eq_publish]
  exact Publish.exists_encode_of_packetId he _

/-! ### Moves on a connection -/

/-- What a move on a connection owes to the terms on which the broker has accepted it. -/
structure Respects (p : Publisher) (answer : ConnAck) (mv : Move) : Prop where
  /-- No packet is larger than the broker allows. -/
  fits : ∀ bytes ∈ Effect.written mv.effects, ∀ limit,
    answer.properties.maximumPacketSize = some limit → bytes.length ≤ limit.toNat
  /-- Nothing is published but the message that has just been taken, as the broker allows it. -/
  published : ∀ bytes ∈ Effect.publications mv.effects, ∃ m q,
    mv.input = .next m ∧ p.Carries answer m q ∧ q.encode = .ok bytes
  /-- A message whose packet is too large is counted as failed, nothing is written, and the
  connection stays as it is, except that an identifier may have been used up. -/
  oversized : ∀ m q bytes limit, mv.input = .next m → p.Carries answer m q →
    q.encode = .ok bytes → answer.properties.maximumPacketSize = some limit →
    limit.toNat < bytes.length → mv.effects = [p.failed] ∧
      ∃ s s', mv.before.phase = .pumping s ∧ mv.after.phase = .pumping s' ∧
        (s'.connection = s.connection ∨ s'.connection = s.connection.allocateId.2)
  /-- A message whose packet fits is published as long as the stream works. -/
  sent : ∀ m q bytes, mv.input = .next m → p.Carries answer m q → q.encode = .ok bytes →
    (∀ limit, answer.properties.maximumPacketSize = some limit → bytes.length ≤ limit.toNat) →
    ∃ s, mv.before.phase = .pumping s ∧
      (s.connection.fault = none → ∃ frame, Effect.publications mv.effects = [frame])

variable {w : Surroundings} {a b : Phase} {i : Input} {es : List Effect} {mv : Move}

theorem admits_iff_of_limits (hl : s.connection.limits = .ofConnAck answer.properties)
    {size : Nat} : Connection.admits s.connection.limits size ↔
      ∀ limit, answer.properties.maximumPacketSize = some limit → size ≤ limit.toNat := by
  rw [hl]
  exact Connection.admits_iff

theorem connection?_of_held? (h : a.held? = some s) : a.connection? = some s.connection := by
  cases a <;> cases h <;> rfl

/-- The connection after a message that has been refused for its size. -/
theorem number_connection (s : Pumping) (m : Message) :
    (s.number m).2 = s.connection ∨ (s.number m).2 = s.connection.allocateId.2 := by
  unfold Pumping.number
  split_ifs
  · exact .inl rfl
  · exact .inr rfl

/-- A message is taken only if none is in flight. -/
theorem eq_pumping_of_next (h : p.Step w a (.next m) b es) (hs : a.held? = some s) :
    a = .pumping s := by
  cases h <;> exact congrArg Phase.pumping (Option.some.inj hs)

/-- What becomes of a message whose packet is larger than the broker allows. -/
theorem refused_of_step (h : p.Step w (.pumping s) (.next m) b es) {bytes : Bytes}
    (hencode : (s.packet p m).encode = .ok bytes)
    (hfit : ¬Connection.admits s.connection.limits bytes.length) :
    es = [p.failed] ∧ b = .pumping ⟨(s.number m).2, s.keepAlive.answered⟩ := by
  cases h with
  | oversized => exact ⟨rfl, rfl⟩
  | unsent _ hs => exact absurd (hs _ hencode).1 hfit
  | published hq hs hfit' =>
      rw [Pumping.packet_of_eq hq] at hencode
      cases hs.symm.trans hencode
      exact absurd hfit' hfit
  | sent hf hq hs hfit' =>
      subst hf
      rw [Pumping.packet_of_ne hq] at hencode
      cases hs.symm.trans hencode
      exact absurd hfit' hfit

/-- What becomes of a message whose packet the broker allows, while the stream works. -/
theorem written_of_step (h : p.Step w (.pumping s) (.next m) b es) {bytes : Bytes}
    (hencode : (s.packet p m).encode = .ok bytes)
    (hfit : Connection.admits s.connection.limits bytes.length)
    (hfault : s.connection.fault = none) : Effect.written es = [bytes] := by
  cases h with
  | oversized hs hfit' =>
      cases hs.symm.trans hencode
      exact absurd hfit (by simp [hfit'])
  | unsent _ hs => exact absurd hfault (hs _ hencode).2
  | published hq hs =>
      rw [Pumping.packet_of_eq hq] at hencode
      cases hs.symm.trans hencode
      rfl
  | sent hf hq hs =>
      subst hf
      rw [Pumping.packet_of_ne hq] at hencode
      cases hs.symm.trans hencode
      rfl

/-- Every move on a connection with the limits of an acceptance respects its terms. -/
theorem respects_of_step (hl : s.connection.limits = .ofConnAck answer.properties)
    (hs : mv.before.phase.held? = some s)
    (h : p.Step mv.world mv.before.phase mv.input mv.after.phase mv.effects) :
    p.Respects answer mv := by
  have hframe := frame_of_step h
  constructor
  case fits =>
    intro bytes hbytes
    rcases hframe with hnone | ⟨packet, frame, hwritten, hwrites⟩
    · simp [hnone] at hbytes
    · rw [hwritten, List.mem_singleton] at hbytes
      exact hbytes ▸ (admits_iff_of_limits hl).1 (hwrites.admits _ (connection?_of_held? hs))
  case published =>
    intro bytes hbytes
    rcases hframe with hnone | ⟨packet, frame, hwritten, hsends, hencode, -⟩
    · simp [Effect.publications, hnone] at hbytes
    · rw [publications_of_written hwritten hencode] at hbytes
      generalize mv.before.phase = a, hi : mv.input = i at hs hsends
      cases hsends with
      | message =>
          obtain rfl := List.mem_singleton.1 hbytes
          obtain rfl := Option.some.inj hs
          rw [Pumping.packet, Packet.encode] at hencode
          exact ⟨_, _, rfl, carries_publish hl, hencode⟩
      | greeting | question | release | farewell => cases hbytes
  case oversized =>
    intro m q bytes limit hi hq hencode hlimit hlarge
    obtain ⟨bytes', hencode', hlen⟩ := hq.exists_encode hl hencode
    rw [hi] at h
    have hphase := eq_pumping_of_next h hs
    rw [hphase] at h
    have hrefused : ¬Connection.admits s.connection.limits bytes'.length := by
      rw [admits_iff_of_limits hl]
      intro hfits
      have := hfits limit hlimit
      omega
    obtain ⟨hes, hafter⟩ := refused_of_step h hencode' hrefused
    exact ⟨hes, s, _, hphase, hafter, number_connection s m⟩
  case sent =>
    intro m q bytes hi hq hencode hfits
    obtain ⟨bytes', hencode', hlen⟩ := hq.exists_encode hl hencode
    rw [hi] at h
    have hphase := eq_pumping_of_next h hs
    rw [hphase] at h
    refine ⟨s, hphase, fun hfault => ⟨bytes', ?_⟩⟩
    have hfit := (admits_iff_of_limits hl).2 (hlen ▸ hfits)
    exact publications_of_written (written_of_step h hencode' hfit hfault) hencode'

/-! ### Runs -/

/-- A connection has the limits of the broker's latest acceptance. -/
theorem Run.exists_acceptance {ms : List Move} {st : State} (h : Run p p.start ms st)
    (hs : st.phase.held? = some s) :
    ∃ answer, acceptance ms = some answer ∧
      s.connection.limits = .ofConnAck answer.properties := by
  let Inv (ms : List Move) (a : Phase) : Prop := ∀ s, a.held? = some s →
    ∃ answer, acceptance ms = some answer ∧ s.connection.limits = .ofConnAck answer.properties
  have hinv : Inv ms st.phase := by
    refine h.induction Inv ?start ?step
    case start =>
      rintro s ⟨⟩
    case step =>
      intro ms mv ih hstep s hs
      cases holds_of_step hstep hs with
      | accepted ha hl => exact ⟨_, acceptance_concat_of_some ha, hl⟩
      | kept hs₀ hl | asked hs₀ hl | answered hs₀ hl =>
          rw [acceptance_concat_of_none (accepted?_of_held? hs₀), hl]
          exact ih _ hs₀
  exact hinv s hs

/-- **Every move on a connection respects the terms of the connection**, which are those of the
broker's latest acceptance. -/
theorem Run.respects {front back : List Move} {st : State}
    (h : Run p p.start (front ++ mv :: back) st) (hs : mv.before.phase.held? = some s) :
    ∃ answer, acceptance front = some answer ∧ p.Respects answer mv := by
  obtain ⟨hrun, hstep⟩ := h.split
  obtain ⟨answer, hanswer, hl⟩ := hrun.exists_acceptance hs
  exact ⟨answer, hanswer, respects_of_step hl hs (step_of_step? hstep)⟩

/-- A publisher that marks its messages. -/
def marker : Publisher where
  settings := {
    name := "forward/pub"
    clientId := "edge"
    username := none
    password := none
    keepAlive := 10
    connectTimeout := 10000
    reconnectMin := 1000
    reconnectMax := 60000
    maxPacketSize := 65536 }
  flow := .forward
  relayId := some "edge"
  ackTimeout := 5000

/-- A broker that allows at most the quality of service 1, no retained messages, and packets of at
most 48 bytes. -/
def narrowTerms : ConnAck where
  sessionPresent := false
  reasonCode := .success
  properties := { maximumQoS := some 1, retainAvailable := some 0, maximumPacketSize := some 48 }

/-- A message under the topic `t`. -/
def parcel (qos : QoS) (size : Nat) : Message := ⟨"t", List.replicate size 0, qos, true, {}⟩

/-- The broker accepts the connection on these terms, and a message is published and acknowledged. -/
def narrowScript : List (Millis × Input) :=
  [.link .timeUp, .link .opened,
    .link (.arrived [0x20, 12, 0, 0, 9, 0x24, 1, 0x25, 0, 0x27, 0, 0, 0, 48]), .link .packet,
    .next (parcel .exactlyOnce 1), .link (.arrived [0x40, 2, 0, 1]), .link .packet].map (0, ·)

/-- A message of quality of service 2 that is to be retained is published with quality of service 1
and not retained.  The next one is too large: nothing is written, and the connection stays. -/
theorem respects_narrow :
    ∃ front mv st, Run marker marker.start (front ++ mv :: []) st ∧
      mv.before.phase.held?.isSome ∧ acceptance front = some narrowTerms ∧
      marker.Respects narrowTerms mv ∧ mv.input = .next (parcel .atMostOnce 20) ∧
      (front.flatMap fun mv => Effect.publications mv.effects).map (fun bytes => bytes.take 5) =
        [[0x32, 32, 0, 1, 0x74]] ∧
      Effect.written mv.effects = [] ∧ mv.after.phase.held?.isSome := by
  have hfacts : ((marker.play? narrowScript [] marker.start).bind fun (front, st) =>
      (marker.step? ⟨0, false⟩ false st (.next (parcel .atMostOnce 20))).map fun (st', es) =>
        (st.phase.held?.isSome && st'.phase.held?.isSome && (Effect.written es).isEmpty,
          acceptance front,
          (front.flatMap fun mv => Effect.publications mv.effects).map fun bytes =>
            bytes.take 5)) =
      some (true, some narrowTerms, [[0x32, 32, 0, 1, 0x74]]) := by decide +kernel
  obtain ⟨⟨front, st⟩, hplay, hnext⟩ := Option.bind_eq_some_iff.1 hfacts
  obtain ⟨⟨st', es⟩, hstep, hvalues⟩ := Option.map_eq_some_iff.1 hnext
  simp only [Prod.mk.injEq, Bool.and_eq_true, List.isEmpty_iff] at hvalues
  obtain ⟨⟨⟨hheld, hafter⟩, hwritten⟩, haccepted, hpublished⟩ := hvalues
  let mv : Move := ⟨⟨0, false⟩, false, st, .next (parcel .atMostOnce 20), st', es⟩
  have hrun : Run marker marker.start (front ++ mv :: []) st' :=
    @Run.snoc _ _ _ mv (Run.nil.of_play? hplay) hstep
  obtain ⟨s, hs⟩ := Option.isSome_iff_exists.1 hheld
  obtain ⟨answer, hanswer, hrespects⟩ := @Run.respects _ _ mv _ _ _ hrun hs
  obtain rfl := Option.some.inj (haccepted.symm.trans hanswer)
  exact ⟨front, mv, st', hrun, hheld, haccepted, hrespects, rfl, hpublished, hwritten, hafter⟩

end Publisher

end TopicBridge
