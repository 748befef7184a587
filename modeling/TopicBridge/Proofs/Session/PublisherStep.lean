/-
**What a step of a publisher can be.**

`Publisher.step?` is written by cases on the input and, inside, on the phase.  What is proved about
publishers is proved by cases on what happens: a message is sent, an acknowledgement comes in, the
connection is lost.  This module lists these cases once, with all that is known in each, and derives
them from `Publisher.step?`.

The cases show what a message costs.  It is counted once, as published or as failed, either when it
is sent or when its exchange comes to an end; as long as it awaits its acknowledgement nothing else
is published, and such an exchange ends by the final acknowledgement or with the connection.

Main definitions:

* `Publisher.Phase.isAway` — the phases in which there is no connection;
* `Publisher.Phase.inFlight?` — the message that awaits its acknowledgement;
* `Publisher.Pumping.number` — the identifier that a message uses up;
* `Publisher.Step` — the cases.

Main results:

* `Publisher.step_of_sendMessage` — what becomes of a message that is taken;
* `Publisher.step_of_step?` — **every step is one of the cases**.
-/

import TopicBridge.Proofs.Session.Sending
import TopicBridge.Session.Publisher

set_option autoImplicit false

namespace TopicBridge

open Mqtt

namespace Publisher

/-! ### The cases -/

/-- Whether there is no connection in a phase. -/
def Phase.isAway : Phase → Bool
  | .starting | .opening _ | .resting _ _ | .closed => true
  | _ => false

/-- The message that awaits its acknowledgement. -/
def Phase.inFlight? : Phase → Option InFlight
  | .settling _ f => some f
  | _ => none

theorem inFlight?_of_isAway {a : Phase} (h : a.isAway) : a.inFlight? = none := by
  cases a with
  | settling => cases h
  | _ => rfl

theorem inFlight?_of_update? {a b : Phase} {f : Connection → Connection}
    (h : a.update? f = some b) : b.inFlight? = a.inFlight? := by
  cases a with
  | greeting | pumping | settling =>
      cases h
      rfl
  | _ => cases h

/-- The message that an input brings. -/
def Input.message? : Input → Option Message
  | .next m => some m
  | _ => none

/-- The identifier under which a message is sent, and what is left of the connection: a message that
asks for no acknowledgement uses up none. -/
def Pumping.number (s : Pumping) (m : Message) : UInt16 × Connection :=
  if min m.qos s.connection.limits.maximumQoS = .atMostOnce then (0, s.connection)
  else s.connection.allocateId

/-- The packet as which a message is sent. -/
def Pumping.packet (p : Publisher) (s : Pumping) (m : Message) : Packet :=
  .publish (p.publish s.connection.limits m (s.number m).1)

/-- What is done when the broker's acceptance has come to nothing. -/
def hangingUp : List Effect := [.count .sessionDisconnected, .hangUp]

/-- What a step can be: the phase before, the input, the phase after, and what is done. -/
inductive Step (p : Publisher) (w : Surroundings) : Phase → Input → Phase → List Effect → Prop where
  /-- There is no connection yet, nor is there one now. -/
  | away {a b : Phase} {i : LinkInput} {es : List Effect} (ha : a.isAway) (hb : b.isAway)
      (hes : ∀ e ∈ es, e = .dial ∨ e = .hangUp ∨
        e = .count (.counted .sessionReconnects p.settings.name)) :
      Step p w a (.link i) b es
  | opened {deadline limit : Millis} {c : Connection} {bytes : Bytes}
      (hc : Connection.begin (p.settings.connect true none) = .ok (c, bytes)) :
      Step p w (.opening deadline) (.link .opened) (.greeting c limit) [.write bytes]
  /-- The stream has something to read, or an end. -/
  | heard {a b : Phase} {i : LinkInput} {f : Connection → Connection}
      (hf : ∀ c, (f c).limits = c.limits ∧ (f c).nextId = c.nextId) (hi : i ≠ .packet)
      (hb : a.update? f = some b) : Step p w a (.link i) b []
  /-- The broker does not accept the connection. -/
  | unwelcome {c : Connection} {limit : Millis} {i : LinkInput} {b : Phase} (hb : b.isAway) :
      Step p w (.greeting c limit) (.link i) b [.hangUp]
  | accepted {c c₁ c₂ : Connection} {limit : Millis} {packet : Packet} {answer : ConnAck}
      {k : KeepAlive} (hr : c.receive = .ok (some (packet, c₁)))
      (hg : c₁.greet packet = .ok (c₂, answer))
      (hk : k = .start (answer.properties.serverKeepAlive.getD p.settings.keepAlive) w.now) :
      Step p w (.greeting c limit) (.link .packet) (.pumping ⟨c₂, k⟩) [.count .sessionConnected]
  /-- A packet that no message waits for. -/
  | ignored {s : Pumping} {c : Connection} {packet : Packet} {k : KeepAlive}
      (hr : s.connection.receive = .ok (some (packet, c)))
      (hk : k = if packet = .pingResp then s.keepAlive.answered else s.keepAlive) :
      Step p w (.pumping s) (.link .packet) (.pumping ⟨c, k⟩) []
  | pinged {s : Pumping} {k : KeepAlive} {bytes : Bytes} (hk : s.keepAlive.tick? w.now = some k)
      (hs : s.connection.send .pingReq = .ok bytes) :
      Step p w (.pumping s) (.link .ping) (.pumping { s with keepAlive := k }) [.write bytes]
  /-- The connection is lost while no message is in flight. -/
  | lost {s : Pumping} {i : LinkInput} {b : Phase} (hb : b.isAway) :
      Step p w (.pumping s) (.link i) b hangingUp
  /-- There is no message and there will be none. -/
  | left {s : Pumping} :
      Step p w (.pumping s) .drained .closed
        (.count .sessionDisconnected :: (s.connection.farewell.map Effect.write).toList ++
          [.hangUp])
  /-- A message is larger than the broker allows. -/
  | oversized {s : Pumping} {m : Message} {bytes : Bytes} (hs : (s.packet p m).encode = .ok bytes)
      (hfit : Connection.admits s.connection.limits bytes.length = false) :
      Step p w (.pumping s) (.next m) (.pumping ⟨(s.number m).2, s.keepAlive.answered⟩) [p.failed]
  /-- A message cannot be sent, because it has no written form or because the stream has failed,
  which costs the connection. -/
  | unsent {s : Pumping} {m : Message} {b : Phase} (hb : b.isAway)
      (hs : ∀ bytes, (s.packet p m).encode = .ok bytes →
        Connection.admits s.connection.limits bytes.length ∧ s.connection.fault ≠ none) :
      Step p w (.pumping s) (.next m) b (p.failed :: hangingUp)
  /-- A message is sent that asks for no acknowledgement. -/
  | published {s : Pumping} {m : Message} {bytes : Bytes}
      (hq : min m.qos s.connection.limits.maximumQoS = .atMostOnce)
      (hs : (Packet.publish (p.publish s.connection.limits m 0)).encode = .ok bytes)
      (hfit : Connection.admits s.connection.limits bytes.length) :
      Step p w (.pumping s) (.next m) (.pumping ⟨s.connection, s.keepAlive.answered⟩)
        [.write bytes, p.forwarded 0]
  /-- A message is sent, and now awaits its acknowledgement. -/
  | sent {s : Pumping} {m : Message} {bytes : Bytes} {f : InFlight}
      (hf : f = ⟨s.connection.nextId, min m.qos s.connection.limits.maximumQoS, w.now,
        w.now + p.ackTimeout⟩) (hq : f.qos ≠ .atMostOnce)
      (hs : (Packet.publish (p.publish s.connection.limits m f.id)).encode = .ok bytes)
      (hfit : Connection.admits s.connection.limits bytes.length) :
      Step p w (.pumping s) (.next m) (.settling ⟨s.connection.allocateId.2, s.keepAlive⟩ f)
        [.write bytes]
  /-- A packet that says nothing about the message in flight. -/
  | waited {s : Pumping} {f : InFlight} {c : Connection} {packet : Packet}
      (hr : s.connection.receive = .ok (some (packet, c))) (hp : f.progress packet = .unchanged) :
      Step p w (.settling s f) (.link .packet) (.settling { s with connection := c } f) []
  /-- The broker has the message, and is told to release it. -/
  | released {s : Pumping} {f : InFlight} {c : Connection} {packet : Packet} {bytes : Bytes}
      (hr : s.connection.receive = .ok (some (packet, c))) (hp : f.progress packet = .received)
      (hs : c.send (.pubRel ⟨f.id, .success⟩) = .ok bytes) :
      Step p w (.settling s f) (.link .packet) (.settling { s with connection := c } f)
        [.write bytes]
  /-- The final acknowledgement. -/
  | settled {s : Pumping} {f : InFlight} {c : Connection} {packet : Packet} {code : ReasonCode}
      (hr : s.connection.receive = .ok (some (packet, c)))
      (hp : f.progress packet = .settled code) :
      Step p w (.settling s f) (.link .packet) (.pumping ⟨c, s.keepAlive.answered⟩)
        [if code.isSuccess then p.forwarded (w.now - f.since) else p.failed]
  /-- The connection is lost while a message is in flight. -/
  | failed {s : Pumping} {f : InFlight} {i : LinkInput} {b : Phase} (hb : b.isAway) :
      Step p w (.settling s f) (.link i) b (p.failed :: hangingUp)

variable {p : Publisher} {w : Surroundings} {st st' : State} {s : Pumping} {es : List Effect}

/-! ### Losing a connection -/

/-- The publisher waits before it connects again, or has come to its end. -/
theorem rest_cases {effects : List Effect} {e : SessionError}
    (h : rest w st effects e = (st', es)) :
    st'.phase.isAway ∧ es = effects := by
  unfold rest at h
  split at h
  all_goals
    obtain ⟨rfl, rfl⟩ := Prod.mk.inj h
    exact ⟨rfl, rfl⟩

theorem drop_cases {before : List Effect} {e : SessionError} (h : drop w st before e = (st', es)) :
    st'.phase.isAway ∧ es = before ++ hangingUp :=
  rest_cases h

theorem connect_cases {drained : Bool} {before : List Effect}
    (h : p.connect w drained st before = (st', es)) :
    st'.phase.isAway ∧ (es = before ∨ es = before ++ [.dial]) := by
  unfold connect at h
  split_ifs at h
  all_goals
    obtain ⟨rfl, rfl⟩ := Prod.mk.inj h
    simp [Phase.isAway]

/-! ### Messages -/

theorem Pumping.number_of_eq {m : Message}
    (h : min m.qos s.connection.limits.maximumQoS = .atMostOnce) :
    s.number m = (0, s.connection) :=
  if_pos h

theorem Pumping.number_of_ne {m : Message}
    (h : min m.qos s.connection.limits.maximumQoS ≠ .atMostOnce) :
    s.number m = s.connection.allocateId :=
  if_neg h

/-- What becomes of a message that is taken, from what becomes of its packet. -/
theorem step_of_sendMessage {m : Message} (h : p.sendMessage w st s m = (st', es)) :
    Step p w (.pumping s) (.next m) st'.phase es := by
  -- giving out an identifier changes neither the limits nor the stream
  have hnumber : (s.number m).2.limits = s.connection.limits ∧
      (s.number m).2.fault = s.connection.fault := by
    unfold Pumping.number
    split_ifs <;> exact ⟨rfl, rfl⟩
  have hsend : (s.number m).2.send (.publish (p.publish (s.number m).2.limits m (s.number m).1)) =
      (s.number m).2.send (s.packet p m) := by
    rw [hnumber.1]
    rfl
  unfold sendMessage at h
  dsimp only at h
  rw [← Pumping.number, hsend] at h
  split at h
  · rename_i hlarge
    obtain ⟨rfl, rfl⟩ := Prod.mk.inj h
    obtain ⟨bytes, hencode, hfit⟩ := Connection.exists_of_send_eq_packetTooLarge hlarge
    exact .oversized hencode (hnumber.1 ▸ hfit)
  · rename_i e hnot herror
    obtain ⟨haway, rfl⟩ := drop_cases h
    refine .unsent haway fun bytes hencode => ?_
    rw [Connection.send_of_encode hencode, hnumber.1, hnumber.2] at herror
    split_ifs at herror with hfit
    · refine ⟨hfit, fun hfault => ?_⟩
      rw [hfault] at herror
      cases herror
    · exact absurd (Except.error.inj herror).symm (hnot _ _)
  · rename_i bytes hok
    have hfit := hnumber.1 ▸ Connection.admits_of_send hok
    have hencode := Connection.encode_of_send hok
    split_ifs at h with hq
    · obtain ⟨rfl, rfl⟩ := Prod.mk.inj h
      rw [Pumping.packet, Pumping.number_of_eq hq] at hencode
      rw [Pumping.number_of_eq hq]
      exact .published hq hencode hfit
    · obtain ⟨rfl, rfl⟩ := Prod.mk.inj h
      rw [Pumping.packet, Pumping.number_of_ne hq] at hencode
      rw [Pumping.number_of_ne hq]
      exact .sent rfl hq hencode hfit

/-! ### Packets -/

theorem step_of_greeted? {c : Connection} {limit : Millis}
    (h : p.greeted? w st c = some (st', es)) :
    Step p w (.greeting c limit) (.link .packet) st'.phase es := by
  unfold greeted? at h
  split at h
  · obtain ⟨haway, rfl⟩ := rest_cases (Option.some.inj h)
    exact .unwelcome haway
  · cases h
  · rename_i packet c₁ hr
    split at h
    · obtain ⟨haway, rfl⟩ := rest_cases (Option.some.inj h)
      exact .unwelcome haway
    · rename_i c₂ answer hg
      obtain ⟨rfl, rfl⟩ := Prod.mk.inj (Option.some.inj h)
      exact .accepted hr hg rfl

theorem step_of_idlePacket? (h : idlePacket? w st s = some (st', es)) :
    Step p w (.pumping s) (.link .packet) st'.phase es := by
  unfold idlePacket? at h
  split at h
  · obtain ⟨haway, rfl⟩ := drop_cases (Option.some.inj h)
    exact .lost haway
  · cases h
  · rename_i packet c hr
    dsimp only at h
    split at h
    · obtain ⟨rfl, rfl⟩ := Prod.mk.inj (Option.some.inj h)
      exact .ignored hr rfl
    · obtain ⟨haway, rfl⟩ := drop_cases (Option.some.inj h)
      exact .lost haway
    · rename_i hne _
      obtain ⟨rfl, rfl⟩ := Prod.mk.inj (Option.some.inj h)
      exact .ignored hr (if_neg hne).symm

theorem step_of_ackPacket? {f : InFlight} (h : p.ackPacket? w st s f = some (st', es)) :
    Step p w (.settling s f) (.link .packet) st'.phase es := by
  unfold ackPacket? at h
  split at h
  · obtain ⟨haway, rfl⟩ := drop_cases (Option.some.inj h)
    exact .failed haway
  · cases h
  · rename_i packet c hr
    dsimp only at h
    split at h
    · rename_i hp
      obtain ⟨rfl, rfl⟩ := Prod.mk.inj (Option.some.inj h)
      exact .waited hr hp
    · obtain ⟨haway, rfl⟩ := drop_cases (Option.some.inj h)
      exact .failed haway
    · rename_i hp
      obtain ⟨rfl, rfl⟩ := Prod.mk.inj (Option.some.inj h)
      exact .settled hr hp
    · rename_i hp
      split at h
      · obtain ⟨haway, rfl⟩ := drop_cases (Option.some.inj h)
        exact .failed haway
      · rename_i hs
        obtain ⟨rfl, rfl⟩ := Prod.mk.inj (Option.some.inj h)
        exact .released hr hp hs

/-! ### Inputs -/

theorem step_of_update? {i : LinkInput} {f : Connection → Connection}
    (h : (st.phase.update? f).map (fun phase => ({ st with phase }, [])) = some (st', es))
    (hf : ∀ c, (f c).limits = c.limits ∧ (f c).nextId = c.nextId) (hi : i ≠ .packet) :
    Step p w st.phase (.link i) st'.phase es := by
  obtain ⟨b, hb, hpair⟩ := Option.map_eq_some_iff.1 h
  obtain ⟨rfl, rfl⟩ := Prod.mk.inj hpair
  exact .heard hf hi hb

theorem step_of_openedAt {deadline : Millis} (h : p.openedAt w st = (st', es)) :
    Step p w (.opening deadline) (.link .opened) st'.phase es := by
  unfold openedAt at h
  split at h
  · obtain ⟨haway, rfl⟩ := rest_cases h
    exact .away rfl haway (by simp)
  · rename_i hc
    obtain ⟨rfl, rfl⟩ := Prod.mk.inj h
    exact .opened hc

theorem step_of_pinged (h : pinged w st s = (st', es)) :
    Step p w (.pumping s) (.link .ping) st'.phase es := by
  unfold pinged at h
  split at h
  · obtain ⟨haway, rfl⟩ := drop_cases h
    exact .lost haway
  · rename_i hk
    split at h
    · obtain ⟨haway, rfl⟩ := drop_cases h
      exact .lost haway
    · rename_i hs
      obtain ⟨rfl, rfl⟩ := Prod.mk.inj h
      exact .pinged hk hs

theorem step_of_timeUp {drained : Bool} (h : p.link? w drained st .timeUp = some (st', es)) :
    Step p w st.phase (.link .timeUp) st'.phase es := by
  simp only [link?] at h
  split at h
  · rename_i hphase
    obtain ⟨haway, hes⟩ := connect_cases (Option.some.inj h)
    rw [hphase]
    exact .away rfl haway (by rcases hes with rfl | rfl <;> simp)
  · rename_i hphase
    split_ifs at h
    obtain ⟨haway, rfl⟩ := rest_cases (Option.some.inj h)
    rw [hphase]
    exact .away rfl haway (by simp)
  · rename_i hphase
    split_ifs at h
    obtain ⟨haway, rfl⟩ := rest_cases (Option.some.inj h)
    rw [hphase]
    exact .unwelcome haway
  · rename_i hphase
    split_ifs at h
    obtain ⟨haway, rfl⟩ := drop_cases (Option.some.inj h)
    rw [hphase]
    exact .failed haway
  · rename_i hphase
    split_ifs at h
    obtain ⟨haway, hes⟩ := connect_cases (Option.some.inj h)
    rw [hphase]
    exact .away rfl haway (by rcases hes with rfl | rfl <;> simp)
  · cases h

theorem step_of_link? {drained : Bool} {i : LinkInput}
    (h : p.link? w drained st i = some (st', es)) : Step p w st.phase (.link i) st'.phase es := by
  cases i with
  | arrived bytes => exact step_of_update? h (fun _ => ⟨rfl, rfl⟩) (by simp)
  | ended => exact step_of_update? h (fun _ => ⟨rfl, rfl⟩) (by simp)
  | failed cause => exact step_of_update? h (fun _ => ⟨rfl, rfl⟩) (by simp)
  | timeUp => exact step_of_timeUp h
  | opened =>
      simp only [link?] at h
      split at h
      · rename_i hphase
        rw [hphase]
        exact step_of_openedAt (Option.some.inj h)
      · cases h
  | notOpened e =>
      simp only [link?] at h
      split at h
      · rename_i hphase
        obtain ⟨haway, rfl⟩ := rest_cases (Option.some.inj h)
        rw [hphase]
        exact .away rfl haway (by simp)
      · cases h
  | packet =>
      simp only [link?] at h
      split at h
      · rename_i hphase
        rw [hphase]
        exact step_of_greeted? h
      · rename_i hphase
        rw [hphase]
        exact step_of_idlePacket? h
      · rename_i hphase
        rw [hphase]
        exact step_of_ackPacket? h
      · cases h
  | ping =>
      simp only [link?] at h
      split at h
      · rename_i hphase
        split_ifs at h
        rw [hphase]
        exact step_of_pinged (Option.some.inj h)
      · cases h
  | shutdown =>
      simp only [link?] at h
      split at h
      · rename_i hphase
        split_ifs at h
        obtain ⟨rfl, rfl⟩ := Prod.mk.inj (Option.some.inj h)
        rw [hphase]
        exact .away rfl rfl (by simp)
      · cases h

/-- **Every step of a publisher is one of the cases.** -/
theorem step_of_step? {drained : Bool} {i : Input} (h : p.step? w drained st i = some (st', es)) :
    Step p w st.phase i st'.phase es := by
  cases i with
  | next m =>
      simp only [step?] at h
      split at h
      · rename_i hphase
        rw [hphase]
        exact step_of_sendMessage (Option.some.inj h)
      · cases h
  | drained =>
      simp only [step?] at h
      split at h
      · rename_i hphase
        obtain ⟨rfl, rfl⟩ := Prod.mk.inj (Option.some.inj h)
        rw [hphase]
        exact .left
      · cases h
  | link i => exact step_of_link? h

end Publisher

end TopicBridge
