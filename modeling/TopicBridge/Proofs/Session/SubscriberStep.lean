/-
**What a step of a subscriber can be.**

`Subscriber.step?` is written by cases on the input and, inside, on the phase.  What is proved about
the runs of a subscriber is proved by cases on what happens: the broker accepts the connection, a
message comes in, a subscription is answered.  This module lists these cases once, with all that is
known in each, and derives them from `Subscriber.step?`.

What is written is known as the packet whose written form it is.  Where a connection is given up, and
on the way to the next one, nothing is written but subscriptions and the farewell; and it is not
given up for want of an answer unless the next question finds the last one open.

Main definitions:

* `Mqtt.SubAck.isGrant` — the broker grants a subscription;
* `Phase.isAway` — the phases in which there is no connection;
* `Serving.Knows` — a message has been handed over before and not been released;
* `Subscriber.receipt?` — the acknowledgement of a message;
* `Subscriber.Transit` — what may be done where a connection is given up;
* `Subscriber.Step` — the cases.

Main results:

* `Subscriber.acknowledge_eq_ok` — what an acknowledgement changes, and what is written;
* `Subscriber.step_of_onPacket` — what a packet does that does not cost the connection;
* `Subscriber.step_of_step?` — **every step is one of the cases**.
-/

import Mathlib.Tactic.ByContra
import TopicBridge.Proofs.Session.Frames
import TopicBridge.Proofs.Session.Sending
import TopicBridge.Session.Subscriber

set_option autoImplicit false

namespace TopicBridge

open Mqtt

/-- Whether the broker grants the subscription that it answers. -/
def Mqtt.SubAck.isGrant (a : SubAck) : Bool :=
  match a.reasonCodes.head? with
  | some code => code.isSuccess
  | none => false

namespace Subscriber

/-! ### The cases -/

/-- Whether there is no connection in a phase. -/
def Phase.isAway : Phase → Bool
  | .announcing | .opening _ | .losing _ | .resting _ | .stopped => true
  | _ => false

/-- A message has been handed over before and has not been released. -/
def Serving.Knows (s : Serving) (m : Publish) : Prop :=
  m.qos = .exactlyOnce ∧ ∃ id ∈ s.unreleased, m.packetId = some id

/-- What may have become of the stream of a connection when nothing has been read: bytes have come
in, or it has come to an end. -/
structure Hears (c c' : Connection) : Prop where
  decoder : c'.decoder = c.decoder
  inbound : ∃ bytes, c'.inbound = c.inbound ++ bytes
  ending : c'.ending = c.ending ∨ ∃ e, c'.ending = some e ∧ ∀ what, e ≠ .timeout what

/-- The acknowledgement of a message of a given quality of service. -/
def receipt? : QoS → Option UInt16 → Option Packet
  | .atLeastOnce, some id => some (.pubAck ⟨id, .success⟩)
  | .exactlyOnce, some id => some (.pubRec ⟨id, .success⟩)
  | _, _ => none

/-- What may be done where a connection is given up, and on the way to the next one. -/
inductive Transit (p : Subscriber) : Effect → Prop where
  | dial : Transit p .dial
  | hangUp : Transit p .hangUp
  | lost : Transit p (.count .sessionDisconnected)
  | again : Transit p (.count (.counted .sessionReconnects p.settings.name))
  /-- The acknowledgement of a message of the relay itself cannot be sent. -/
  | loopDropped : Transit p (.count .loopDropped)
  /-- Not all subscriptions can be sent. -/
  | subscription {q : Subscribe} {bytes : Bytes} (h : q.encode = .ok bytes) :
      Transit p (.write bytes)
  | farewell {bytes : Bytes} (h : (Packet.disconnect {}).encode = .ok bytes) :
      Transit p (.write bytes)

/-- What a step can be: the phase before, the input, the phase after, and what is done. -/
inductive Step (p : Subscriber) : Phase → Input → Phase → List Effect → Prop where
  /-- There is nobody to take an event, or everything is to stop. -/
  | stop {a : Phase} {i : Input} {es : List Effect} (hi : i = .refused ∨ i = .link .shutdown)
      (hes : ∀ e ∈ es, Transit p e) :
      Step p a i .stopped es
  /-- The connection is lost, or not there yet.  A message on offer has been taken before, and a
  message that has just come in would not have been offered. -/
  | away {a b : Phase} {i : Input} {es : List Effect} (hb : b.isAway)
      (ha : i = .taken ∨ ∀ s m id, a ≠ .delivering s m id)
      (hm : i = .link .packet → ∀ s m c, a = .serving s →
        s.connection.receive = .ok (some (.publish m, c)) → s.Knows m ∨ p.isOwn m)
      (hes : ∀ e ∈ es, Transit p e)
      (ht : ∀ c, a.connection? = some c → b = .losing (.timeout .pingResp) →
        c.ending = some (.timeout .pingResp) ∨
          i = .link .ping ∧ ∃ s, a = .serving s ∧ s.keepAlive.outstanding) :
      Step p a i b es
  | opened {deadline limit : Millis} {c : Connection} {bytes : Bytes} (hc : c.nextId = 1)
      (he : c.ending = none) (hs : ∃ q : Connect, q.encode = .ok bytes) :
      Step p (.opening deadline) (.link .opened) (.greeting c limit) [.write bytes]
  /-- The stream has something to read, or an end. -/
  | heard {a b : Phase} {i : LinkInput} {f : Connection → Connection}
      (hf : ∀ c, (f c).nextId = c.nextId) (hi : i ≠ .packet) (hb : a.update? f = some b)
      (hc : ∀ c, Hears c (f c)) :
      Step p a (.link i) b []
  | accepted {c c₁ c₂ : Connection} {limit : Millis} {packet : Packet} {answer : ConnAck}
      {keepAlive : UInt16} (hr : c.receive = .ok (some (packet, c₁)))
      (hg : c₁.greet packet = .ok (c₂, answer)) :
      Step p (.greeting c limit) (.link .packet) (.welcoming c₂ keepAlive answer.sessionPresent)
        [.count .sessionConnected]
  | subscribed {c c' : Connection} {keepAlive : UInt16} {present : Bool} {written : List Bytes}
      {pending : List (UInt16 × UInt32)} {k : KeepAlive} {b : Phase}
      (hs : subscribeAll c.limits.subscriptionIdentifiers c p.interests [] [] =
        (written, .ok (c', pending)))
      (hb : p.afterAnswer ⟨c', k, pending, [], []⟩ = .ok b) (hk : k.outstanding = false) :
      Step p (.welcoming c keepAlive present) .taken b (written.map .write)
  /-- A message that is known is acknowledged again. -/
  | repeated {s : Serving} {c : Connection} {m : Publish} {id : UInt16} {bytes : Bytes}
      (hr : s.connection.receive = .ok (some (.publish m, c))) (hk : s.Knows m)
      (hid : m.packetId = some id) (hs : c.send (.pubRec ⟨id, .success⟩) = .ok bytes) :
      Step p (.serving s) (.link .packet) (.serving { s with connection := c }) [.write bytes]
  /-- A message of the relay itself is acknowledged and goes no further. -/
  | own {s s' : Serving} {c : Connection} {m : Publish} {written : List Effect}
      (hr : s.connection.receive = .ok (some (.publish m, c))) (hk : ¬s.Knows m) (ho : p.isOwn m)
      (ha : acknowledge { s with connection := c } m.qos m.packetId = .ok (s', written)) :
      Step p (.serving s) (.link .packet) (.serving s') (.count .loopDropped :: written)
  /-- Any other message is to be handed over. -/
  | offered {s : Serving} {c : Connection} {m : Publish}
      (hr : s.connection.receive = .ok (some (.publish m, c))) (hk : ¬s.Knows m)
      (ho : p.isOwn m = false) :
      Step p (.serving s) (.link .packet)
        (.delivering { s with connection := c } (.ofPublish m) m.packetId) []
  | released {s : Serving} {c : Connection} {a : Ack} {bytes : Bytes}
      (hr : s.connection.receive = .ok (some (.pubRel a, c)))
      (hs : c.send (.pubComp ⟨a.packetId, if s.unreleased.contains a.packetId then .success
        else .packetIdNotFound⟩) = .ok bytes) :
      Step p (.serving s) (.link .packet) (.serving { s with
        connection := c
        unreleased := s.unreleased.filter (· ≠ a.packetId) }) [.write bytes]
  /-- A subscription is answered. -/
  | answered {s : Serving} {c : Connection} {a : SubAck} {interest : UInt32} {b : Phase}
      (hr : s.connection.receive = .ok (some (.subAck a, c)))
      (hl : s.pending.lookup a.packetId = some interest)
      (hb : p.afterAnswer { s with
        connection := c
        pending := s.pending.filter fun e => e.1 ≠ a.packetId
        refused := if a.isGrant then s.refused else s.refused ++ [interest] } = .ok b) :
      Step p (.serving s) (.link .packet) b []
  /-- A packet that concerns neither messages nor subscriptions. -/
  | ignored {s : Serving} {c : Connection} {packet : Packet} {k : KeepAlive}
      (hr : s.connection.receive = .ok (some (packet, c)))
      (hm : ∀ m, packet ≠ .publish m) (ha : ∀ a, packet ≠ .pubRel a)
      (hl : ∀ a, packet = .subAck a → s.pending.lookup a.packetId = none)
      (hk : k = if packet = .pingResp then s.keepAlive.answered else s.keepAlive) :
      Step p (.serving s) (.link .packet)
        (.serving { s with connection := c, keepAlive := k }) []
  | pinged {s : Serving} {k : KeepAlive} {bytes : Bytes} {now : Millis}
      (hk : s.keepAlive.tick? now = some k) (hs : s.connection.send .pingReq = .ok bytes) :
      Step p (.serving s) (.link .ping) (.serving { s with keepAlive := k }) [.write bytes]
  /-- A message has been handed over. -/
  | handed {s s' : Serving} {m : Message} {id : Option UInt16} {written : List Effect}
      (ha : acknowledge s m.qos id = .ok (s', written)) :
      Step p (.delivering s m id) .taken (.serving s') written
  /-- The answers to the subscriptions have been handed over. -/
  | reported {s : Serving} {refused : List UInt32} {k : KeepAlive}
      (hk : k = s.keepAlive ∨ p.interests = [] ∧ ∃ now, k = s.keepAlive.restart now) :
      Step p (.reporting s refused) .taken (.serving { s with keepAlive := k }) []

variable {p : Subscriber} {st st' : State} {s s' : Serving} {es : List Effect}

/-! ### Subscriptions -/

/-- What is written with some subscriptions, and what may have become of the connection. -/
theorem subscribeAll_cases {withIds : Bool} {l : List Interest} {c : Connection}
    {pending : List (UInt16 × UInt32)} {before written : List Bytes}
    {r : Except SessionError (Connection × List (UInt16 × UInt32))}
    (h : subscribeAll withIds c l pending before = (written, r))
    (hbefore : ∀ bytes ∈ before, ∃ q : Subscribe, q.encode = .ok bytes) :
    (∀ bytes ∈ written, ∃ q : Subscribe, q.encode = .ok bytes) ∧
      ∀ e, r = .error e → ∀ what, e ≠ .timeout what := by
  induction l generalizing c pending before with
  | nil =>
      obtain ⟨rfl, rfl⟩ := Prod.mk.inj h
      exact ⟨hbefore, by rintro e ⟨⟩⟩
  | cons i rest ih =>
      simp only [subscribeAll] at h
      split at h
      · rename_i e hsend
        obtain ⟨rfl, rfl⟩ := Prod.mk.inj h
        refine ⟨hbefore, ?_⟩
        rintro e' ⟨⟩
        exact Connection.ne_timeout_of_send hsend
      · rename_i bytes hsend
        refine ih h fun frame hframe => ?_
        rcases List.mem_append.1 hframe with hframe | hframe
        · exact hbefore frame hframe
        · obtain rfl := List.mem_singleton.1 hframe
          exact ⟨_, Connection.encode_of_send hsend⟩

/-- After an answer the subscriber waits for the others, or reports what has been refused. -/
theorem afterAnswer_eq_ok {b : Phase} (h : p.afterAnswer s = .ok b) :
    (s.pending ≠ [] ∧ b = .serving s) ∨
      (s.pending = [] ∧ b = .reporting { s with refused := [] } s.refused) := by
  unfold afterAnswer at h
  split_ifs at h with hpending hall
  · exact .inl ⟨by simpa using hpending, (Except.ok.inj h).symm⟩
  · exact .inr ⟨by simpa using hpending, (Except.ok.inj h).symm⟩

theorem afterAnswer_eq_error {e : SessionError} (h : p.afterAnswer s = .error e) :
    e = .allRefused := by
  unfold afterAnswer at h
  split_ifs at h
  exact (Except.error.inj h).symm

/-! ### Packets -/

/-- An acknowledgement changes nothing but the messages that wait for their release, and what is
written is the receipt of the message. -/
theorem acknowledge_eq_ok {qos : QoS} {id : Option UInt16} {written : List Effect}
    (h : acknowledge s qos id = .ok (s', written)) :
    s'.pending = s.pending ∧ s'.refused = s.refused ∧
      ∀ n, n ∈ s'.unreleased ↔ n ∈ s.unreleased ∨ qos = .exactlyOnce ∧ id = some n := by
  unfold acknowledge at h
  split at h
  · obtain ⟨bytes, -, hs⟩ := bind_eq_ok_iff.1 h
    obtain ⟨rfl, -⟩ := Prod.mk.inj (Except.ok.inj hs)
    simp
  · rename_i id
    obtain ⟨bytes, -, hs⟩ := bind_eq_ok_iff.1 h
    obtain ⟨rfl, -⟩ := Prod.mk.inj (Except.ok.inj hs)
    refine ⟨rfl, rfl, fun n => ?_⟩
    simp only [List.mem_insert_iff, true_and, Option.some.injEq]
    rw [or_comm, eq_comm]
  · rename_i hid
    obtain ⟨rfl, -⟩ := Prod.mk.inj (Except.ok.inj h)
    refine ⟨rfl, rfl, fun n => ⟨Or.inl, ?_⟩⟩
    rintro (hn | ⟨rfl, rfl⟩)
    · exact hn
    · exact absurd rfl (hid n rfl)

/-- What is written is the receipt of the message, if it has one. -/
theorem receipt_of_acknowledge {qos : QoS} {id : Option UInt16} {written : List Effect}
    (h : acknowledge s qos id = .ok (s', written)) :
    s'.connection = s.connection ∧ s'.keepAlive = s.keepAlive ∧ ∃ frames : List Bytes,
      written = frames.map Effect.write ∧
        frames.map Except.ok = (receipt? qos id).toList.map Packet.encode := by
  unfold acknowledge at h
  split at h
  · obtain ⟨bytes, hsend, hs⟩ := bind_eq_ok_iff.1 h
    obtain ⟨rfl, rfl⟩ := Prod.mk.inj (Except.ok.inj hs)
    refine ⟨rfl, rfl, [bytes], rfl, ?_⟩
    simp [receipt?, Connection.encode_of_send hsend]
  · obtain ⟨bytes, hsend, hs⟩ := bind_eq_ok_iff.1 h
    obtain ⟨rfl, rfl⟩ := Prod.mk.inj (Except.ok.inj hs)
    refine ⟨rfl, rfl, [bytes], rfl, ?_⟩
    simp [receipt?, Connection.encode_of_send hsend]
  · rename_i hleast hexact
    obtain ⟨rfl, rfl⟩ := Prod.mk.inj (Except.ok.inj h)
    refine ⟨rfl, rfl, [], rfl, ?_⟩
    unfold receipt?
    split
    · exact absurd rfl (hleast _ rfl)
    · exact absurd rfl (hexact _ rfl)
    · rfl

/-- A receipt is PUBACK or PUBREC. -/
theorem type_of_receipt? {qos : QoS} {id : Option UInt16} {packet : Packet}
    (h : receipt? qos id = some packet) : packet.type = 4 ∨ packet.type = 5 := by
  unfold receipt? at h
  split at h
  · cases h
    exact .inl rfl
  · cases h
    exact .inr rfl
  · cases h

theorem ne_timeout_of_acknowledge {qos : QoS} {id : Option UInt16} {e : SessionError}
    (h : acknowledge s qos id = .error e) (what : Awaited) : e ≠ .timeout what := by
  unfold acknowledge at h
  split at h
  · exact Connection.ne_timeout_of_send (bind_eq_error h) what
  · exact Connection.ne_timeout_of_send (bind_eq_error h) what
  · cases h

theorem proceed_cases {before : List Effect} {r : Except SessionError (Phase × List Effect)}
    (h : proceed st before r = (st', es)) :
    (∃ b after, r = .ok (b, after) ∧ st'.phase = b ∧ es = before ++ after) ∨
      ∃ e, r = .error e ∧ st'.phase = .losing e ∧
        es = before ++ [.count .sessionDisconnected, .hangUp] := by
  cases r with
  | error e =>
      right
      obtain ⟨rfl, rfl⟩ := Prod.mk.inj h
      exact ⟨e, rfl, rfl, rfl⟩
  | ok r =>
      left
      obtain ⟨rfl, rfl⟩ := Prod.mk.inj h
      exact ⟨r.1, r.2, rfl, rfl, rfl⟩

theorem map_eq_ok_iff {ε α β : Type} {x : Except ε α} {f : α → β} {b : β} :
    x.map f = .ok b ↔ ∃ a, x = .ok a ∧ f a = b := by
  cases x <;> simp [Except.map]

theorem map_eq_error_iff {ε α β : Type} {x : Except ε α} {f : α → β} {e : ε} :
    x.map f = .error e ↔ x = .error e := by
  cases x <;> simp [Except.map]

/-- What is done where a connection is lost adds nothing to what has been done before. -/
theorem Transit.of_lost {before : List Effect} (h : ∀ e ∈ before, Transit p e) :
    ∀ e ∈ before ++ [Effect.count .sessionDisconnected, .hangUp], Transit p e := by
  intro e he
  rcases List.mem_append.1 he with he | he
  · exact h e he
  · simp only [List.mem_cons, List.not_mem_nil, or_false] at he
    rcases he with rfl | rfl
    · exact .lost
    · exact .hangUp

theorem step_of_onPublish {c : Connection} {m : Publish} {b : Phase} {before after : List Effect}
    (hr : s.connection.receive = .ok (some (.publish m, c)))
    (h : p.onPublish { s with connection := c } m = (before, .ok (b, after))) :
    Step p (.serving s) (.link .packet) b (before ++ after) := by
  -- A message that is not known is either the relay's own or handed over.
  have hfresh (hk : ¬s.Knows m)
      (hf : onPublish.fresh p { s with connection := c } m = (before, .ok (b, after))) :
      Step p (.serving s) (.link .packet) b (before ++ after) := by
    unfold onPublish.fresh at hf
    split_ifs at hf with ho
    · obtain ⟨rfl, hok⟩ := Prod.mk.inj hf
      obtain ⟨⟨s', written⟩, ha, hb⟩ := map_eq_ok_iff.1 hok
      obtain ⟨rfl, rfl⟩ := Prod.mk.inj hb
      exact .own hr hk ho ha
    · obtain ⟨rfl, hok⟩ := Prod.mk.inj hf
      obtain ⟨rfl, rfl⟩ := Prod.mk.inj (Except.ok.inj hok)
      exact .offered hr hk (by simpa using ho)
  unfold onPublish at h
  split at h
  · -- only here, with an identifier and at quality of service 2, can the message be known
    rename_i id hq hid
    split_ifs at h with hmem
    · obtain ⟨rfl, hok⟩ := Prod.mk.inj h
      obtain ⟨bytes, hsend, hb⟩ := map_eq_ok_iff.1 hok
      obtain ⟨rfl, rfl⟩ := Prod.mk.inj hb
      exact .repeated hr ⟨hq, id, by simpa using hmem, hid⟩ hid hsend
    · refine hfresh ?_ h
      rintro ⟨-, n, hn, hid'⟩
      rw [hid, Option.some.injEq] at hid'
      exact hmem (by simpa [hid'] using hn)
  · rename_i hq
    refine hfresh ?_ h
    rintro ⟨hq', n, -, hid⟩
    exact hq n hq' hid

/-- A message that costs the connection would not have been handed over. -/
theorem onPublish_eq_error {c : Connection} {m : Publish} {before : List Effect}
    {e : SessionError}
    (h : p.onPublish { s with connection := c } m = (before, .error e)) :
    (s.Knows m ∨ p.isOwn m) ∧ (∀ e ∈ before, Transit p e) ∧ ∀ what, e ≠ .timeout what := by
  -- what is handed over cannot fail here: its acknowledgement comes only after it has been taken
  have hfresh (hf : onPublish.fresh p { s with connection := c } m = (before, .error e)) :
      p.isOwn m ∧ (∀ e ∈ before, Transit p e) ∧ ∀ what, e ≠ .timeout what := by
    unfold onPublish.fresh at hf
    split_ifs at hf with ho
    · obtain ⟨rfl, herror⟩ := Prod.mk.inj hf
      exact ⟨ho, by simpa using Transit.loopDropped,
        ne_timeout_of_acknowledge (map_eq_error_iff.1 herror)⟩
    · cases (Prod.mk.inj hf).2
  unfold onPublish at h
  split at h
  · rename_i id hq hid
    split_ifs at h with hmem
    · obtain ⟨rfl, herror⟩ := Prod.mk.inj h
      exact ⟨.inl ⟨hq, id, by simpa using hmem, hid⟩, by simp,
        Connection.ne_timeout_of_send (map_eq_error_iff.1 herror)⟩
    · exact ⟨.inr (hfresh h).1, (hfresh h).2⟩
  · exact ⟨.inr (hfresh h).1, (hfresh h).2⟩

theorem step_of_onPacket {c : Connection} {packet : Packet} {b : Phase}
    {before after : List Effect} (hr : s.connection.receive = .ok (some (packet, c)))
    (h : p.onPacket { s with connection := c } packet = (before, .ok (b, after))) :
    Step p (.serving s) (.link .packet) b (before ++ after) := by
  cases packet with
  | publish m => exact step_of_onPublish hr h
  | pubRel a =>
      obtain ⟨rfl, hok⟩ := Prod.mk.inj h
      obtain ⟨bytes, hsend, hb⟩ := map_eq_ok_iff.1 hok
      obtain ⟨rfl, rfl⟩ := Prod.mk.inj hb
      exact .released hr hsend
  | subAck a =>
      simp only [onPacket] at h
      split at h
      · rename_i hl
        obtain ⟨rfl, hok⟩ := Prod.mk.inj h
        obtain ⟨rfl, rfl⟩ := Prod.mk.inj (Except.ok.inj hok)
        refine .ignored hr (by simp) (by simp) (fun a' ha => ?_) (by simp)
        obtain rfl := Packet.subAck.inj ha
        exact hl
      · rename_i interest hl
        obtain ⟨rfl, hok⟩ := Prod.mk.inj h
        obtain ⟨b, hb, he⟩ := map_eq_ok_iff.1 hok
        obtain ⟨rfl, rfl⟩ := Prod.mk.inj he
        exact .answered hr hl hb
  | disconnect d => cases (Prod.mk.inj h).2
  | _ =>
      obtain ⟨rfl, hok⟩ := Prod.mk.inj h
      obtain ⟨rfl, rfl⟩ := Prod.mk.inj (Except.ok.inj hok)
      refine .ignored hr ?_ ?_ ?_ ?_ <;> simp

/-- What is done before a packet costs the connection, and that nothing is waited for then. -/
theorem transit_of_onPacket {c : Connection} {packet : Packet} {before : List Effect}
    {e : SessionError} (h : p.onPacket { s with connection := c } packet = (before, .error e)) :
    (∀ e ∈ before, Transit p e) ∧ ∀ what, e ≠ .timeout what := by
  cases packet with
  | publish m => exact (onPublish_eq_error h).2
  | pubRel a =>
      obtain ⟨rfl, herror⟩ := Prod.mk.inj h
      exact ⟨by simp, Connection.ne_timeout_of_send (map_eq_error_iff.1 herror)⟩
  | subAck a =>
      simp only [onPacket] at h
      split at h
      · cases (Prod.mk.inj h).2
      · obtain ⟨rfl, herror⟩ := Prod.mk.inj h
        obtain rfl := afterAnswer_eq_error (map_eq_error_iff.1 herror)
        exact ⟨by simp, by simp⟩
  | disconnect d =>
      obtain ⟨rfl, herror⟩ := Prod.mk.inj h
      obtain rfl := Except.error.inj herror
      exact ⟨by simp, by simp⟩
  | _ => cases (Prod.mk.inj h).2

/-! ### Inputs -/

variable {w : Surroundings}

/-- A new connection starts with the packet identifier 1, and has not come to an end. -/
theorem fresh_of_begin {packet : Connect} {c : Connection} {bytes : Bytes}
    (h : Connection.begin packet = .ok (c, bytes)) :
    c.nextId = 1 ∧ c.ending = none ∧ packet.encode = .ok bytes := by
  obtain ⟨_, hsend, hc⟩ := bind_eq_ok_iff.1 h
  obtain ⟨rfl, rfl⟩ := Prod.mk.inj (Except.ok.inj hc)
  have hencode := Connection.encode_of_send hsend
  split <;> exact ⟨rfl, rfl, hencode⟩

theorem nextId_of_receive {c c' : Connection} {packet : Packet}
    (h : c.receive = .ok (some (packet, c'))) : c'.nextId = c.nextId := by
  obtain ⟨rest, -, rfl⟩ := Connection.exists_of_receive h
  rfl

theorem nextId_of_greet {c c' : Connection} {packet : Packet} {answer : ConnAck}
    (h : c.greet packet = .ok (c', answer)) : c'.nextId = c.nextId := by
  obtain ⟨-, -, rfl⟩ := Connection.exists_of_greet h
  rfl

/-- The subscriber goes to a phase without a connection, for another reason than that an answer does
not come. -/
theorem Step.of_away {a b : Phase} {i : Input} (hb : b.isAway)
    (ha : i = .taken ∨ ∀ s m id, a ≠ .delivering s m id)
    (hm : i = .link .packet → ∀ s m c, a = .serving s →
      s.connection.receive = .ok (some (.publish m, c)) → s.Knows m ∨ p.isOwn m)
    (hes : ∀ e ∈ es, Transit p e) (ht : b ≠ .losing (.timeout .pingResp)) : Step p a i b es :=
  .away hb ha hm hes fun _ _ h => absurd h ht

theorem losing_ne_of_ne_timeout {e : SessionError} (h : ∀ what, e ≠ .timeout what) :
    Phase.losing e ≠ .losing (.timeout .pingResp) :=
  fun he => h _ (Phase.losing.inj he)

theorem step_of_taken? (h : p.taken? w st = some (st', es)) :
    Step p st.phase .taken st'.phase es := by
  unfold taken? at h
  split at h
  · obtain ⟨rfl, rfl⟩ := Prod.mk.inj (Option.some.inj h)
    exact .of_away rfl (.inl rfl) nofun (by simpa using Transit.dial) nofun
  · -- the subscriptions are sent, all of them or as many as the connection bears
    rename_i c keepAlive present hphase
    split at h
    · rename_i written e hs
      obtain ⟨hwritten, herror⟩ := subscribeAll_cases hs (by simp)
      obtain ⟨rfl, rfl⟩ := Prod.mk.inj (Option.some.inj h)
      refine .of_away rfl (.inl rfl) nofun (Transit.of_lost ?_)
        (losing_ne_of_ne_timeout (herror e rfl))
      simpa using fun bytes hbytes => (hwritten bytes hbytes).elim fun q => Transit.subscription
    · rename_i written c' pending hs
      obtain ⟨hwritten, -⟩ := subscribeAll_cases hs (by simp)
      obtain ⟨b, after, hr, hb, he⟩ | ⟨e, hr, hb, he⟩ := proceed_cases (Option.some.inj h)
      · obtain ⟨b', ha, hpair⟩ := map_eq_ok_iff.1 hr
        obtain ⟨rfl, rfl⟩ := Prod.mk.inj hpair
        rw [hphase, hb, he, List.append_nil]
        exact .subscribed hs ha rfl
      · obtain rfl := afterAnswer_eq_error (map_eq_error_iff.1 hr)
        rw [hb, he]
        refine .of_away rfl (.inl rfl) nofun (Transit.of_lost ?_) nofun
        simpa using fun bytes hbytes => (hwritten bytes hbytes).elim fun q => Transit.subscription
  · -- a message has been taken, and is acknowledged now
    rename_i s m id hphase
    obtain ⟨b, after, hr, hb, he⟩ | ⟨e, hr, hb, he⟩ := proceed_cases (Option.some.inj h)
    · obtain ⟨⟨s', written⟩, ha, hpair⟩ := map_eq_ok_iff.1 hr
      obtain ⟨rfl, rfl⟩ := Prod.mk.inj hpair
      rw [hphase, hb, he, List.nil_append]
      exact .handed ha
    · rw [hb, he]
      exact .of_away rfl (.inl rfl) nofun (Transit.of_lost (by simp))
        (losing_ne_of_ne_timeout (ne_timeout_of_acknowledge (map_eq_error_iff.1 hr)))
  · rename_i s refused hphase
    obtain ⟨rfl, rfl⟩ := Prod.mk.inj (Option.some.inj h)
    rw [hphase]
    refine .reported ?_
    split_ifs with hnone
    · exact .inr ⟨by simpa using hnone, w.now, rfl⟩
    · exact .inl rfl
  · split at h
    · obtain ⟨rfl, rfl⟩ := Prod.mk.inj (Option.some.inj h)
      exact .of_away rfl (.inl rfl) nofun (by simp) nofun
    · obtain ⟨rfl, rfl⟩ := Prod.mk.inj (Option.some.inj h)
      exact .of_away rfl (.inl rfl) nofun (by simp) nofun
  · cases h

theorem stop_of_leave {i : Input} {c : Connection} (h : leave st c = (st', es))
    (hi : i = .refused ∨ i = .link .shutdown) : Step p st.phase i st'.phase es := by
  obtain ⟨rfl, rfl⟩ := Prod.mk.inj h
  refine .stop hi fun e he => ?_
  rcases List.mem_append.1 he with he | he
  · rcases List.mem_cons.1 he with rfl | he
    · exact .lost
    · obtain ⟨bytes, hbytes, rfl⟩ := Option.map_eq_some_iff.1 (Option.mem_toList.1 he)
      exact .farewell (Connection.encode_of_send (Connection.farewell_eq_some_iff.1 hbytes))
  · obtain rfl := List.mem_singleton.1 he
    exact .hangUp

/-- Without anybody to take its event a subscriber comes to its end. -/
theorem step_of_refused? (h : refused? st = some (st', es)) :
    Step p st.phase .refused st'.phase es := by
  unfold refused? at h
  split at h
  case h_6 => cases h
  case h_1 | h_2 =>
    obtain ⟨rfl, rfl⟩ := Prod.mk.inj (Option.some.inj h)
    exact .stop (.inl rfl) (by simp)
  all_goals exact stop_of_leave (Option.some.inj h) (.inl rfl)

theorem step_of_update? {i : LinkInput} {f : Connection → Connection}
    (h : (st.phase.update? f).map (fun phase => ({ st with phase }, [])) = some (st', es))
    (hf : ∀ c, (f c).nextId = c.nextId) (hi : i ≠ .packet) (hc : ∀ c, Hears c (f c)) :
    Step p st.phase (.link i) st'.phase es := by
  obtain ⟨b, hb, hpair⟩ := Option.map_eq_some_iff.1 h
  obtain ⟨rfl, rfl⟩ := Prod.mk.inj hpair
  exact .heard hf hi hb hc

theorem hears_arrive (c : Connection) (bytes : Bytes) : Hears c (c.arrive bytes) :=
  ⟨rfl, ⟨bytes, rfl⟩, .inl rfl⟩

/-- An end of the stream for which nothing is waited for. -/
theorem hears_endWith (c : Connection) {e : SessionError} (h : ∀ what, e ≠ .timeout what) :
    Hears c (c.endWith e) := by
  refine ⟨rfl, ⟨[], (List.append_nil _).symm⟩, ?_⟩
  cases hend : c.ending with
  | none => exact .inr ⟨e, by simp [Connection.endWith, hend], h⟩
  | some e' => exact .inl (by simp [Connection.endWith, hend])

theorem hears_failWith (c : Connection) (cause : String) : Hears c (c.failWith cause) := by
  obtain ⟨hdecoder, hinbound, hending⟩ := hears_endWith c (e := .io cause) (by simp)
  exact ⟨hdecoder, hinbound, hending⟩

/-- Why there is no packet: the bytes are none, or the stream has come to an end. -/
theorem receive_eq_error {c : Connection} {e : SessionError} (h : c.receive = .error e) :
    (∀ what, e ≠ .timeout what) ∨ c.ending = some e := by
  unfold Connection.receive at h
  split at h
  · obtain rfl := Except.error.inj h
    exact .inl (by simp)
  · cases h
  · split at h
    · rename_i e' hend
      obtain rfl := Except.error.inj h
      exact .inr hend
    · cases h

theorem step_of_greeted? {c : Connection} {limit : Millis} (hphase : st.phase = .greeting c limit)
    (h : p.greeted? st c = some (st', es)) :
    Step p st.phase (.link .packet) st'.phase es := by
  unfold greeted? at h
  split at h
  · rename_i e hr
    obtain ⟨rfl, rfl⟩ := Prod.mk.inj (Option.some.inj h)
    refine .away rfl (.inr (by simp [hphase])) (by simp [hphase]) (by simpa using Transit.hangUp)
      fun c' hc' hb => .inl ?_
    rw [hphase] at hc'
    obtain rfl := Option.some.inj hc'
    obtain rfl := Phase.losing.inj hb
    exact (receive_eq_error hr).resolve_left fun hne => hne _ rfl
  · cases h
  · rename_i packet c₁ hr
    split at h
    · rename_i e hg
      obtain ⟨rfl, rfl⟩ := Prod.mk.inj (Option.some.inj h)
      refine .of_away rfl (.inr (by simp [hphase])) (by simp [hphase]) (by simpa using Transit.hangUp)
        (losing_ne_of_ne_timeout ?_)
      unfold Connection.greet at hg
      split at hg
      · split_ifs at hg
        obtain rfl := Except.error.inj hg
        simp
      · obtain rfl := Except.error.inj hg
        simp
    · rename_i c₂ answer hg
      obtain ⟨rfl, rfl⟩ := Prod.mk.inj (Option.some.inj h)
      rw [hphase]
      exact .accepted hr hg

theorem step_of_served? (hphase : st.phase = .serving s) (h : p.served? st s = some (st', es)) :
    Step p st.phase (.link .packet) st'.phase es := by
  unfold served? at h
  split at h
  · rename_i e hr
    obtain ⟨rfl, rfl⟩ := Prod.mk.inj (Option.some.inj h)
    refine .away rfl (.inr (by simp [hphase])) (fun _ s' m c hs' hr' => ?_)
      (Transit.of_lost (by simp)) fun c hc hb => .inl ?_
    · obtain rfl := Phase.serving.inj (hphase.symm.trans hs')
      rw [hr] at hr'
      cases hr'
    · rw [hphase] at hc
      obtain rfl := Option.some.inj hc
      obtain rfl := Phase.losing.inj hb
      exact (receive_eq_error hr).resolve_left fun hne => hne _ rfl
  · cases h
  · rename_i packet c hr
    obtain ⟨b, after, hok, hb, he⟩ | ⟨e, herr, hb, he⟩ := proceed_cases (Option.some.inj h)
    · rw [hphase, hb, he]
      exact step_of_onPacket hr (Prod.ext rfl hok)
    · -- the packet has cost the connection, so it is no message that was to be handed over
      obtain ⟨hbefore, hne⟩ := transit_of_onPacket (Prod.ext rfl herr)
      rw [hb, he]
      refine .of_away rfl (.inr (by simp [hphase])) (fun _ s' m c' hs' hr' => ?_)
        (Transit.of_lost hbefore) (losing_ne_of_ne_timeout hne)
      obtain rfl := Phase.serving.inj (hphase.symm.trans hs')
      rw [hr] at hr'
      obtain ⟨rfl, rfl⟩ := Prod.mk.inj (Option.some.inj (Except.ok.inj hr'))
      exact (onPublish_eq_error (Prod.ext rfl herr)).1

theorem step_of_pinged (hphase : st.phase = .serving s) (h : pinged w st s = (st', es)) :
    Step p st.phase (.link .ping) st'.phase es := by
  unfold pinged at h
  split at h
  · rename_i hk
    obtain ⟨rfl, rfl⟩ := Prod.mk.inj h
    refine .away rfl (.inr (by simp [hphase])) (by simp [hphase]) (Transit.of_lost (by simp))
      fun c _ _ => .inr ⟨rfl, s, hphase, ?_⟩
    by_contra hclosed
    rw [KeepAlive.tick?, if_neg hclosed] at hk
    cases hk
  · rename_i k hk
    obtain ⟨b, after, hr, hb, he⟩ | ⟨e, hr, hb, he⟩ := proceed_cases h
    · obtain ⟨bytes, hsend, hpair⟩ := map_eq_ok_iff.1 hr
      obtain ⟨rfl, rfl⟩ := Prod.mk.inj hpair
      rw [hphase, hb, he]
      exact .pinged hk hsend
    · rw [hb, he]
      exact .of_away rfl (.inr (by simp [hphase])) (by simp [hphase]) (Transit.of_lost (by simp))
        (losing_ne_of_ne_timeout (Connection.ne_timeout_of_send (map_eq_error_iff.1 hr)))

theorem step_of_opened (h : p.openedAt w st = (st', es)) {deadline : Millis}
    (hphase : st.phase = .opening deadline) : Step p st.phase (.link .opened) st'.phase es := by
  unfold openedAt at h
  split at h
  · rename_i e hc
    obtain ⟨rfl, rfl⟩ := Prod.mk.inj h
    exact .away rfl (.inr (by simp [hphase])) (by simp [hphase]) (by simpa using Transit.hangUp)
      (by simp [hphase, Phase.connection?])
  · rename_i c bytes hc
    obtain ⟨rfl, rfl⟩ := Prod.mk.inj h
    obtain ⟨hid, hend, hencode⟩ := fresh_of_begin hc
    rw [hphase]
    exact .opened hid hend ⟨_, hencode⟩

theorem step_of_timeUp (h : p.link? w st .timeUp = some (st', es)) :
    Step p st.phase (.link .timeUp) st'.phase es := by
  simp only [link?] at h
  split at h
  · rename_i hphase
    split_ifs at h
    obtain ⟨rfl, rfl⟩ := Prod.mk.inj (Option.some.inj h)
    exact .of_away rfl (.inr (by simp [hphase])) (by simp [hphase]) (by simp) (by simp)
  · rename_i hphase
    split_ifs at h
    obtain ⟨rfl, rfl⟩ := Prod.mk.inj (Option.some.inj h)
    exact .of_away rfl (.inr (by simp [hphase])) (by simp [hphase]) (by simpa using Transit.hangUp)
      (by simp)
  · rename_i hphase
    split_ifs at h
    all_goals
      obtain ⟨rfl, rfl⟩ := Prod.mk.inj (Option.some.inj h)
      exact .of_away rfl (.inr (by simp [hphase])) (by simp [hphase]) (by simpa using Transit.again)
        (by simp)
  · cases h

theorem step_of_link? {i : LinkInput} (h : p.link? w st i = some (st', es)) :
    Step p st.phase (.link i) st'.phase es := by
  cases i with
  | arrived bytes => exact step_of_update? h (fun _ => rfl) (by simp) fun c => hears_arrive c bytes
  | ended =>
      exact step_of_update? h (fun _ => rfl) (by simp) fun c => hears_endWith c (by simp)
  | failed cause =>
      exact step_of_update? h (fun _ => rfl) (by simp) fun c => hears_failWith c cause
  | timeUp => exact step_of_timeUp h
  | opened =>
      simp only [link?] at h
      split at h
      · rename_i hphase
        exact step_of_opened (Option.some.inj h) hphase
      · cases h
  | notOpened e =>
      simp only [link?] at h
      split at h
      · rename_i hphase
        obtain ⟨rfl, rfl⟩ := Prod.mk.inj (Option.some.inj h)
        exact .away rfl (.inr (by simp [hphase])) (by simp [hphase]) (by simp)
          (by simp [hphase, Phase.connection?])
      · cases h
  | packet =>
      simp only [link?] at h
      split at h
      · rename_i hphase
        exact step_of_greeted? hphase h
      · rename_i hphase
        exact step_of_served? hphase h
      · cases h
  | ping =>
      simp only [link?] at h
      split at h
      · rename_i hphase
        split_ifs at h
        exact step_of_pinged hphase (Option.some.inj h)
      · cases h
  | shutdown =>
      simp only [link?] at h
      split at h
      · split_ifs at h
        exact stop_of_leave (Option.some.inj h) (.inr rfl)
      · split_ifs at h
        obtain ⟨rfl, rfl⟩ := Prod.mk.inj (Option.some.inj h)
        exact .stop (.inr rfl) (by simp)
      · cases h

/-- **Every step of a subscriber is one of the cases.** -/
theorem step_of_step? {i : Input} (h : p.step? w st i = some (st', es)) :
    Step p st.phase i st'.phase es := by
  cases i with
  | taken => exact step_of_taken? h
  | refused => exact step_of_refused? h
  | link i => exact step_of_link? h

/-- A subscriber that has come to its end waits for nothing. -/
theorem isStopped_of_step? {i : Input} (h : p.step? w st i = some (st', es)) :
    st.isStopped = false := by
  obtain ⟨phase, backoff⟩ := st
  cases phase with
  | stopped =>
      cases i with
      | link i => cases i <;> cases h
      | _ => cases h
  | _ => rfl

end Subscriber

end TopicBridge
