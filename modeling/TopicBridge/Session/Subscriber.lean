/-
**The subscriber of a flow.**

A subscriber connects to the broker that messages come from, subscribes to the filters of the
rules, and hands over what it receives.  A message is acknowledged once it has been handed over.
When the connection is lost the subscriber waits and connects again; the broker keeps its session
meanwhile.

A subscriber is a machine that waits in one of a few phases.  Each input takes it to the next
place where it has to wait, and may write to the broker or count something on the way.  While it
hands over an event it does nothing else.

Main definitions:

* `TopicBridge.Subscriber` — what does not change while it runs;
* `Subscriber.Phase` — the places where it waits;
* `Subscriber.State.offer?` — the event that it hands over;
* `Subscriber.step?` — what an input does; `none` if the subscriber does not wait for it;
* `Subscriber.ready?` — an input that needs nobody else.
-/

import TopicBridge.Rule.Registry
import TopicBridge.Session.KeepAlive
import TopicBridge.Session.Link
import TopicBridge.Session.Message
import TopicBridge.Session.Settings

set_option autoImplicit false

namespace TopicBridge

open Mqtt

/-! ### The machine -/

/-- What does not change while a subscriber runs. -/
structure Subscriber where
  settings : SessionSettings
  interests : List Interest
  /-- The name of the relay, if it is to recognise its own messages. -/
  relayId : Option String

namespace Subscriber

/-- How long a broker keeps the session of a subscriber that is away, in seconds. -/
def sessionExpiry : UInt32 := 300

/-- A subscriber whose broker has accepted the connection. -/
structure Serving where
  connection : Connection
  keepAlive : KeepAlive
  /-- The subscriptions that have not been answered, under the identifiers of their packets. -/
  pending : List (UInt16 × UInt32)
  /-- The subscriptions that the broker has refused. -/
  refused : List UInt32
  /-- The identifiers of messages that have been handed over but not released. -/
  unreleased : List UInt16

/-- The places where a subscriber waits. -/
inductive Phase where
  /-- Hands over that it is about to connect. -/
  | announcing
  /-- Waits for a stream. -/
  | opening (deadline : Millis)
  /-- Waits for the broker's first packet. -/
  | greeting (c : Connection) (deadline : Millis)
  /-- Hands over that it is connected. -/
  | welcoming (c : Connection) (keepAlive : UInt16) (sessionPresent : Bool)
  /-- Waits for the broker. -/
  | serving (s : Serving)
  /-- Hands over a message. -/
  | delivering (s : Serving) (m : Message) (id : Option UInt16)
  /-- Hands over that the subscriptions have been answered. -/
  | reporting (s : Serving) (refused : List UInt32)
  /-- Hands over that the connection is lost. -/
  | losing (e : SessionError)
  /-- Waits before it connects again. -/
  | resting (wake : Millis)
  | stopped

/-- How far a subscriber is. -/
structure State where
  phase : Phase
  backoff : Backoff

/-- What an input does. -/
abbrev Outcome := State × List Effect

/-- A subscriber that has just been started. -/
def start (p : Subscriber) (shutdown : Bool) : State :=
  ⟨if shutdown then .stopped else .announcing, p.settings.backoff⟩

/-- The event that a subscriber hands over. -/
def State.offer? (st : State) : Option SessionEvent :=
  match st.phase with
  | .announcing => some .connecting
  | .welcoming _ _ sessionPresent => some (.connected sessionPresent)
  | .delivering _ m _ => some (.message m)
  | .reporting _ refused => some (.subscribed refused)
  | .losing e => some (.connectionLost e.message)
  | _ => none

/-- Whether a subscriber has come to its end. -/
def State.isStopped (st : State) : Bool :=
  match st.phase with
  | .stopped => true
  | _ => false

/-! ### Packets -/

/-- The packet that subscribes to a filter. -/
def subscribePacket (id : UInt16) (i : Interest) (withId : Bool) : Subscribe where
  packetId := id
  subscriptions := [{
    filter := i.filter.text
    qos := i.qos
    noLocal := false
    retainAsPublished := true
    retainHandling := .always }]
  properties := { subscriptionIdentifiers := if withId then [i.id] else [] }

/-- Whether a message has been published by the relay itself.  A message that has passed through
several relays bears the mark of each. -/
def isOwn (p : Subscriber) (m : Publish) : Bool :=
  match p.relayId with
  | some id => m.properties.userProperties.contains (Message.originKey, id)
  | none => false

/-- The packets that subscribe to some filters, with what is then unanswered: an identifier that
is used again stands for the later filter. -/
def subscribeAll (withIds : Bool) :
    Connection → List Interest → List (UInt16 × UInt32) → List Bytes →
      List Bytes × Except SessionError (Connection × List (UInt16 × UInt32))
  | c, [], pending, written => (written, .ok (c, pending))
  | c, i :: rest, pending, written =>
    let (id, c) := c.allocateId
    match c.send (.subscribe (subscribePacket id i withIds)) with
    | .error e => (written, .error e)
    | .ok bytes => subscribeAll withIds c rest ((pending.filter fun e => e.1 ≠ id) ++ [(id, i.id)])
        (written ++ [bytes])

/-- The acknowledgement that a message of a given quality of service asks for. -/
def acknowledge (s : Serving) (qos : QoS) (id : Option UInt16) :
    Except SessionError (Serving × List Effect) :=
  match qos, id with
  | .atLeastOnce, some id => do
    let bytes ← s.connection.send (.pubAck ⟨id, .success⟩)
    return (s, [.write bytes])
  | .exactlyOnce, some id => do
    let bytes ← s.connection.send (.pubRec ⟨id, .success⟩)
    return ({ s with unreleased := s.unreleased.insert id }, [.write bytes])
  | _, _ => .ok (s, [])

/-- What follows the answer to a subscription: once all have been answered the subscriber reports
what has been refused, or gives up if it is everything. -/
def afterAnswer (p : Subscriber) (s : Serving) : Except SessionError Phase :=
  if !s.pending.isEmpty then .ok (.serving s)
  else if p.interests ≠ [] ∧ s.refused.length = p.interests.length then .error .allRefused
  else .ok (.reporting { s with refused := [] } s.refused)

/-- What a message does. -/
def onPublish (p : Subscriber) (s : Serving) (m : Publish) :
    List Effect × Except SessionError (Phase × List Effect) :=
  match m.qos, m.packetId with
  | .exactlyOnce, some id =>
    if s.unreleased.contains id then
      ([], (s.connection.send (.pubRec ⟨id, .success⟩)).map fun b => (.serving s, [.write b]))
    else fresh
  | _, _ => fresh
where
  /-- A message that has not been handed over before. -/
  fresh : List Effect × Except SessionError (Phase × List Effect) :=
    if p.isOwn m then
      ([.count .loopDropped],
        (acknowledge s m.qos m.packetId).map fun (s, written) => (.serving s, written))
    else ([], .ok (.delivering s (.ofPublish m) m.packetId, []))

/-- What a packet from the broker does: what is counted in any case, and then the next phase, or
why the connection is lost. -/
def onPacket (p : Subscriber) (s : Serving) :
    Packet → List Effect × Except SessionError (Phase × List Effect)
  | .publish m => p.onPublish s m
  | .pubRel a =>
    let code := if s.unreleased.contains a.packetId then .success else .packetIdNotFound
    ([], (s.connection.send (.pubComp ⟨a.packetId, code⟩)).map fun b =>
      (.serving { s with unreleased := s.unreleased.filter (· ≠ a.packetId) }, [.write b]))
  | .subAck a =>
    match s.pending.lookup a.packetId with
    | none => ([], .ok (.serving s, []))
    | some interest =>
      let granted := match a.reasonCodes.head? with
        | some code => code.isSuccess
        | none => false
      ([], (p.afterAnswer { s with
        pending := s.pending.filter fun e => e.1 ≠ a.packetId
        refused := if granted then s.refused else s.refused ++ [interest] }).map (·, []))
  | .pingResp => ([], .ok (.serving { s with keepAlive := s.keepAlive.answered }, []))
  | .disconnect d => ([], .error (.disconnected d.reasonCode))
  | _ => ([], .ok (.serving s, []))

/-! ### Steps -/

/-- The connection that the broker had accepted is lost. -/
def drop (st : State) (before : List Effect) (e : SessionError) : Outcome :=
  ({ st with phase := .losing e }, before ++ [.count .sessionDisconnected, .hangUp])

/-- The subscriber takes its leave of the broker. -/
def leave (st : State) (c : Connection) : Outcome :=
  ({ st with phase := .stopped },
    .count .sessionDisconnected :: (c.farewell.map Effect.write).toList ++ [.hangUp])

/-- The next phase of a connection, or its loss. -/
def proceed (st : State) (before : List Effect) :
    Except SessionError (Phase × List Effect) → Outcome
  | .ok (phase, after) => ({ st with phase }, before ++ after)
  | .error e => drop st before e

/-- The event on offer has been taken. -/
def taken? (p : Subscriber) (w : Surroundings) (st : State) : Option Outcome :=
  match st.phase with
  | .announcing =>
    some ({ st with phase := .opening (w.now + p.settings.connectTimeout) }, [.dial])
  | .welcoming c keepAlive _ =>
    match subscribeAll c.limits.subscriptionIdentifiers c p.interests [] [] with
    | (written, .error e) => some (drop st (written.map .write) e)
    | (written, .ok (c, pending)) =>
      let s : Serving := ⟨c, .start keepAlive w.now, pending, [], []⟩
      some (proceed st (written.map .write) ((p.afterAnswer s).map (·, [])))
  | .delivering s m id =>
    some (proceed st [] ((acknowledge s m.qos id).map fun (s, written) => (.serving s, written)))
  | .reporting s _ =>
    let keepAlive := if p.interests.isEmpty then s.keepAlive.restart w.now else s.keepAlive
    some ({ st with phase := .serving { s with keepAlive } }, [])
  | .losing _ =>
    match st.backoff.next? with
    | some (delay, backoff) => some (⟨.resting (w.now + delay), backoff⟩, [])
    | none => some ({ st with phase := .stopped }, [])
  | _ => none

/-- There is nobody to take the event on offer. -/
def refused? (st : State) : Option Outcome :=
  match st.phase with
  | .announcing => some ({ st with phase := .stopped }, [])
  | .losing _ => some ({ st with phase := .stopped }, [])
  | .welcoming c _ _ => some (leave st c)
  | .delivering s _ _ => some (leave st s.connection)
  | .reporting s _ => some (leave st s.connection)
  | _ => none

/-- The connection of a phase. -/
def Phase.connection? : Phase → Option Connection
  | .greeting c _ => some c
  | .welcoming c _ _ => some c
  | .serving s => some s.connection
  | .delivering s _ _ => some s.connection
  | .reporting s _ => some s.connection
  | _ => none

/-- The phase with another state of its connection; `none` if there is no connection. -/
def Phase.update? (f : Connection → Connection) : Phase → Option Phase
  | .greeting c deadline => some (.greeting (f c) deadline)
  | .welcoming c keepAlive present => some (.welcoming (f c) keepAlive present)
  | .serving s => some (.serving { s with connection := f s.connection })
  | .delivering s m id => some (.delivering { s with connection := f s.connection } m id)
  | .reporting s refused => some (.reporting { s with connection := f s.connection } refused)
  | _ => none

/-- The stream that was asked for is there. -/
def openedAt (p : Subscriber) (w : Surroundings) (st : State) : Outcome :=
  match Connection.begin (p.settings.connect false (some sessionExpiry)) with
  | .error e => ({ st with phase := .losing e }, [.hangUp])
  | .ok (c, bytes) =>
    ({ st with phase := .greeting c (w.now + p.settings.connectTimeout) }, [.write bytes])

/-- The broker's first packet. -/
def greeted? (p : Subscriber) (st : State) (c : Connection) : Option Outcome :=
  match c.receive with
  | .error e => some ({ st with phase := .losing e }, [.hangUp])
  | .ok none => none
  | .ok (some (packet, c)) =>
    match c.greet packet with
    | .error e => some ({ st with phase := .losing e }, [.hangUp])
    | .ok (c, a) =>
      let keepAlive := a.properties.serverKeepAlive.getD p.settings.keepAlive
      some (⟨.welcoming c keepAlive a.sessionPresent, st.backoff.reset⟩, [.count .sessionConnected])

/-- A packet while the subscriptions are served. -/
def served? (p : Subscriber) (st : State) (s : Serving) : Option Outcome :=
  match s.connection.receive with
  | .error e => some (drop st [] e)
  | .ok none => none
  | .ok (some (packet, c)) =>
    let (before, next) := p.onPacket { s with connection := c } packet
    some (proceed st before next)

/-- The next question to the broker. -/
def pinged (w : Surroundings) (st : State) (s : Serving) : Outcome :=
  match s.keepAlive.tick? w.now with
  | none => drop st [] (.timeout .pingResp)
  | some keepAlive =>
    proceed st [] ((s.connection.send .pingReq).map fun b =>
      (.serving { s with keepAlive }, [.write b]))

/-- What is told about the stream or the time; `none` if the subscriber does not wait for it. -/
def link? (p : Subscriber) (w : Surroundings) (st : State) : LinkInput → Option Outcome
  | .arrived bytes => (st.phase.update? (·.arrive bytes)).map fun phase => ({ st with phase }, [])
  | .ended => (st.phase.update? (·.endWith .streamEnded)).map fun phase => ({ st with phase }, [])
  | .failed cause => (st.phase.update? (·.failWith cause)).map fun phase => ({ st with phase }, [])
  | .opened =>
    match st.phase with
    | .opening _ => some (p.openedAt w st)
    | _ => none
  | .notOpened e =>
    match st.phase with
    | .opening _ => some ({ st with phase := .losing e }, [])
    | _ => none
  | .packet =>
    match st.phase with
    | .greeting c _ => p.greeted? st c
    | .serving s => p.served? st s
    | _ => none
  | .ping =>
    match st.phase with
    | .serving s => if s.keepAlive.isDue w.now then some (pinged w st s) else none
    | _ => none
  | .timeUp =>
    match st.phase with
    | .opening deadline =>
      if deadline ≤ w.now then some ({ st with phase := .losing (.timeout .connection) }, [])
      else none
    | .greeting c deadline =>
      if deadline ≤ w.now ∧ c.isWaiting then
        some ({ st with phase := .losing (.timeout .connAck) }, [.hangUp])
      else none
    | .resting wake =>
      if wake ≤ w.now then
        some ({ st with phase := if w.shutdown then .stopped else .announcing },
          [.count (.counted .sessionReconnects p.settings.name)])
      else none
    | _ => none
  | .shutdown =>
    match st.phase with
    | .serving s => if w.shutdown then some (leave st s.connection) else none
    | .resting _ => if w.shutdown then some ({ st with phase := .stopped }, []) else none
    | _ => none

/-- What a subscriber is told. -/
inductive Input where
  /-- The event on offer has been taken. -/
  | taken
  /-- There is nobody to take it. -/
  | refused
  | link (i : LinkInput)
  deriving DecidableEq, Repr

/-- What an input does; `none` if the subscriber does not wait for it. -/
def step? (p : Subscriber) (w : Surroundings) (st : State) : Input → Option Outcome
  | .taken => p.taken? w st
  | .refused => refused? st
  | .link i => p.link? w st i

/-- The inputs that need nobody else, in the order in which they are looked at. -/
def ownInputs : List LinkInput := [.shutdown, .packet, .timeUp, .ping]

/-- What the first input does that needs nobody else. -/
def ready? (p : Subscriber) (w : Surroundings) (st : State) : Option Outcome :=
  ownInputs.findSome? (p.link? w st)

end Subscriber

end TopicBridge
