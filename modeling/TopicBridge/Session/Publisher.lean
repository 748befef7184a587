/-
**The publisher of a flow.**

A publisher connects to the broker that messages go to and publishes what is in the queue, one
message after the other: while one awaits its acknowledgement no other is sent, so that the order
is kept.  A message whose publication fails is counted and not tried again.  The publisher ends
when it finds no message and the queue is closed; a signal to stop ends it only while it has no
connection.

Like the subscriber it is a machine that waits in one of a few phases.

Main definitions:

* `TopicBridge.Publisher` — what does not change while it runs;
* `Publisher.Phase`, `Publisher.Phase.status` — the places where it waits, and what is said of them;
* `Publisher.publish` — the packet that a message becomes;
* `Publisher.step?` — what an input does; `none` if the publisher does not wait for it;
* `Publisher.ready?` — an input that needs nobody else.
-/

import TopicBridge.Rule.Compiled
import TopicBridge.Session.KeepAlive
import TopicBridge.Session.Link
import TopicBridge.Session.Message
import TopicBridge.Session.Settings

set_option autoImplicit false

namespace TopicBridge

open Mqtt

/-- What does not change while a publisher runs. -/
structure Publisher where
  settings : SessionSettings
  flow : Flow
  /-- The name of the relay, if it is to mark its messages. -/
  relayId : Option String
  /-- How long an acknowledgement is waited for. -/
  ackTimeout : Millis

namespace Publisher

/-- A publisher whose broker has accepted the connection. -/
structure Pumping where
  connection : Connection
  keepAlive : KeepAlive

/-- A message that awaits its acknowledgement. -/
structure InFlight where
  id : UInt16
  qos : QoS
  since : Millis
  deadline : Millis
  deriving DecidableEq, Repr

/-- The places where a publisher waits. -/
inductive Phase where
  /-- Has not looked at anything yet. -/
  | starting
  /-- Waits for a stream. -/
  | opening (deadline : Millis)
  /-- Waits for the broker's first packet. -/
  | greeting (c : Connection) (deadline : Millis)
  /-- Waits for a message, or for the broker. -/
  | pumping (s : Pumping)
  /-- Waits for an acknowledgement. -/
  | settling (s : Pumping) (f : InFlight)
  /-- Waits before it connects again, because of a failure. -/
  | resting (wake : Millis) (cause : SessionError)
  | closed

/-- What is said of a phase. -/
def Phase.status : Phase → SessionStatus
  | starting => .disconnected
  | opening _ => .connecting
  | greeting _ _ => .connecting
  | pumping _ => .connected
  | settling _ _ => .connected
  | resting _ _ => .backoff
  | closed => .closed

/-- How far a publisher is. -/
structure State where
  phase : Phase
  backoff : Backoff

/-- What an input does. -/
abbrev Outcome := State × List Effect

/-- A publisher that has just been started. -/
def start (p : Publisher) : State := ⟨.starting, p.settings.backoff⟩

/-- Whether a publisher has come to its end. -/
def State.isClosed (st : State) : Bool := st.phase.status = .closed

/-! ### Publications -/

/-- The packet that a message becomes.  The broker's limits bound its quality of service and its
retain flag, and the relay adds its mark. -/
def publish (p : Publisher) (l : ServerLimits) (m : Message) (id : UInt16) : Publish :=
  let qos := min m.qos l.maximumQoS
  { dup := false
    qos
    retain := m.retain && l.retainAvailable
    topic := m.topic
    packetId := if qos = .atMostOnce then none else some id
    payload := m.payload
    properties := { m.properties with
      userProperties := m.properties.userProperties ++
        (p.relayId.map fun relay => (Message.originKey, relay)).toList } }

/-- A message has been published. -/
def forwarded (p : Publisher) (took : Millis) : Effect :=
  .count (.forwarded p.flow.text ((UInt64.ofNat took).toFloat / 1000))

/-- A message has not been published. -/
def failed (p : Publisher) : Effect := .count (.counted .publishFailures p.flow.text)

/-- What an acknowledgement means for the message in flight. -/
inductive Progress where
  /-- Nothing. -/
  | unchanged
  /-- The broker has the message, and awaits its release. -/
  | received
  /-- The exchange is over. -/
  | settled (code : ReasonCode)
  /-- The broker ends the connection. -/
  | disconnected (code : ReasonCode)
  deriving DecidableEq, Repr

/-- What a packet means for the message in flight. -/
def InFlight.progress (f : InFlight) : Packet → Progress
  | .pubAck a =>
    if f.qos = .atLeastOnce ∧ a.packetId = f.id then .settled a.reasonCode else .unchanged
  | .pubRec a =>
    if f.qos = .exactlyOnce ∧ a.packetId = f.id then
      if a.reasonCode.isSuccess then .received else .settled a.reasonCode
    else .unchanged
  | .pubComp a =>
    if f.qos = .exactlyOnce ∧ a.packetId = f.id then .settled a.reasonCode else .unchanged
  | .disconnect d => .disconnected d.reasonCode
  | _ => .unchanged

/-- The acknowledgement that a message in flight awaits. -/
def InFlight.awaited (f : InFlight) : Awaited :=
  if f.qos = .exactlyOnce then .pubComp else .pubAck

/-! ### Steps -/

/-- The broker is there: an open question counts as answered. -/
def Pumping.answered (s : Pumping) : Pumping := { s with keepAlive := s.keepAlive.answered }

/-- Waits before the next attempt. -/
def rest (w : Surroundings) (st : State) (effects : List Effect) (e : SessionError) : Outcome :=
  match st.backoff.next? with
  | some (delay, backoff) => (⟨.resting (w.now + delay) e, backoff⟩, effects)
  | none => ({ st with phase := .closed }, effects)

/-- The connection that the broker had accepted is lost. -/
def drop (w : Surroundings) (st : State) (before : List Effect) (e : SessionError) : Outcome :=
  rest w st (before ++ [.count .sessionDisconnected, .hangUp]) e

/-- The publisher takes its leave of the broker. -/
def leave (st : State) (c : Connection) : Outcome :=
  ({ st with phase := .closed },
    .count .sessionDisconnected :: (c.farewell.map Effect.write).toList ++ [.hangUp])

/-- The publisher connects, unless it is to stop or there is nothing left to do. -/
def connect (p : Publisher) (w : Surroundings) (drained : Bool) (st : State)
    (before : List Effect) : Outcome :=
  if w.shutdown || drained then ({ st with phase := .closed }, before)
  else ({ st with phase := .opening (w.now + p.settings.connectTimeout) }, before ++ [.dial])

/-- A message is sent. -/
def sendMessage (p : Publisher) (w : Surroundings) (st : State) (s : Pumping) (m : Message) :
    Outcome :=
  let qos := min m.qos s.connection.limits.maximumQoS
  let (id, c) := if qos = .atMostOnce then (0, s.connection) else s.connection.allocateId
  let s := { s with connection := c }
  match c.send (.publish (p.publish c.limits m id)) with
  | .error (.packetTooLarge _ _) => ({ st with phase := .pumping s.answered }, [p.failed])
  | .error e => drop w st [p.failed] e
  | .ok bytes =>
    if qos = .atMostOnce then
      ({ st with phase := .pumping s.answered }, [.write bytes, p.forwarded 0])
    else
      ({ st with phase := .settling s ⟨id, qos, w.now, w.now + p.ackTimeout⟩ }, [.write bytes])

/-- The connection of a phase. -/
def Phase.connection? : Phase → Option Connection
  | .greeting c _ => some c
  | .pumping s => some s.connection
  | .settling s _ => some s.connection
  | _ => none

/-- The phase with another state of its connection; `none` if there is no connection. -/
def Phase.update? (f : Connection → Connection) : Phase → Option Phase
  | .greeting c deadline => some (.greeting (f c) deadline)
  | .pumping s => some (.pumping { s with connection := f s.connection })
  | .settling s m => some (.settling { s with connection := f s.connection } m)
  | _ => none

/-- The stream that was asked for is there. -/
def openedAt (p : Publisher) (w : Surroundings) (st : State) : Outcome :=
  match Connection.begin (p.settings.connect true none) with
  | .error e => rest w st [.hangUp] e
  | .ok (c, bytes) =>
    ({ st with phase := .greeting c (w.now + p.settings.connectTimeout) }, [.write bytes])

/-- The broker's first packet. -/
def greeted? (p : Publisher) (w : Surroundings) (st : State) (c : Connection) : Option Outcome :=
  match c.receive with
  | .error e => some (rest w st [.hangUp] e)
  | .ok none => none
  | .ok (some (packet, c)) =>
    match c.greet packet with
    | .error e => some (rest w st [.hangUp] e)
    | .ok (c, a) =>
      let keepAlive := a.properties.serverKeepAlive.getD p.settings.keepAlive
      some (⟨.pumping ⟨c, .start keepAlive w.now⟩, st.backoff.reset⟩, [.count .sessionConnected])

/-- A packet while no message is in flight. -/
def idlePacket? (w : Surroundings) (st : State) (s : Pumping) : Option Outcome :=
  match s.connection.receive with
  | .error e => some (drop w st [] e)
  | .ok none => none
  | .ok (some (packet, c)) =>
    let s := { s with connection := c }
    match packet with
    | .pingResp => some ({ st with phase := .pumping s.answered }, [])
    | .disconnect d => some (drop w st [] (.disconnected d.reasonCode))
    | _ => some ({ st with phase := .pumping s }, [])

/-- A packet while a message is in flight. -/
def ackPacket? (p : Publisher) (w : Surroundings) (st : State) (s : Pumping) (f : InFlight) :
    Option Outcome :=
  match s.connection.receive with
  | .error e => some (drop w st [p.failed] e)
  | .ok none => none
  | .ok (some (packet, c)) =>
    let s := { s with connection := c }
    match f.progress packet with
    | .unchanged => some ({ st with phase := .settling s f }, [])
    | .disconnected code => some (drop w st [p.failed] (.disconnected code))
    | .settled code =>
      some ({ st with phase := .pumping s.answered },
        [if code.isSuccess then p.forwarded (w.now - f.since) else p.failed])
    | .received =>
      match c.send (.pubRel ⟨f.id, .success⟩) with
      | .error e => some (drop w st [p.failed] e)
      | .ok bytes => some ({ st with phase := .settling s f }, [.write bytes])

/-- The next question to the broker. -/
def pinged (w : Surroundings) (st : State) (s : Pumping) : Outcome :=
  match s.keepAlive.tick? w.now with
  | none => drop w st [] (.timeout .pingResp)
  | some keepAlive =>
    match s.connection.send .pingReq with
    | .error e => drop w st [] e
    | .ok bytes => ({ st with phase := .pumping { s with keepAlive } }, [.write bytes])

/-- What is told about the stream or the time; `none` if the publisher does not wait for it.
Whether the queue is `drained` matters before it connects. -/
def link? (p : Publisher) (w : Surroundings) (drained : Bool) (st : State) :
    LinkInput → Option Outcome
  | .arrived bytes => (st.phase.update? (·.arrive bytes)).map fun phase => ({ st with phase }, [])
  | .ended => (st.phase.update? (·.endWith .streamEnded)).map fun phase => ({ st with phase }, [])
  | .failed cause => (st.phase.update? (·.failWith cause)).map fun phase => ({ st with phase }, [])
  | .opened =>
    match st.phase with
    | .opening _ => some (p.openedAt w st)
    | _ => none
  | .notOpened e =>
    match st.phase with
    | .opening _ => some (rest w st [] e)
    | _ => none
  | .packet =>
    match st.phase with
    | .greeting c _ => p.greeted? w st c
    | .pumping s => idlePacket? w st s
    | .settling s f => p.ackPacket? w st s f
    | _ => none
  | .ping =>
    match st.phase with
    | .pumping s => if s.keepAlive.isDue w.now then some (pinged w st s) else none
    | _ => none
  | .timeUp =>
    match st.phase with
    | .starting => some (p.connect w drained st [])
    | .opening deadline =>
      if deadline ≤ w.now then some (rest w st [] (.timeout .connection)) else none
    | .greeting c deadline =>
      if deadline ≤ w.now ∧ c.isWaiting then some (rest w st [.hangUp] (.timeout .connAck))
      else none
    | .settling s f =>
      if f.deadline ≤ w.now ∧ s.connection.isWaiting then
        some (drop w st [p.failed] (.timeout f.awaited))
      else none
    | .resting wake _ =>
      if wake ≤ w.now then
        some (p.connect w drained st [.count (.counted .sessionReconnects p.settings.name)])
      else none
    | _ => none
  | .shutdown =>
    match st.phase with
    | .resting _ _ => if w.shutdown then some ({ st with phase := .closed }, []) else none
    | _ => none

/-- What a publisher is told. -/
inductive Input where
  /-- The next message of the queue. -/
  | next (m : Message)
  /-- No message has been found, and the queue is closed. -/
  | drained
  | link (i : LinkInput)
  deriving DecidableEq, Repr

/-- What an input does; `none` if the publisher does not wait for it. -/
def step? (p : Publisher) (w : Surroundings) (drained : Bool) (st : State) :
    Input → Option Outcome
  | .next m =>
    match st.phase with
    | .pumping s => some (p.sendMessage w st s m)
    | _ => none
  | .drained =>
    match st.phase with
    | .pumping s => some (leave st s.connection)
    | _ => none
  | .link i => p.link? w drained st i

/-- Whether a publisher waits for a message. -/
def State.isIdle (st : State) : Bool :=
  match st.phase with
  | .pumping _ => true
  | _ => false

/-- The inputs that need nobody else, in the order in which they are looked at. -/
def ownInputs : List LinkInput := [.shutdown, .packet, .timeUp, .ping]

/-- What the first input does that needs nobody else. -/
def ready? (p : Publisher) (w : Surroundings) (drained : Bool) (st : State) : Option Outcome :=
  ownInputs.findSome? (p.link? w drained st)

end Publisher

end TopicBridge
