/-
**A connection to a broker.**

A connection turns packets into bytes and bytes into packets.  It knows what the broker allows, and
refuses to send what is larger; a packet that it refuses leaves no trace on the stream.

Main definitions:

* `TopicBridge.ServerLimits`, `ServerLimits.ofConnAck` — what the broker allows;
* `TopicBridge.Connection` — the client's end of a stream;
* `Connection.send` — the bytes of a packet, or why it cannot be sent;
* `Connection.receive` — the next packet, if it is there as a whole;
* `Connection.begin`, `Connection.greet` — the two halves of opening a connection;
* `Connection.openWith` — both halves, with a broker whose answer is there;
* `Connection.abandon`, `Connection.leave` — the broker or the client closes the stream;
* `Connection.allocateId` — the identifier of the next packet that needs one.

Main results:

* `Connection.allocateId_ne_zero` — no packet has the identifier zero.
-/

import TopicBridge.Mqtt.Packet.Decode
import TopicBridge.Mqtt.Packet.Encode
import TopicBridge.Session.Error

set_option autoImplicit false

namespace TopicBridge

open Mqtt

/-! ### Limits -/

/-- What a broker allows its client to send. -/
structure ServerLimits where
  maximumQoS : QoS := .exactlyOnce
  retainAvailable : Bool := true
  /-- The size of the largest packet, if there is a limit. -/
  maximumPacketSize : Option UInt32 := none
  subscriptionIdentifiers : Bool := true
  deriving DecidableEq, Repr, Inhabited

/-- The limits that the broker's first packet names.  What it does not name it allows. -/
def ServerLimits.ofConnAck (p : Properties) : ServerLimits where
  maximumQoS := (p.maximumQoS.bind fun q => QoS.ofNat? q.toNat).getD .exactlyOnce
  retainAvailable := p.retainAvailable ≠ some 0
  maximumPacketSize := p.maximumPacketSize
  subscriptionIdentifiers := p.subscriptionIdentifiersAvailable ≠ some 0

/-! ### Connections -/

/-- The client's end of a stream. -/
structure Connection where
  decoder : Decoder := default
  /-- The bytes of which no packet has been read yet. -/
  inbound : Bytes := []
  /-- Why no more bytes will come. -/
  ending : Option SessionError := none
  /-- Why nothing can be written any more. -/
  fault : Option String := none
  limits : ServerLimits := {}
  /-- The identifier for the next packet that needs one. -/
  nextId : UInt16 := 1
  nextId_ne : nextId ≠ 0 := by decide

namespace Connection

/-- Bytes come in. -/
def arrive (c : Connection) (bytes : Bytes) : Connection := { c with inbound := c.inbound ++ bytes }

/-- No more bytes come in. -/
def endWith (c : Connection) (e : SessionError) : Connection :=
  { c with ending := c.ending.or (some e) }

/-- The stream fails in both directions. -/
def failWith (c : Connection) (cause : String) : Connection :=
  { c.endWith (.io cause) with fault := some cause }

/-- Whether a packet of a given size may be sent. -/
def admits (l : ServerLimits) (size : Nat) : Bool :=
  match l.maximumPacketSize with
  | some limit => size ≤ limit.toNat
  | none => true

/-- The bytes with which a packet is sent. -/
def send (c : Connection) (p : Packet) : Except SessionError Bytes := do
  let bytes ← p.encode.mapError .encode
  if !admits c.limits bytes.length then
    throw (.packetTooLarge bytes.length ((c.limits.maximumPacketSize.map (·.toNat)).getD 0))
  match c.fault with
  | some cause => throw (.io cause)
  | none => return bytes

/-- The next packet; `none` as long as it is not there as a whole. -/
def receive (c : Connection) : Except SessionError (Option (Packet × Connection)) :=
  match c.decoder.decode c.inbound with
  | .error e => .error (.decode e)
  | .ok (some (packet, rest)) => .ok (some (packet, { c with inbound := rest }))
  | .ok none =>
    match c.ending with
    | some e => .error e
    | none => .ok none

/-- The number of bytes that have been received but not read, if there is a connection. -/
def unread : Option Connection → Nat
  | some c => c.inbound.length
  | none => 0

/-- Whether `receive` would have to wait. -/
def isWaiting (c : Connection) : Bool :=
  match c.receive with
  | .ok none => true
  | _ => false

/-- The identifier that follows another: zero is left out. -/
def nextAfter (id : UInt16) : UInt16 := if id + 1 = 0 then 1 else id + 1

theorem nextAfter_ne (id : UInt16) : nextAfter id ≠ 0 := by
  unfold nextAfter
  split
  · decide
  · assumption

/-- An identifier for a packet. -/
def allocateId (c : Connection) : UInt16 × Connection :=
  (c.nextId, { c with nextId := nextAfter c.nextId, nextId_ne := nextAfter_ne _ })

theorem allocateId_ne_zero (c : Connection) : c.allocateId.1 ≠ 0 := c.nextId_ne

/-- The bytes with which a client takes its leave, if they can be sent. -/
def farewell (c : Connection) : Option Bytes := (c.send (.disconnect {})).toOption

/-! ### Opening a connection -/

/-- A new connection and the bytes of the first packet.  Packets that come in may be as large as
that packet says. -/
def begin (p : Connect) : Except SessionError (Connection × Bytes) := do
  let c : Connection := match p.properties.maximumPacketSize with
    | some limit => { decoder := Decoder.withLimit limit.toNat }
    | none => {}
  let bytes ← c.send (.connect p)
  return (c, bytes)

/-- What the broker's first packet makes of the connection. -/
def greet (c : Connection) (p : Packet) : Except SessionError (Connection × ConnAck) :=
  match p with
  | .connAck a =>
    if a.reasonCode.isSuccess then .ok ({ c with limits := .ofConnAck a.properties }, a)
    else .error (.rejected a.reasonCode)
  | other => .error (.unexpectedGreeting other.name)

/-- Opens a connection to a broker of which all that it will ever send is there: the frames that
the client sends, and the connection or why there is none. -/
def openWith (p : Connect) (reply : Bytes) (ended : Bool) :
    List Bytes × Except SessionError (Connection × ConnAck) :=
  match begin p with
  | .error e => ([], .error e)
  | .ok (c, first) =>
    let c := c.arrive reply
    let c := if ended then c.endWith .streamEnded else c
    ([first], c.receive >>= fun
      | some (answer, c) => c.greet answer
      | none => .error (.timeout .connAck))

/-! ### Closing a connection -/

/-- The broker closes the stream: what it has sent can still be read. -/
def abandon (c : Connection) : Connection :=
  { c.endWith .streamEnded with fault := some "broken pipe" }

/-- The client takes its leave and closes its side of the stream. -/
def leave (c : Connection) : List Bytes × Connection :=
  (c.farewell.toList, { c with fault := some "broken pipe" })

end Connection

end TopicBridge
