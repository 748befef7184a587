/-
**Packets as bytes.**

A client writes every packet but those with which a broker answers.  The length in the header is
computed from the fields before they are written; a field that cannot be written refuses the packet
as a whole.

Main definitions:

* `TopicBridge.Mqtt.Packet.encode` — the frame of a packet;
* `Connect.bodySize`, `Publish.bodySize`, `Subscribe.bodySize`, `Disconnect.bodySize` — the lengths
  that the headers announce.
-/

import TopicBridge.Mqtt.Frame
import TopicBridge.Mqtt.Packet

set_option autoImplicit false

namespace TopicBridge.Mqtt

/-- The version of the protocol: 5. -/
def protocolLevel : UInt8 := 5

/-- The length of a field preceded by its length in two bytes. -/
def textSize (s : String) : Nat := 2 + s.utf8ByteSize

/-! ### Opening a session -/

namespace Connect

/-- The length of the body. -/
def bodySize (p : Connect) : Nat :=
  10 + p.properties.wireSize + textSize p.clientId
    + (p.username.map textSize).getD 0
    + (p.password.map fun bytes => 2 + bytes.length).getD 0

/-- Which of the optional parts follow. -/
def flags (p : Connect) : UInt8 :=
  (2 * p.cleanStart.toNat + 64 * p.password.isSome.toNat + 128 * p.username.isSome.toNat).toUInt8

/-- The frame of the packet. -/
def encode (p : Connect) : Except EncodeError Bytes := do
  let header ← Frame.header 0x10 p.bodySize
  let protocol ← writeText "MQTT"
  let properties ← p.properties.encode
  let clientId ← writeText p.clientId
  let username ← (p.username.map writeText).getD (.ok [])
  let password ← (p.password.map writeBinary).getD (.ok [])
  return header ++ protocol ++ [protocolLevel, p.flags] ++ Bytes.ofUInt16 p.keepAlive ++
    properties ++ clientId ++ username ++ password

end Connect

/-! ### Messages and their acknowledgement -/

namespace Publish

/-- The length of the body. -/
def bodySize (p : Publish) : Nat :=
  textSize p.topic + (if p.qos = .atMostOnce then 0 else 2) + p.properties.wireSize
    + p.payload.length

/-- The first byte: the type, and in the lower half the flags and the quality of service. -/
def first (p : Publish) : UInt8 :=
  (0x30 + 8 * p.dup.toNat + 2 * p.qos.toNat + p.retain.toNat).toUInt8

/-- The identifier, if the message is to be acknowledged. -/
def idField (p : Publish) : Bytes :=
  if p.qos = .atMostOnce then [] else Bytes.ofUInt16 (p.packetId.getD 0)

/-- The frame of the packet. -/
def encode (p : Publish) : Except EncodeError Bytes := do
  let header ← Frame.header p.first p.bodySize
  let topic ← writeText p.topic
  let properties ← p.properties.encode
  return header ++ topic ++ p.idField ++ properties ++ p.payload

end Publish

/-- The frame of an acknowledgement; success is not spelled out. -/
def Ack.encode (first : UInt8) (a : Ack) : Bytes :=
  if a.reasonCode = .success then first :: 2 :: Bytes.ofUInt16 a.packetId
  else first :: 3 :: (Bytes.ofUInt16 a.packetId ++ [a.reasonCode.code])

/-! ### Subscriptions -/

/-- A filter and its options. -/
def Subscription.encode (s : Subscription) : Except EncodeError Bytes := do
  let filter ← writeText s.filter
  return filter ++ [s.options]

namespace Subscribe

/-- The length of the body. -/
def bodySize (p : Subscribe) : Nat :=
  2 + p.properties.wireSize + p.subscriptions.foldr (fun s n => textSize s.filter + 1 + n) 0

/-- The frame of the packet. -/
def encode (p : Subscribe) : Except EncodeError Bytes := do
  let header ← Frame.header 0x82 p.bodySize
  let properties ← p.properties.encode
  let subscriptions ← p.subscriptions.mapM Subscription.encode
  return header ++ Bytes.ofUInt16 p.packetId ++ properties ++ subscriptions.flatten

end Subscribe

/-! ### The end of a connection -/

namespace Disconnect

/-- The length of the body, unless it is left out. -/
def bodySize (p : Disconnect) : Nat := 1 + p.properties.wireSize

/-- The frame of the packet; success without properties needs no body. -/
def encode (p : Disconnect) : Except EncodeError Bytes :=
  if p = {} then .ok [0xE0, 0]
  else do
    let header ← Frame.header 0xE0 p.bodySize
    let properties ← p.properties.encode
    return header ++ [p.reasonCode.code] ++ properties

end Disconnect

/-! ### All packets -/

namespace Packet

/-- The frame of a packet.  What only brokers send has none. -/
def encode : Packet → Except EncodeError Bytes
  | connect p => p.encode
  | publish p => p.encode
  | pubAck a => .ok (a.encode 0x40)
  | pubRec a => .ok (a.encode 0x50)
  | pubRel a => .ok (a.encode 0x62)
  | pubComp a => .ok (a.encode 0x70)
  | subscribe p => p.encode
  | pingReq => .ok [0xC0, 0]
  | disconnect p => p.encode
  | p@(connAck _) => .error (.unsupportedPacket p.name)
  | p@(subAck _) => .error (.unsupportedPacket p.name)
  | p@pingResp => .error (.unsupportedPacket p.name)

end Packet

end TopicBridge.Mqtt
