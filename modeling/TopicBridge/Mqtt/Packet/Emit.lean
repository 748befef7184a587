/-
**Packets in a buffer.**

A connection writes its packets into a buffer, field by field and in the order in which the fields
stand on the wire.  Each field is written as a whole or refused, but a field that is refused does
not take back what stands in front of it: the buffer then ends with the beginning of a packet.

Main definitions:

* `TopicBridge.Mqtt.Writer` — a computation that writes to the end of a buffer;
* `Writer.bytes`, `Writer.field` — bytes as they are, and a field that may be refused;
* `Properties.emit` — a property list, entry by entry;
* `Packet.emit` — a packet.
-/

import TopicBridge.Mqtt.Packet.Encode

set_option autoImplicit false

namespace TopicBridge.Mqtt

/-- A computation that writes to the end of a buffer. -/
abbrev Writer := EStateM EncodeError Bytes

/-- Writes bytes as they are. -/
def Writer.bytes (bytes : Bytes) : Writer Unit := fun buffer => .ok () (buffer ++ bytes)

/-- Writes a field, unless it is refused. -/
def Writer.field : Except EncodeError Bytes → Writer Unit
  | .ok written => .bytes written
  | .error e => fun buffer => .error e buffer

/-! ### Property lists -/

/-- Writes a value; of two texts the first is written before the second is looked at. -/
def ValueForm.emit : (form : ValueForm) → form.Value → Writer Unit
  | byte, v => .bytes [v]
  | twoBytes, v => .bytes (Bytes.ofUInt16 v)
  | fourBytes, v => .bytes (Bytes.ofUInt32 v)
  | varInt, v => .field (VarInt.write v)
  | text, v => .field (writeText v)
  | binary, v => .field (writeBinary v)
  | textPair, (key, value) => do
    .field (writeText key)
    .field (writeText value)

/-- Writes an entry of a property list. -/
def Property.emit (e : Property) : Writer Unit := do
  .bytes [e.id.code]
  e.id.form.emit e.value

/-- Writes a property list behind its length. -/
def Properties.emit (p : Properties) : Writer Unit := do
  .field (VarInt.write (UInt32.ofNat p.encodedSize))
  p.toList.forM Property.emit

/-! ### Packets -/

/-- Writes what stands in front of a body of the given length. -/
def Frame.emitHeader (first : UInt8) (length : Nat) : Writer Unit := do
  .bytes [first]
  .field (VarInt.write (UInt32.ofNat length))

/-- Writes a field that may be left out. -/
def Writer.optional {α : Type} (write : α → Except EncodeError Bytes) : Option α → Writer Unit
  | some a => .field (write a)
  | none => pure ()

/-- Writes the packet that opens a session. -/
def Connect.emit (p : Connect) : Writer Unit := do
  Frame.emitHeader 0x10 p.bodySize
  .field (writeText "MQTT")
  .bytes [protocolLevel]
  .bytes [p.flags]
  .bytes (Bytes.ofUInt16 p.keepAlive)
  p.properties.emit
  .field (writeText p.clientId)
  .optional writeText p.username
  .optional writeBinary p.password

/-- Writes a message. -/
def Publish.emit (p : Publish) : Writer Unit := do
  Frame.emitHeader p.first p.bodySize
  .field (writeText p.topic)
  .bytes p.idField
  p.properties.emit
  .bytes p.payload

/-- Writes an acknowledgement; success is not spelled out. -/
def Ack.emit (first : UInt8) (a : Ack) : Writer Unit := do
  .bytes [first]
  if a.reasonCode = .success then
    .bytes [2]
    .bytes (Bytes.ofUInt16 a.packetId)
  else
    .bytes [3]
    .bytes (Bytes.ofUInt16 a.packetId)
    .bytes [a.reasonCode.code]

/-- Writes a filter and its options. -/
def Subscription.emit (s : Subscription) : Writer Unit := do
  .field (writeText s.filter)
  .bytes [s.options]

/-- Writes a request to subscribe. -/
def Subscribe.emit (p : Subscribe) : Writer Unit := do
  Frame.emitHeader 0x82 p.bodySize
  .bytes (Bytes.ofUInt16 p.packetId)
  p.properties.emit
  p.subscriptions.forM Subscription.emit

/-- Writes the packet that ends a connection; success without properties needs no body. -/
def Disconnect.emit (p : Disconnect) : Writer Unit :=
  if p = {} then do
    .bytes [0xE0]
    .bytes [0]
  else do
    Frame.emitHeader 0xE0 p.bodySize
    .bytes [p.reasonCode.code]
    p.properties.emit

/-- Writes a packet.  Of what only brokers send nothing is written. -/
def Packet.emit : Packet → Writer Unit
  | connect p => p.emit
  | publish p => p.emit
  | pubAck a => a.emit 0x40
  | pubRec a => a.emit 0x50
  | pubRel a => a.emit 0x62
  | pubComp a => a.emit 0x70
  | subscribe p => p.emit
  | pingReq => do
    .bytes [0xC0]
    .bytes [0]
  | disconnect p => p.emit
  | p@(connAck _) => .field (.error (.unsupportedPacket p.name))
  | p@(subAck _) => .field (.error (.unsupportedPacket p.name))
  | p@pingResp => .field (.error (.unsupportedPacket p.name))

end TopicBridge.Mqtt
