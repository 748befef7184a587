/-
**Packets from bytes.**

A client reads the packets with which a broker answers and those that either side may send.

Main definitions:

* `TopicBridge.Mqtt.Packet.ofFrame` — the packet of a frame;
* `TopicBridge.Mqtt.Decoder` — a limit on the size of a packet;
* `Decoder.decode` — the packet at the front of the bytes received;
* `Decoder.drain` — all packets that are there as a whole, the error that stops, and what is left.

Main results:

* `Decoder.length_of_decode` — a packet takes at least two bytes.
-/

import TopicBridge.Mqtt.Frame
import TopicBridge.Mqtt.Packet

set_option autoImplicit false

namespace TopicBridge.Mqtt

/-! ### Bodies -/

/-- A property list that may be left out at the end of a body. -/
def Properties.readOptional : Reader Properties := do
  if ← Reader.atEnd then return {} else read

/-- The body of `ConnAck`. -/
def ConnAck.read (flags : UInt8) : Reader ConnAck := do
  if flags ≠ 0 then throw .invalidFlags
  let acknowledge ← Reader.byte
  if acknowledge &&& 0xFE ≠ 0 then throw .invalidFlags
  let code ← Reader.byte
  let properties ← Properties.readOptional
  return ⟨acknowledge &&& 1 ≠ 0, ⟨code⟩, properties⟩

/-- The identifier of a message that is to be acknowledged. -/
def Publish.readId (qos : QoS) : Reader (Option UInt16) := do
  if qos = .atMostOnce then return none
  let id ← Reader.twoBytes
  if id = 0 then throw (.malformedPacket .zeroPacketId)
  return some id

/-- The body of a message, whose flags are in the first byte. -/
def Publish.read (flags : UInt8) : Reader Publish := do
  let bits := (flags >>> 1) &&& 3
  match QoS.ofNat? bits.toNat with
  | none => throw (.invalidQoS bits)
  | some qos => do
    let dup := flags &&& 8 ≠ 0
    if qos = .atMostOnce ∧ dup then throw (.malformedPacket .duplicateAtMostOnce)
    let topic ← Reader.text
    if '+' ∈ topic.toList ∨ '#' ∈ topic.toList then throw (.malformedPacket .wildcardInTopic)
    let packetId ← Publish.readId qos
    let properties ← Properties.read
    if topic = "" then throw (.malformedPacket .emptyTopic)
    let payload ← Reader.rest
    return { dup, qos, retain := flags &&& 1 ≠ 0, topic, packetId, payload, properties }

/-- The body of an acknowledgement: the code and the properties may be left out, and the
properties are read but not kept. -/
def Ack.read (expected flags : UInt8) : Reader Ack := do
  if flags ≠ expected then throw .invalidFlags
  let packetId ← Reader.twoBytes
  let code ← (do if ← Reader.atEnd then return 0 else Reader.byte)
  let _ ← Properties.readOptional
  return ⟨packetId, ⟨code⟩⟩

/-- The body of `SubAck`. -/
def SubAck.read (flags : UInt8) : Reader SubAck := do
  if flags ≠ 0 then throw .invalidFlags
  let packetId ← Reader.twoBytes
  let properties ← Properties.read
  let codes ← Reader.rest
  if codes.isEmpty then throw (.malformedPacket .noReasonCodes)
  return ⟨packetId, codes.map ReasonCode.mk, properties⟩

/-- The body of `Disconnect`, all of which may be left out. -/
def Disconnect.read (flags : UInt8) : Reader Disconnect := do
  if flags ≠ 0 then throw .invalidFlags
  if ← Reader.atEnd then return {}
  let code ← Reader.byte
  let properties ← Properties.readOptional
  return ⟨⟨code⟩, properties⟩

/-- The body of an answer to a ping, in which nothing is looked for. -/
def Packet.readPingResp (flags : UInt8) : Reader Packet := do
  if flags ≠ 0 then throw .invalidFlags
  return .pingResp

/-! ### Packets -/

namespace Packet

/-- How the body of each type is read. -/
def reader (type flags : UInt8) : Reader Packet :=
  match type with
  | 2 => do return connAck (← ConnAck.read flags)
  | 3 => do return publish (← Publish.read flags)
  | 4 => do return pubAck (← Ack.read 0 flags)
  | 5 => do return pubRec (← Ack.read 0 flags)
  | 6 => do return pubRel (← Ack.read 2 flags)
  | 7 => do return pubComp (← Ack.read 0 flags)
  | 9 => do return subAck (← SubAck.read flags)
  | 13 => readPingResp flags
  | 14 => do return disconnect (← Disconnect.read flags)
  | other => throw (.unexpectedPacketType other)

/-- The packet of a frame.  Bytes behind its last field are not looked at. -/
def ofFrame (f : Frame) : Except DecodeError Packet := (reader f.type f.flags).value f.body

end Packet

/-! ### Streams -/

/-- Reads packets up to a size. -/
structure Decoder where
  /-- The largest size of a packet, header included. -/
  limit : Nat
  deriving DecidableEq, Repr

/-- What a stream of bytes has been read as. -/
structure Decoded where
  /-- The packets, in order. -/
  packets : List Packet
  /-- The error that stopped. -/
  error? : Option DecodeError
  /-- The bytes of which no packet has been read yet. -/
  rest : Bytes
  deriving DecidableEq, Repr

namespace Decoder

/-- The size of the largest packet that the protocol admits. -/
def maxPacketSize : Nat := 1 + 4 + VarInt.maxValue

/-- One mebibyte, unless the limit is set. -/
instance : Inhabited Decoder := ⟨⟨1024 * 1024⟩⟩

/-- A decoder with a given limit, which no limit above the largest packet exceeds. -/
def withLimit (limit : Nat) : Decoder := ⟨min limit maxPacketSize⟩

/-- The packet at the front of the bytes received, and what follows it; `none` as long as it is not
complete. -/
def decode (d : Decoder) (bytes : Bytes) : Except DecodeError (Option (Packet × Bytes)) :=
  match Frame.split d.limit bytes with
  | .error e => .error e
  | .ok none => .ok none
  | .ok (some (frame, rest)) =>
    match Packet.ofFrame frame with
    | .error e => .error e
    | .ok packet => .ok (some (packet, rest))

/-- A packet takes at least two bytes. -/
theorem length_of_decode {d : Decoder} {bytes rest : Bytes} {p : Packet}
    (h : d.decode bytes = .ok (some (p, rest))) : rest.length + 2 ≤ bytes.length := by
  simp only [decode] at h
  split at h
  · cases h
  · cases h
  · rename_i hs
    split at h
    · cases h
    · cases h
      exact Frame.length_of_split hs

/-- All packets of `bytes` behind `seen`, latest first. -/
def drainFrom (d : Decoder) (seen : List Packet) (bytes : Bytes) : Decoded :=
  match _h : d.decode bytes with
  | .error e => ⟨seen.reverse, some e, bytes⟩
  | .ok none => ⟨seen.reverse, none, bytes⟩
  | .ok (some (packet, rest)) => d.drainFrom (packet :: seen) rest
termination_by bytes.length
decreasing_by
  have := length_of_decode (by assumption)
  omega

/-- All packets that are there as a whole.  An error takes nothing from the bytes received. -/
def drain (d : Decoder) (bytes : Bytes) : Decoded := d.drainFrom [] bytes

end Decoder

end TopicBridge.Mqtt
