/-
**Why a packet cannot be read or written.**

Each error is a cause; `message` is its wording.

Main definitions:

* `TopicBridge.Mqtt.DecodeError`, `DecodeError.message` — why bytes are not a packet;
* `TopicBridge.Mqtt.EncodeError`, `EncodeError.message` — why a packet has no bytes.
-/

set_option autoImplicit false

namespace TopicBridge.Mqtt

/-- The ways in which a packet can break a rule that has no error of its own. -/
inductive Malformation where
  /-- A text holds the character U+0000. -/
  | nullCharacter
  /-- A message that needs no acknowledgement is marked as a repetition. -/
  | duplicateAtMostOnce
  /-- The topic of a message holds `+` or `#`. -/
  | wildcardInTopic
  /-- A message that needs an acknowledgement has the identifier zero. -/
  | zeroPacketId
  /-- A message has no topic. -/
  | emptyTopic
  /-- An answer to a subscription grants and refuses nothing. -/
  | noReasonCodes
  deriving DecidableEq, Repr

/-- The wording of a malformation. -/
def Malformation.message : Malformation → String
  | nullCharacter => "string contains null character"
  | duplicateAtMostOnce => "DUP must be 0 for QoS 0"
  | wildcardInTopic => "topic contains wildcard"
  | zeroPacketId => "packet id cannot be 0"
  | emptyTopic => "empty topic name"
  | noReasonCodes => "SUBACK without reason codes"

/-- Why bytes received from a broker are not a packet. -/
inductive DecodeError where
  /-- The bytes end inside a field. -/
  | insufficientData
  /-- A packet type that no broker sends. -/
  | unexpectedPacketType (type : UInt8)
  /-- A length of more than four groups. -/
  | invalidRemainingLength
  /-- A quality of service above two. -/
  | invalidQoS (bits : UInt8)
  /-- A text that is not UTF-8. -/
  | invalidUtf8
  /-- A property that the standard does not define. -/
  | invalidPropertyId (code : UInt8)
  /-- Header bits that the packet type does not allow. -/
  | invalidFlags
  /-- Another rule of the standard is broken. -/
  | malformedPacket (what : Malformation)
  /-- A packet above the size limit. -/
  | packetTooLarge
  deriving DecidableEq, Repr

/-- The wording of a decoding error. -/
def DecodeError.message : DecodeError → String
  | insufficientData => "insufficient data in buffer"
  | unexpectedPacketType type => s!"unexpected packet type: {type.toNat}"
  | invalidRemainingLength => "invalid remaining length encoding"
  | invalidQoS bits => s!"invalid QoS value: {bits.toNat}"
  | invalidUtf8 => "invalid UTF-8 string"
  | invalidPropertyId code => s!"invalid property identifier: {code.toNat}"
  | invalidFlags => "invalid packet flags"
  | malformedPacket what => s!"malformed packet: {what.message}"
  | packetTooLarge => "packet too large"

/-- Why a packet cannot be put on the wire. -/
inductive EncodeError where
  /-- A length above the largest variable byte integer. -/
  | packetTooLarge
  /-- A text or binary field of more than 65535 bytes. -/
  | stringTooLong
  /-- A packet that only brokers send, by name. -/
  | unsupportedPacket (name : String)
  deriving DecidableEq, Repr

/-- The wording of an encoding error. -/
def EncodeError.message : EncodeError → String
  | packetTooLarge => "packet too large"
  | stringTooLong => "string too long"
  | unsupportedPacket name => s!"cannot encode {name} as a client"

end TopicBridge.Mqtt
