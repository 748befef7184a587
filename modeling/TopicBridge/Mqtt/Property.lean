/-
**The entries of a property list.**

A property list is a sequence of entries: an identifier of one byte and a value whose form depends
on the identifier alone.  The standard has 27 identifiers and 7 forms.

Main definitions:

* `TopicBridge.Mqtt.ValueForm`, `ValueForm.Value` — the seven forms and the values of each;
* `ValueForm.read`, `ValueForm.write`, `ValueForm.size` — reading, writing and measuring a value;
* `TopicBridge.Mqtt.PropertyId` — the identifiers, with their `code` and `form`;
* `TopicBridge.Mqtt.Property` — an entry, with `Property.read`, `Property.write`, `Property.size`.

Main results:

* `PropertyId.ofCode?_code` — an identifier is found by its code;
* `Property.read_shortens` — an entry takes at least two bytes.
-/

import TopicBridge.Mqtt.Reader

set_option autoImplicit false

namespace TopicBridge.Mqtt

/-! ### Fields preceded by their length -/

/-- Bytes preceded by their number in two bytes; more than 65535 are refused. -/
def writeBinary (bytes : Bytes) : Except EncodeError Bytes :=
  if bytes.length ≤ 65535 then .ok (Bytes.ofUInt16 (UInt16.ofNat bytes.length) ++ bytes)
  else .error .stringTooLong

/-- A text preceded by the length of its UTF-8 form. -/
def writeText (s : String) : Except EncodeError Bytes := writeBinary (Bytes.ofString s)

/-! ### The forms of a value -/

/-- The forms that the value of a property can take. -/
inductive ValueForm where
  | byte
  | twoBytes
  | fourBytes
  | varInt
  | text
  | binary
  | textPair
  deriving DecidableEq, Repr

namespace ValueForm

/-- The values of a form. -/
def Value : ValueForm → Type
  | byte => UInt8
  | twoBytes => UInt16
  | fourBytes => UInt32
  | varInt => UInt32
  | text => String
  | binary => Bytes
  | textPair => String × String

/-- The value at the front of the bytes that are left. -/
def read : (form : ValueForm) → Reader form.Value
  | byte => Reader.byte
  | twoBytes => Reader.twoBytes
  | fourBytes => Reader.fourBytes
  | varInt => do return UInt32.ofNat (← Reader.varInt)
  | text => Reader.text
  | binary => Reader.binary
  | textPair => do
    let key ← Reader.text
    let value ← Reader.text
    return (key, value)

/-- The bytes of a value. -/
def write : (form : ValueForm) → form.Value → Except EncodeError Bytes
  | byte, v => .ok [v]
  | twoBytes, v => .ok (Bytes.ofUInt16 v)
  | fourBytes, v => .ok (Bytes.ofUInt32 v)
  | varInt, v => VarInt.write v
  | text, v => writeText v
  | binary, v => writeBinary v
  | textPair, (key, value) => do
    let k ← writeText key
    let v ← writeText value
    return k ++ v

/-- The number of bytes that a value takes. -/
def size : (form : ValueForm) → form.Value → Nat
  | byte, _ => 1
  | twoBytes, _ => 2
  | fourBytes, _ => 4
  | varInt, v => VarInt.size v
  | text, v => 2 + v.utf8ByteSize
  | binary, v => 2 + v.length
  | textPair, (key, value) => 4 + key.utf8ByteSize + value.utf8ByteSize

theorem read_shortens (form : ValueForm) : Reader.Shortens 1 form.read := by
  cases form with
  | byte => exact Reader.byte_shortens
  | twoBytes => exact Reader.twoBytes_shortens.mono (by decide)
  | fourBytes => exact Reader.fourBytes_shortens.mono (by decide)
  | varInt => exact Reader.map_shortens Reader.varInt_shortens
  | text => exact Reader.text_shortens.mono (by decide)
  | binary => exact Reader.binary_shortens.mono (by decide)
  | textPair =>
    refine Reader.Shortens.mono (n := 2 + (2 + 0)) ?_ (by decide)
    exact Reader.bind_shortens Reader.text_shortens fun _ =>
      Reader.bind_shortens Reader.text_shortens fun _ => Reader.pure_shortens _

end ValueForm

/-! ### Identifiers -/

/-- The identifiers of the standard. -/
inductive PropertyId where
  | payloadFormatIndicator
  | messageExpiryInterval
  | contentType
  | responseTopic
  | correlationData
  | subscriptionIdentifier
  | sessionExpiryInterval
  | assignedClientIdentifier
  | serverKeepAlive
  | authenticationMethod
  | authenticationData
  | requestProblemInformation
  | willDelayInterval
  | requestResponseInformation
  | responseInformation
  | serverReference
  | reasonString
  | receiveMaximum
  | topicAliasMaximum
  | topicAlias
  | maximumQoS
  | retainAvailable
  | userProperty
  | maximumPacketSize
  | wildcardSubscriptionAvailable
  | subscriptionIdentifiersAvailable
  | sharedSubscriptionAvailable
  deriving DecidableEq, Repr

namespace PropertyId

/-- The byte that stands for an identifier. -/
def code : PropertyId → UInt8
  | payloadFormatIndicator => 0x01
  | messageExpiryInterval => 0x02
  | contentType => 0x03
  | responseTopic => 0x08
  | correlationData => 0x09
  | subscriptionIdentifier => 0x0B
  | sessionExpiryInterval => 0x11
  | assignedClientIdentifier => 0x12
  | serverKeepAlive => 0x13
  | authenticationMethod => 0x15
  | authenticationData => 0x16
  | requestProblemInformation => 0x17
  | willDelayInterval => 0x18
  | requestResponseInformation => 0x19
  | responseInformation => 0x1A
  | serverReference => 0x1C
  | reasonString => 0x1F
  | receiveMaximum => 0x21
  | topicAliasMaximum => 0x22
  | topicAlias => 0x23
  | maximumQoS => 0x24
  | retainAvailable => 0x25
  | userProperty => 0x26
  | maximumPacketSize => 0x27
  | wildcardSubscriptionAvailable => 0x28
  | subscriptionIdentifiersAvailable => 0x29
  | sharedSubscriptionAvailable => 0x2A

/-- The form of an identifier's value. -/
def form : PropertyId → ValueForm
  | payloadFormatIndicator => .byte
  | messageExpiryInterval => .fourBytes
  | contentType => .text
  | responseTopic => .text
  | correlationData => .binary
  | subscriptionIdentifier => .varInt
  | sessionExpiryInterval => .fourBytes
  | assignedClientIdentifier => .text
  | serverKeepAlive => .twoBytes
  | authenticationMethod => .text
  | authenticationData => .binary
  | requestProblemInformation => .byte
  | willDelayInterval => .fourBytes
  | requestResponseInformation => .byte
  | responseInformation => .text
  | serverReference => .text
  | reasonString => .text
  | receiveMaximum => .twoBytes
  | topicAliasMaximum => .twoBytes
  | topicAlias => .twoBytes
  | maximumQoS => .byte
  | retainAvailable => .byte
  | userProperty => .textPair
  | maximumPacketSize => .fourBytes
  | wildcardSubscriptionAvailable => .byte
  | subscriptionIdentifiersAvailable => .byte
  | sharedSubscriptionAvailable => .byte

/-- Every identifier, by increasing code. -/
def all : List PropertyId :=
  [payloadFormatIndicator, messageExpiryInterval, contentType, responseTopic, correlationData,
    subscriptionIdentifier, sessionExpiryInterval, assignedClientIdentifier, serverKeepAlive,
    authenticationMethod, authenticationData, requestProblemInformation, willDelayInterval,
    requestResponseInformation, responseInformation, serverReference, reasonString,
    receiveMaximum, topicAliasMaximum, topicAlias, maximumQoS, retainAvailable, userProperty,
    maximumPacketSize, wildcardSubscriptionAvailable, subscriptionIdentifiersAvailable,
    sharedSubscriptionAvailable]

/-- The identifier that a byte stands for. -/
def ofCode? (c : UInt8) : Option PropertyId := all.find? fun id => id.code == c

@[simp] theorem ofCode?_code (id : PropertyId) : ofCode? id.code = some id := by
  cases id <;> rfl

theorem code_of_ofCode? {c : UInt8} {id : PropertyId} (h : ofCode? c = some id) : id.code = c := by
  have := List.find?_some h
  simpa using this

end PropertyId

/-! ### Entries -/

/-- An entry of a property list. -/
structure Property where
  /-- What the entry is about. -/
  id : PropertyId
  /-- Its value, of the form that the identifier has. -/
  value : id.form.Value

namespace Property

/-- The entry at the front of the bytes that are left. -/
def read : Reader Property := do
  let c ← Reader.byte
  match PropertyId.ofCode? c with
  | none => throw (.invalidPropertyId c)
  | some id => do
    let v ← id.form.read
    return ⟨id, v⟩

/-- The bytes of an entry. -/
def write (p : Property) : Except EncodeError Bytes := do
  let v ← p.id.form.write p.value
  return p.id.code :: v

/-- The number of bytes that an entry takes. -/
def size (p : Property) : Nat := 1 + p.id.form.size p.value

theorem read_shortens : Reader.Shortens 1 read := by
  refine Reader.bind_shortens (n := 1) (k := 0) Reader.byte_shortens fun c => ?_
  split
  · exact Reader.throw_shortens _ _
  · rename_i id _
    exact (Reader.map_shortens (ValueForm.read_shortens id.form)).mono (Nat.zero_le _)

end Property

end TopicBridge.Mqtt
