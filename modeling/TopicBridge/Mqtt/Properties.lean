/-
**Property lists.**

A packet carries a list of properties, preceded by its length.  The relay keeps the properties that
it acts on or hands on; the others are read in their form and left out.

Main definitions:

* `TopicBridge.Mqtt.Properties` — the properties that are kept;
* `Properties.ofList` — what a sequence of entries means: the last one of each kind counts;
* `Properties.toList` — the entries of a property list in the order in which they are written;
* `Properties.entries` — the entries that a byte string consists of;
* `Properties.read`, `Properties.encode` — reading and writing a list with its length;
* `Properties.encodedSize`, `Properties.wireSize` — its length without and with the prefix;
* `Properties.forwardable` — what travels on with a message.
-/

import TopicBridge.Mqtt.Property

set_option autoImplicit false

namespace TopicBridge.Mqtt

/-- The properties of a packet that are kept. -/
structure Properties where
  payloadFormatIndicator : Option UInt8 := none
  messageExpiryInterval : Option UInt32 := none
  contentType : Option String := none
  responseTopic : Option String := none
  correlationData : Option Bytes := none
  subscriptionIdentifiers : List UInt32 := []
  sessionExpiryInterval : Option UInt32 := none
  assignedClientIdentifier : Option String := none
  serverKeepAlive : Option UInt16 := none
  reasonString : Option String := none
  receiveMaximum : Option UInt16 := none
  topicAliasMaximum : Option UInt16 := none
  topicAlias : Option UInt16 := none
  maximumQoS : Option UInt8 := none
  retainAvailable : Option UInt8 := none
  userProperties : List (String × String) := []
  maximumPacketSize : Option UInt32 := none
  subscriptionIdentifiersAvailable : Option UInt8 := none
  deriving DecidableEq, Repr, Inhabited

namespace Properties

/-! ### Entries and lists -/

/-- The effect of one entry that stands before those of `p`.  A single-valued property keeps the
value that it already has, subscription identifiers and user properties are put in front, and what
the relay does not keep changes nothing. -/
def cons (e : Property) (p : Properties) : Properties :=
  match e with
  | ⟨.payloadFormatIndicator, v⟩ =>
    { p with payloadFormatIndicator := p.payloadFormatIndicator.or (some v) }
  | ⟨.messageExpiryInterval, v⟩ =>
    { p with messageExpiryInterval := p.messageExpiryInterval.or (some v) }
  | ⟨.contentType, v⟩ => { p with contentType := p.contentType.or (some v) }
  | ⟨.responseTopic, v⟩ => { p with responseTopic := p.responseTopic.or (some v) }
  | ⟨.correlationData, v⟩ => { p with correlationData := p.correlationData.or (some v) }
  | ⟨.subscriptionIdentifier, v⟩ =>
    { p with subscriptionIdentifiers := List.cons v p.subscriptionIdentifiers }
  | ⟨.sessionExpiryInterval, v⟩ =>
    { p with sessionExpiryInterval := p.sessionExpiryInterval.or (some v) }
  | ⟨.assignedClientIdentifier, v⟩ =>
    { p with assignedClientIdentifier := p.assignedClientIdentifier.or (some v) }
  | ⟨.serverKeepAlive, v⟩ => { p with serverKeepAlive := p.serverKeepAlive.or (some v) }
  | ⟨.reasonString, v⟩ => { p with reasonString := p.reasonString.or (some v) }
  | ⟨.receiveMaximum, v⟩ => { p with receiveMaximum := p.receiveMaximum.or (some v) }
  | ⟨.topicAliasMaximum, v⟩ => { p with topicAliasMaximum := p.topicAliasMaximum.or (some v) }
  | ⟨.topicAlias, v⟩ => { p with topicAlias := p.topicAlias.or (some v) }
  | ⟨.maximumQoS, v⟩ => { p with maximumQoS := p.maximumQoS.or (some v) }
  | ⟨.retainAvailable, v⟩ => { p with retainAvailable := p.retainAvailable.or (some v) }
  | ⟨.userProperty, v⟩ => { p with userProperties := List.cons v p.userProperties }
  | ⟨.maximumPacketSize, v⟩ => { p with maximumPacketSize := p.maximumPacketSize.or (some v) }
  | ⟨.subscriptionIdentifiersAvailable, v⟩ =>
    { p with subscriptionIdentifiersAvailable := p.subscriptionIdentifiersAvailable.or (some v) }
  | ⟨.authenticationMethod, _⟩ => p
  | ⟨.authenticationData, _⟩ => p
  | ⟨.requestProblemInformation, _⟩ => p
  | ⟨.willDelayInterval, _⟩ => p
  | ⟨.requestResponseInformation, _⟩ => p
  | ⟨.responseInformation, _⟩ => p
  | ⟨.serverReference, _⟩ => p
  | ⟨.wildcardSubscriptionAvailable, _⟩ => p
  | ⟨.sharedSubscriptionAvailable, _⟩ => p

/-- What a sequence of entries means: of a single-valued property the last entry counts. -/
def ofList (entries : List Property) : Properties := entries.foldr cons {}

@[simp] theorem ofList_nil : ofList [] = {} := rfl

@[simp] theorem ofList_cons (e : Property) (entries : List Property) :
    ofList (e :: entries) = (ofList entries).cons e := rfl

/-- The entry of a single-valued property, if it is present. -/
def entry? (id : PropertyId) (v : Option id.form.Value) : List Property :=
  v.toList.map (Property.mk id)

/-- The entries of a property list, by increasing identifier. -/
def toList (p : Properties) : List Property :=
  entry? .payloadFormatIndicator p.payloadFormatIndicator ++
  entry? .messageExpiryInterval p.messageExpiryInterval ++
  entry? .contentType p.contentType ++
  entry? .responseTopic p.responseTopic ++
  entry? .correlationData p.correlationData ++
  p.subscriptionIdentifiers.map (Property.mk .subscriptionIdentifier) ++
  entry? .sessionExpiryInterval p.sessionExpiryInterval ++
  entry? .assignedClientIdentifier p.assignedClientIdentifier ++
  entry? .serverKeepAlive p.serverKeepAlive ++
  entry? .reasonString p.reasonString ++
  entry? .receiveMaximum p.receiveMaximum ++
  entry? .topicAliasMaximum p.topicAliasMaximum ++
  entry? .topicAlias p.topicAlias ++
  entry? .maximumQoS p.maximumQoS ++
  entry? .retainAvailable p.retainAvailable ++
  p.userProperties.map (Property.mk .userProperty) ++
  entry? .maximumPacketSize p.maximumPacketSize ++
  entry? .subscriptionIdentifiersAvailable p.subscriptionIdentifiersAvailable

/-! ### Writing -/

/-- The bytes of a sequence of entries; the first entry that cannot be written gives the error. -/
def writeAll (entries : List Property) : Except EncodeError Bytes := do
  let parts ← entries.mapM Property.write
  return parts.flatten

/-- The length of the written entries, without the prefix. -/
def encodedSize (p : Properties) : Nat := p.toList.foldr (fun e n => e.size + n) 0

/-- The length of the written list, prefix included. -/
def wireSize (p : Properties) : Nat :=
  VarInt.size (UInt32.ofNat p.encodedSize) + p.encodedSize

/-- The written list: its length, then its entries. -/
def encode (p : Properties) : Except EncodeError Bytes := do
  let size ← VarInt.write (UInt32.ofNat p.encodedSize)
  let entries ← writeAll p.toList
  return size ++ entries

/-! ### Reading -/

/-- The entries of `bytes` behind `seen`, latest first, until none are left. -/
def entriesFrom (seen : List Property) (bytes : Bytes) : Except DecodeError (List Property) :=
  if bytes.isEmpty then .ok seen.reverse
  else
    match _h : Property.read bytes with
    | .ok e tail => entriesFrom (e :: seen) tail
    | .error e _ => .error e
termination_by bytes.length
decreasing_by
  have := Property.read_shortens (by assumption)
  omega

/-- The entries that `bytes` consist of. -/
def entries (bytes : Bytes) : Except DecodeError (List Property) := entriesFrom [] bytes

/-- A property list preceded by its length. -/
def read : Reader Properties := do
  let size ← Reader.varInt
  let bytes ← Reader.take size
  match entries bytes with
  | .ok es => return ofList es
  | .error e => throw e

/-! ### Use -/

/-- The first value of a user property. -/
def userProperty? (p : Properties) (key : String) : Option String :=
  (p.userProperties.find? fun kv => kv.1 == key).map (·.2)

/-- The properties that travel on with a message.  Those of one connection stay behind. -/
def forwardable (p : Properties) : Properties where
  payloadFormatIndicator := p.payloadFormatIndicator
  messageExpiryInterval := p.messageExpiryInterval
  contentType := p.contentType
  responseTopic := p.responseTopic
  correlationData := p.correlationData
  userProperties := p.userProperties

end Properties

end TopicBridge.Mqtt
