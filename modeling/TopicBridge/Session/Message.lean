/-
**What the parts of a relay hand to one another.**

Main definitions:

* `TopicBridge.Message` — a message on its way through a relay;
* `TopicBridge.SessionEvent` — what a subscriber reports;
* `TopicBridge.SessionStatus` — how far a publisher is.
-/

import TopicBridge.Mqtt.Packet

set_option autoImplicit false

namespace TopicBridge

/-- A message on its way through a relay. -/
structure Message where
  topic : String
  payload : Bytes
  qos : Mqtt.QoS
  retain : Bool
  properties : Mqtt.Properties
  deriving DecidableEq, Repr

/-- The message that a packet carries. -/
def Message.ofPublish (p : Mqtt.Publish) : Message where
  topic := p.topic
  payload := p.payload
  qos := p.qos
  retain := p.retain
  properties := p.properties

/-- What a subscriber reports. -/
inductive SessionEvent where
  /-- It is about to connect. -/
  | connecting
  /-- The broker has accepted the connection. -/
  | connected (sessionPresent : Bool)
  /-- The broker has answered every subscription; these it has refused. -/
  | subscribed (refused : List UInt32)
  /-- A message has come in. -/
  | message (m : Message)
  /-- The connection is lost, or has not come about. -/
  | connectionLost (reason : String)
  deriving DecidableEq, Repr

/-- How far a publisher is. -/
inductive SessionStatus where
  | disconnected
  | connecting
  | connected
  /-- It waits before it connects again. -/
  | backoff
  | closed
  deriving DecidableEq, Repr

namespace SessionStatus

/-- The name of a status. -/
def text : SessionStatus → String
  | disconnected => "disconnected"
  | connecting => "connecting"
  | connected => "connected"
  | backoff => "backoff"
  | closed => "closed"

/-- All statuses. -/
def all : List SessionStatus := [disconnected, connecting, connected, backoff, closed]

/-- The status with a given name. -/
def ofText? (s : String) : Option SessionStatus := all.find? fun status => status.text = s

end SessionStatus

/-- The user property with which a relay marks what it publishes. -/
def Message.originKey : String := "x-mqrelay-origin"

end TopicBridge
