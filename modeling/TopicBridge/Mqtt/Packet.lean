/-
**The packets of a connection, as its client sees them.**

Main definitions:

* `TopicBridge.Mqtt.Packet` — the packets that a client sends and those that a broker answers with;
* `Connect`, `ConnAck`, `Publish`, `Ack`, `Subscribe`, `SubAck`, `Disconnect` — their fields;
* `Packet.name` — the name of a packet's type.
-/

import TopicBridge.Mqtt.Properties
import TopicBridge.Mqtt.QoS

set_option autoImplicit false

namespace TopicBridge.Mqtt

/-- Opens a session. -/
structure Connect where
  clientId : String
  cleanStart : Bool
  /-- Seconds of silence after which the broker may give the connection up; zero for no limit. -/
  keepAlive : UInt16
  username : Option String
  password : Option Bytes
  properties : Properties
  deriving DecidableEq, Repr

/-- The broker's answer to `Connect`. -/
structure ConnAck where
  sessionPresent : Bool
  reasonCode : ReasonCode
  properties : Properties
  deriving DecidableEq, Repr, Inhabited

/-- A message under way. -/
structure Publish where
  dup : Bool
  qos : QoS
  retain : Bool
  topic : String
  /-- Present exactly if the message is to be acknowledged. -/
  packetId : Option UInt16
  payload : Bytes
  properties : Properties
  deriving DecidableEq, Repr

/-- A step of an acknowledgement. -/
structure Ack where
  packetId : UInt16
  reasonCode : ReasonCode := .success
  deriving DecidableEq, Repr

/-- When a broker sends retained messages to a new subscription. -/
inductive RetainHandling where
  | always
  | ifNew
  | never
  deriving DecidableEq, Repr

namespace RetainHandling

/-- The choice as a number: 0, 1 or 2. -/
def toNat : RetainHandling → Nat
  | always => 0
  | ifNew => 1
  | never => 2

/-- The choice with a given number. -/
def ofNat? : Nat → Option RetainHandling
  | 0 => some always
  | 1 => some ifNew
  | 2 => some never
  | _ => none

end RetainHandling

/-- A filter that is subscribed to, and how. -/
structure Subscription where
  filter : String
  /-- The highest quality of service at which messages are wanted. -/
  qos : QoS
  /-- Leave out messages that this client has published. -/
  noLocal : Bool
  /-- Keep the retain flag as the publisher has set it. -/
  retainAsPublished : Bool
  retainHandling : RetainHandling
  deriving DecidableEq, Repr

/-- The options of a subscription as a byte. -/
def Subscription.options (s : Subscription) : UInt8 :=
  (s.qos.toNat + 4 * s.noLocal.toNat + 8 * s.retainAsPublished.toNat
    + 16 * s.retainHandling.toNat).toUInt8

/-- Asks for the messages of some filters. -/
structure Subscribe where
  packetId : UInt16
  subscriptions : List Subscription
  properties : Properties
  deriving DecidableEq, Repr

/-- The broker's answer to `Subscribe`: one code per filter. -/
structure SubAck where
  packetId : UInt16
  reasonCodes : List ReasonCode
  properties : Properties
  deriving DecidableEq, Repr

/-- Ends a connection. -/
structure Disconnect where
  reasonCode : ReasonCode := .success
  properties : Properties := {}
  deriving DecidableEq, Repr, Inhabited

/-- A packet. -/
inductive Packet where
  | connect (p : Connect)
  | connAck (p : ConnAck)
  | publish (p : Publish)
  | pubAck (a : Ack)
  | pubRec (a : Ack)
  | pubRel (a : Ack)
  | pubComp (a : Ack)
  | subscribe (p : Subscribe)
  | subAck (p : SubAck)
  | pingReq
  | pingResp
  | disconnect (p : Disconnect)
  deriving DecidableEq, Repr

/-- The name of a packet's type. -/
def Packet.name : Packet → String
  | connect _ => "CONNECT"
  | connAck _ => "CONNACK"
  | publish _ => "PUBLISH"
  | pubAck _ => "PUBACK"
  | pubRec _ => "PUBREC"
  | pubRel _ => "PUBREL"
  | pubComp _ => "PUBCOMP"
  | subscribe _ => "SUBSCRIBE"
  | subAck _ => "SUBACK"
  | pingReq => "PINGREQ"
  | pingResp => "PINGRESP"
  | disconnect _ => "DISCONNECT"

end TopicBridge.Mqtt
