/-
**Why a session loses its connection.**

Each error is a cause; `message` is its wording.

Main definitions:

* `TopicBridge.Awaited` — what may not come in time;
* `TopicBridge.SessionError`, `SessionError.message` — what may befall a connection.
-/

import TopicBridge.Mqtt.Error
import TopicBridge.Mqtt.QoS

set_option autoImplicit false

namespace TopicBridge

/-- What is waited for, but not longer than a time limit. -/
inductive Awaited where
  | connection
  | connAck
  | pingResp
  | pubAck
  | pubComp
  deriving DecidableEq, Repr

/-- The name of what is waited for. -/
def Awaited.text : Awaited → String
  | connection => "connect"
  | connAck => "CONNACK"
  | pingResp => "PINGRESP"
  | pubAck => "PUBACK"
  | pubComp => "PUBCOMP"

/-- What befalls a connection, or the attempt to open one. -/
inductive SessionError where
  /-- The network fails. -/
  | io (cause : String)
  /-- No secured connection comes about. -/
  | handshake (cause : String)
  /-- Something does not come in time. -/
  | timeout (what : Awaited)
  /-- The stream ends. -/
  | streamEnded
  /-- The broker ends the connection with a reason. -/
  | disconnected (code : Mqtt.ReasonCode)
  /-- The broker does not accept the connection. -/
  | rejected (code : Mqtt.ReasonCode)
  /-- The first packet is another one than `ConnAck`. -/
  | unexpectedGreeting (name : String)
  /-- Every subscription is refused. -/
  | allRefused
  /-- The bytes received are not a packet. -/
  | decode (e : Mqtt.DecodeError)
  /-- A packet cannot be written. -/
  | encode (e : Mqtt.EncodeError)
  /-- A packet is larger than the broker admits.  Nothing of it is sent. -/
  | packetTooLarge (size limit : Nat)
  deriving DecidableEq, Repr

/-- The wording of a session error. -/
def SessionError.message : SessionError → String
  | io cause => s!"IO error: {cause}"
  | handshake cause => s!"TLS handshake failed: {cause}"
  | timeout what => s!"{what.text} timed out"
  | streamEnded => "Connection lost: connection closed by broker"
  | disconnected code => s!"Connection lost: broker sent DISCONNECT: {code.text}"
  | rejected code => s!"Connection refused: {code.text}"
  | unexpectedGreeting name => s!"Protocol error: expected CONNACK, got {name}"
  | allRefused => "Protocol error: broker refused every subscription"
  | decode e => s!"Decode error: {e.message}"
  | encode e => s!"Encode error: {e.message}"
  | packetTooLarge size limit => s!"Packet of {size} bytes exceeds broker limit of {limit}"

end TopicBridge
