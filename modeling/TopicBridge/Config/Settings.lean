/-
**The settings of a relay.**

A relay is set up with two brokers, a list of rules and some options.

Main definitions:

* `TopicBridge.Endpoint` — how a broker is reached;
* `TopicBridge.RuleSettings` — a rule as it is written;
* `TopicBridge.RelayOptions` — what applies to a relay as a whole;
* `TopicBridge.Config` — all settings;
* `Endpoint.address`, `Endpoint.serverName`, `Endpoint.clientId` — what follows from the settings of
  a broker;
* `Config.relayId?` — the name of a relay, unless it is made up.
-/

import TopicBridge.Filter.Chain
import TopicBridge.Mqtt.Packet.Decode
import TopicBridge.Net.Address
import TopicBridge.Tls.Material
import TopicBridge.Topic.Level

set_option autoImplicit false

namespace TopicBridge

/-! ### Brokers -/

/-- The two brokers between which a relay stands. -/
inductive Side where
  | source
  | destination
  deriving DecidableEq, Repr

/-- The name of a side. -/
def Side.text : Side → String
  | source => "source"
  | destination => "destination"

/-- How a broker is reached. -/
structure Endpoint where
  host : String
  port : UInt16 := 1883
  clientIdBase : Option String := none
  username : Option String := none
  password : Option String := none
  /-- Seconds between two signs of life. -/
  keepAlive : UInt16 := 60
  /-- Seconds that connecting may take. -/
  connectTimeout : UInt64 := 30
  /-- The largest packet that is accepted. -/
  maxPacketSize : UInt32 := 1048576
  tls : Option Tls.Paths := none
  deriving DecidableEq, Repr

namespace Endpoint

/-- Host and port. -/
def address (e : Endpoint) : String := s!"{e.host}:{e.port.toNat}"

/-- The name under which the broker's certificate is checked: the host, unless another is given. -/
def serverName (e : Endpoint) : String := ((e.tls.bind (·.serverName))).getD e.host

/-- Whether the connection is secured. -/
def usesTls (e : Endpoint) : Bool := e.tls.isSome

/-- The client identifier of a session with a given suffix.  Without a base it is made from the
number of the running process. -/
def clientId (e : Endpoint) (process suffix : String) : String :=
  e.clientIdBase.getD ("mqrelay-" ++ process) ++ "-" ++ suffix

end Endpoint

/-! ### Rules -/

/-- Which ways a rule relays. -/
inductive Direction where
  | oneWay
  | bidirectional
  deriving DecidableEq, Repr

namespace Direction

/-- The name of a direction. -/
def text : Direction → String
  | oneWay => "one_way"
  | bidirectional => "bidirectional"

/-- The direction with a given name. -/
def parse? (s : String) : Option Direction :=
  if s = "one_way" then some oneWay else if s = "bidirectional" then some bidirectional else none

end Direction

/-- A rule as it is written. -/
structure RuleSettings where
  name : Option String := none
  sourceTopic : String
  destTopic : String
  direction : Direction := .oneWay
  /-- What stands before the topics of the rule on the destination side. -/
  topicPrefix : Option String := none
  filters : Filter.Settings := {}
  qos : UInt8 := 1
  deriving DecidableEq, Repr

/-- The name of a rule: its own, or its place among the rules. -/
def RuleSettings.label (r : RuleSettings) (index : Nat) : String := r.name.getD (toString index)

/-! ### Options -/

/-- What applies to a relay as a whole. -/
structure RelayOptions where
  id : Option String := none
  /-- What stands before all topics on the destination side, unless a rule has its own. -/
  topicPrefix : Option String := none
  /-- Whether messages that this relay has published are dropped when they come back. -/
  loopPrevention : Bool := true
  reconnectMinSecs : UInt64 := 1
  reconnectMaxSecs : UInt64 := 60
  /-- How many messages may wait to be published. -/
  queueCapacity : UInt64 := 1024
  /-- How long a message waits for a place among them. -/
  queueTimeoutMs : UInt64 := 1000
  ackTimeoutSecs : UInt64 := 10
  shutdownTimeoutSecs : UInt64 := 5
  deriving DecidableEq, Repr, Inhabited

/-- The prefix of all topics, without slashes at its ends. -/
def RelayOptions.trimmedPrefix? (o : RelayOptions) : Option String :=
  o.topicPrefix.bind Topic.trimmed?

/-- What is written about the relay's work. -/
structure LogOptions where
  level : String := "warn"
  deriving DecidableEq, Repr, Inhabited

/-- Where the counters of a relay can be read. -/
structure MetricsOptions where
  enabled : Bool := false
  bind : Net.SocketAddress := .v4 ⟨0, 0, 0, 0⟩ 9090
  deriving DecidableEq, Repr

/-- All settings. -/
structure Config where
  source : Endpoint
  destination : Endpoint
  rules : List RuleSettings
  relay : RelayOptions := {}
  log : LogOptions := {}
  metrics : MetricsOptions := {}
  deriving DecidableEq, Repr

/-- The name of the relay: its own, or that of its client at the source.  If there is neither, a
name is made up for each run. -/
def Config.relayId? (c : Config) : Option String := c.relay.id.or c.source.clientIdBase

/-- The broker on a side. -/
def Config.endpoint (c : Config) : Side → Endpoint
  | .source => c.source
  | .destination => c.destination

end TopicBridge
