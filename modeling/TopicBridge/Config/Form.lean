/-
**The form of written settings.**

Settings are written as records, lists and simple values.  Which records and which defaults there
are is said here once; how a value of each kind is read is up to a `Reading`, of which there is a
strict one for JSON and a lenient one for layers of settings.

Main definitions:

* `TopicBridge.Reading` — how the values of a kind of data are read;
* `Reading.config` — the settings that a value stands for.
-/

import TopicBridge.Config.Settings

set_option autoImplicit false

namespace TopicBridge

/-- How values are read. -/
structure Reading (V : Type) where
  /-- The members of a record with the given names, as far as they are there. -/
  record : List String → V → Option (List (Option V))
  items : V → Option (List V)
  text : V → Option String
  bool : V → Option Bool
  /-- A number below a bound. -/
  nat : Nat → V → Option Nat
  /-- One of several names. -/
  choice : V → Option String
  isNull : V → Bool

namespace Reading

variable {V α : Type}

/-! ### Members -/

/-- A member that has to be there. -/
def required (read : V → Option α) (v : Option V) : Option α := v.bind read

/-- A member with a default. -/
def withDefault (default : α) (read : V → Option α) : Option V → Option α
  | none => some default
  | some v => read v

/-- A member that may be missing or null. -/
def optional (r : Reading V) (read : V → Option α) : Option V → Option (Option α)
  | none => some none
  | some v => if r.isNull v then some none else (read v).map some

/-- A list of values of one kind. -/
def list (r : Reading V) (read : V → Option α) (v : V) : Option (List α) := do
  (← r.items v).mapM read

/-- A number of 8 bits. -/
def nat8 (r : Reading V) (v : V) : Option UInt8 := (r.nat UInt8.size v).map UInt8.ofNat

/-- A number of 16 bits. -/
def nat16 (r : Reading V) (v : V) : Option UInt16 := (r.nat UInt16.size v).map UInt16.ofNat

/-- A number of 32 bits. -/
def nat32 (r : Reading V) (v : V) : Option UInt32 := (r.nat UInt32.size v).map UInt32.ofNat

/-- A number of 64 bits. -/
def nat64 (r : Reading V) (v : V) : Option UInt64 := (r.nat UInt64.size v).map UInt64.ofNat

/-! ### Records -/

/-- The paths of a secured connection. -/
def paths (r : Reading V) (v : V) : Option Tls.Paths := do
  match ← r.record ["ca_cert", "client_cert", "client_key", "server_name"] v with
  | [ca, cert, key, name] => return {
      caCert := ← r.optional r.text ca
      clientCert := ← r.optional r.text cert
      clientKey := ← r.optional r.text key
      serverName := ← r.optional r.text name }
  | _ => none

/-- How a broker is reached. -/
def endpoint (r : Reading V) (v : V) : Option Endpoint := do
  match ← r.record ["host", "port", "client_id", "username", "password", "keepalive",
      "connect_timeout", "max_packet_size", "tls"] v with
  | [host, port, clientId, username, password, keepAlive, timeout, size, tls] => return {
      host := ← required r.text host
      port := ← withDefault 1883 r.nat16 port
      clientIdBase := ← r.optional r.text clientId
      username := ← r.optional r.text username
      password := ← r.optional r.text password
      keepAlive := ← withDefault 60 r.nat16 keepAlive
      connectTimeout := ← withDefault 30 r.nat64 timeout
      maxPacketSize := ← withDefault 1048576 r.nat32 size
      tls := ← r.optional r.paths tls }
  | _ => none

/-- The filters of a rule. -/
def filters (r : Reading V) (v : V) : Option Filter.Settings := do
  match ← r.record ["priority_min", "type_blocklist", "max_age_seconds", "required_fields"] v with
  | [priority, types, age, fields] => return {
      priorityMin := ← r.optional r.text priority
      typeBlocklist := ← withDefault [] (r.list r.text) types
      maxAgeSeconds := ← r.optional r.nat64 age
      requiredFields := ← withDefault [] (r.list r.text) fields }
  | _ => none

/-- A direction, by its name. -/
def direction (r : Reading V) (v : V) : Option Direction := (r.choice v).bind Direction.parse?

/-- A rule. -/
def rule (r : Reading V) (v : V) : Option RuleSettings := do
  match ← r.record ["name", "source_topic", "dest_topic", "direction", "prefix", "filters",
      "qos"] v with
  | [name, source, dest, direction, topicPrefix, filters, qos] => return {
      name := ← r.optional r.text name
      sourceTopic := ← required r.text source
      destTopic := ← required r.text dest
      direction := ← withDefault .oneWay r.direction direction
      topicPrefix := ← r.optional r.text topicPrefix
      filters := ← withDefault {} r.filters filters
      qos := ← withDefault 1 r.nat8 qos }
  | _ => none

/-- The options of the relay as a whole. -/
def relay (r : Reading V) (v : V) : Option RelayOptions := do
  match ← r.record ["id", "topic_prefix", "loop_prevention", "reconnect_min_secs",
      "reconnect_max_secs", "queue_capacity", "queue_timeout_ms", "ack_timeout_secs",
      "shutdown_timeout_secs"] v with
  | [id, topicPrefix, loops, minSecs, maxSecs, capacity, timeout, ack, shutdown] => return {
      id := ← r.optional r.text id
      topicPrefix := ← r.optional r.text topicPrefix
      loopPrevention := ← withDefault true r.bool loops
      reconnectMinSecs := ← withDefault 1 r.nat64 minSecs
      reconnectMaxSecs := ← withDefault 60 r.nat64 maxSecs
      queueCapacity := ← withDefault 1024 r.nat64 capacity
      queueTimeoutMs := ← withDefault 1000 r.nat64 timeout
      ackTimeoutSecs := ← withDefault 10 r.nat64 ack
      shutdownTimeoutSecs := ← withDefault 5 r.nat64 shutdown }
  | _ => none

/-- The options of logging. -/
def log (r : Reading V) (v : V) : Option LogOptions := do
  match ← r.record ["level"] v with
  | [level] => return { level := ← withDefault "warn" r.text level }
  | _ => none

/-- The address of a socket. -/
def socketAddress (r : Reading V) (v : V) : Option Net.SocketAddress :=
  (r.text v).bind Net.SocketAddress.parse?

/-- The options of the counters. -/
def metrics (r : Reading V) (v : V) : Option MetricsOptions := do
  match ← r.record ["enabled", "bind"] v with
  | [enabled, bind] => return {
      enabled := ← withDefault false r.bool enabled
      bind := ← withDefault (.v4 ⟨0, 0, 0, 0⟩ 9090) r.socketAddress bind }
  | _ => none

/-- All settings. -/
def config (r : Reading V) (v : V) : Option Config := do
  match ← r.record ["source", "destination", "rules", "relay", "log", "metrics"] v with
  | [source, destination, rules, relay, log, metrics] => return {
      source := ← required r.endpoint source
      destination := ← required r.endpoint destination
      rules := ← required (r.list r.rule) rules
      relay := ← withDefault {} r.relay relay
      log := ← withDefault {} r.log log
      metrics := ← withDefault {} r.metrics metrics }
  | _ => none

end Reading

end TopicBridge
