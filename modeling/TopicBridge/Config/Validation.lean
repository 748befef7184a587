/-
**Checking settings.**

Main definitions:

* `TopicBridge.prefixError?` — what is wrong with a prefix;
* `Endpoint.problem?`, `RuleSettings.problem?`, `RelayOptions.problem?` — the first thing that is
  wrong with the parts of the settings;
* `Config.problem?`, `Config.validate` — the first thing that is wrong with all of them.
-/

import TopicBridge.Config.Error

set_option autoImplicit false

namespace TopicBridge

/-- What is wrong with a prefix, which has no slashes at its ends: it is to be a pattern without
wildcards. -/
def prefixError? (s : String) : Option PrefixError :=
  match Topic.patternError? s with
  | some e => some (.topic e)
  | none => if Topic.hasWildcard s then some .wildcards else none

/-- What is wrong with how a broker is reached. -/
def Endpoint.problem? (side : Side) (e : Endpoint) : Option SettingError :=
  if e.host = "" then some (.noHost side)
  else if e.port = 0 then some (.zeroPort side)
  else if e.maxPacketSize < minPacketSize then some (.smallPacketSize side)
  else
    match e.tls.map Tls.Paths.missing with
    | some (m :: missing) => some (.incompleteTls side (m :: missing))
    | _ => none

/-- What is wrong with a rule as it is written. -/
def RuleSettings.problem? (r : RuleSettings) : Option RuleError :=
  if r.qos > 2 then some .badQoS
  else ((r.topicPrefix.bind Topic.trimmed?).bind prefixError?).map .badPrefix

/-- The first rule of which something is wrong, and what. -/
def rulesProblem? (rules : List RuleSettings) : Option ConfigError :=
  rules.zipIdx.findSome? fun (r, index) => r.problem?.map (.rule (r.label index))

/-- What is wrong with the options. -/
def RelayOptions.problem? (o : RelayOptions) : Option SettingError :=
  if o.id = some "" then some .emptyRelayId
  else if o.reconnectMinSecs = 0 then some .zeroReconnectMin
  else if o.reconnectMinSecs > o.reconnectMaxSecs then some .reconnectMinAboveMax
  else if o.queueCapacity = 0 then some .zeroQueueCapacity
  else if o.ackTimeoutSecs = 0 then some .zeroAckTimeout
  else (o.trimmedPrefix?.bind prefixError?).map .badTopicPrefix

namespace Config

/-- The first thing that is wrong with the settings: the brokers come first, then the rules, then
the options. -/
def problem? (c : Config) : Option ConfigError :=
  ((((c.source.problem? .source).or (c.destination.problem? .destination)).map .setting).or
    (if c.rules = [] then some (.setting .noRules) else rulesProblem? c.rules)).or
    (c.relay.problem?.map .setting)

/-- Accepts settings with which nothing is wrong. -/
def validate (c : Config) : Except ConfigError Unit :=
  match c.problem? with
  | some e => .error e
  | none => .ok ()

end Config

end TopicBridge
