/-
**Why a relay cannot be set up.**

Main definitions:

* `TopicBridge.PrefixError`, `TopicBridge.RuleError` — what is wrong with a prefix or a rule;
* `TopicBridge.SettingError` — what is wrong with other settings;
* `TopicBridge.ConfigError`, `ConfigError.message?` — why there is no relay, and the wording.
-/

import TopicBridge.Config.Settings
import TopicBridge.Topic.Pattern

set_option autoImplicit false

namespace TopicBridge

/-- What is wrong with a prefix. -/
inductive PrefixError where
  | topic (e : TopicError)
  | wildcards
  deriving DecidableEq, Repr

/-- The wording of a prefix error. -/
def PrefixError.message : PrefixError → String
  | topic e => e.message
  | wildcards => "cannot contain wildcards"

/-- What is wrong with a rule. -/
inductive RuleError where
  | badQoS
  | badPrefix (e : PrefixError)
  | badSourceTopic (topic : String) (e : TopicError)
  | badDestTopic (topic : String) (e : TopicError)
  | badTemplate (e : TopicError)
  | badPriority (e : UnknownPriority)
  /-- With its prefix, the filter is none. -/
  | badSubscription (filter : String) (e : TopicError)
  deriving DecidableEq, Repr

/-- The wording of a rule error. -/
def RuleError.message : RuleError → String
  | badQoS => "qos must be 0, 1, or 2"
  | badPrefix e => s!"prefix: {e.message}"
  | badSourceTopic topic e => s!"source_topic '{topic}': {e.message}"
  | badDestTopic topic e => s!"dest_topic '{topic}': {e.message}"
  | badTemplate e => e.message
  | badPriority e => e.message
  | badSubscription filter e => s!"subscription '{filter}': {e.message}"

/-- What is wrong with settings that are not those of a rule. -/
inductive SettingError where
  | noHost (side : Side)
  | zeroPort (side : Side)
  | smallPacketSize (side : Side)
  | incompleteTls (side : Side) (missing : List String)
  | noRules
  | emptyRelayId
  | zeroReconnectMin
  | reconnectMinAboveMax
  | zeroQueueCapacity
  | zeroAckTimeout
  | badTopicPrefix (e : PrefixError)
  deriving DecidableEq, Repr

/-- The least packet size that a relay may be limited to. -/
def minPacketSize : UInt32 := 256

/-- The wording of a setting error. -/
def SettingError.message : SettingError → String
  | noHost side => s!"{side.text}.host is required"
  | zeroPort side => s!"{side.text}.port must be non-zero"
  | smallPacketSize side =>
    s!"{side.text}.max_packet_size must be at least {minPacketSize.toNat} bytes"
  | incompleteTls side missing =>
    let names := String.intercalate ", " missing
    s!"{side.text}.tls requires ca_cert, client_cert and client_key (missing: {names})"
  | noRules => "at least one rule is required"
  | emptyRelayId => "relay.id cannot be empty"
  | zeroReconnectMin => "relay.reconnect_min_secs must be at least 1"
  | reconnectMinAboveMax => "relay.reconnect_min_secs cannot exceed relay.reconnect_max_secs"
  | zeroQueueCapacity => "relay.queue_capacity must be at least 1"
  | zeroAckTimeout => "relay.ack_timeout_secs must be at least 1"
  | badTopicPrefix e => s!"relay.topic_prefix: {e.message}"

/-- Why there is no relay. -/
inductive ConfigError where
  /-- There is no file with a text to read. -/
  | unreadable (fault : FileFault)
  /-- The text is not JSON, or not of the right form. -/
  | malformed
  /-- The layers of settings do not add up to settings of the right form. -/
  | illTyped
  | setting (e : SettingError)
  | rule (name : String) (e : RuleError)
  | tls (e : TlsError)
  deriving DecidableEq, Repr

/-- The wording of an error; a text of the wrong form is not worded here. -/
def ConfigError.message? : ConfigError → Option String
  | unreadable fault => some s!"IO error: {fault.message}"
  | malformed => none
  | illTyped => none
  | setting e => some s!"Validation error: {e.message}"
  | rule name e => some s!"Rule '{name}': {e.message}"
  | tls e => some s!"TLS error: {e.message}"

end TopicBridge
