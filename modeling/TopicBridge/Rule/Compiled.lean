/-
**Compiled rules.**

A rule relays the topics of a pattern on the source side to those of a template on the destination
side, and back if it is bidirectional.  Topics on the destination side may stand behind a prefix.

Main definitions:

* `TopicBridge.Flow` — the two ways through a relay;
* `TopicBridge.Rule`, `Rule.compile` — a rule whose texts have been read;
* `Rule.captures?` — the captures of an inbound topic;
* `Rule.outboundTopic` — the outbound topic that captures give;
* `Rule.subscriptionFilter` — the filter under which inbound topics are subscribed to.
-/

import TopicBridge.Config.Error
import TopicBridge.Topic.Capture

set_option autoImplicit false

namespace TopicBridge

/-! ### Flows -/

/-- The way of a message. -/
inductive Flow where
  /-- From the source to the destination. -/
  | forward
  /-- From the destination back to the source. -/
  | reverse
  deriving DecidableEq, Repr

/-- The name of a flow. -/
def Flow.text : Flow → String
  | forward => "forward"
  | reverse => "reverse"

/-! ### Prefixes -/

/-- A topic without the levels of a prefix; `none` if it does not stand behind them. -/
def Topic.dropLevels? (front topic : String) : Option String :=
  let lead := front.toList ++ ['/']
  if lead.isPrefixOf topic.toList then some (String.ofList (topic.toList.drop lead.length)) else none

/-- A topic behind the levels of a prefix. -/
def Topic.addLevels (front topic : String) : String := s!"{front}/{topic}"

/-! ### Rules -/

/-- A rule whose texts have been read. -/
structure Rule where
  /-- Its name, or its place among the rules. -/
  id : String
  source : Pattern
  dest : Pattern
  direction : Direction
  filters : List Filter.Clause
  qos : Mqtt.QoS
  /-- What stands before the topics on the destination side: the rule's own, or that of the
  relay. -/
  topicPrefix : Option String
  deriving DecidableEq

namespace Rule

/-- What is wrong with the texts of a rule, or what they say. -/
def read (settings : RuleSettings) (index : Nat) (commonPrefix : Option String) :
    Except RuleError Rule := do
  let source ← (Pattern.parse settings.sourceTopic).mapError (.badSourceTopic settings.sourceTopic)
  let dest ← (Pattern.parse settings.destTopic).mapError (.badDestTopic settings.destTopic)
  (source.checkTemplate dest).mapError .badTemplate
  let filters ← settings.filters.chain.mapError .badPriority
  match Mqtt.QoS.ofNat? settings.qos.toNat with
  | none => throw .badQoS
  | some qos => return {
      id := settings.label index
      source
      dest
      direction := settings.direction
      filters
      qos
      topicPrefix := match settings.topicPrefix with
        | some own => Topic.trimmed? own
        | none => commonPrefix }

/-- The rule at a place among the rules.  An own prefix replaces that of the relay, also by
none. -/
def compile (settings : RuleSettings) (index : Nat) (commonPrefix : Option String) :
    Except ConfigError Rule :=
  (read settings index commonPrefix).mapError (.rule (settings.label index))

/-- Whether a rule relays in a flow. -/
def appliesTo (r : Rule) : Flow → Bool
  | .forward => true
  | .reverse => r.direction = .bidirectional

/-- The pattern of inbound topics. -/
def inbound (r : Rule) : Flow → Pattern
  | .forward => r.source
  | .reverse => r.dest

/-- The template of outbound topics. -/
def outbound (r : Rule) : Flow → Pattern
  | .forward => r.dest
  | .reverse => r.source

/-- The part of an inbound topic that is matched: one from the destination side loses the prefix,
and without it, it is not the rule's. -/
def bare? (r : Rule) (flow : Flow) (topic : String) : Option String :=
  match flow, r.topicPrefix with
  | .reverse, some front => Topic.dropLevels? front topic
  | _, _ => some topic

/-- The captures of an inbound topic, if it is the rule's. -/
def captures? (r : Rule) (flow : Flow) (topic : String) : Option (List String) :=
  if r.appliesTo flow then (r.bare? flow topic).bind (r.inbound flow).captures? else none

/-- The outbound topic that captures give; on the destination side it stands behind the prefix. -/
def outboundTopic (r : Rule) (flow : Flow) (captures : List String) : Except TopicError String := do
  let topic ← (r.outbound flow).fill captures
  match flow, r.topicPrefix with
  | .forward, some front => return Topic.addLevels front topic
  | _, _ => return topic

/-- The filter under which the inbound topics of the rule are subscribed to. -/
def subscriptionFilter (r : Rule) (flow : Flow) : String :=
  match flow, r.topicPrefix with
  | .reverse, some front => Topic.addLevels front r.dest.text
  | _, _ => (r.inbound flow).text

end Rule

end TopicBridge
