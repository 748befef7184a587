/-
**The rules of a relay.**

The rules are kept in the order in which they are written, and the first that matches a topic
handles it.  For each flow the relay subscribes to the filters of its rules, each once.

Main definitions:

* `TopicBridge.Interest` — a filter that is subscribed to, with its identifier;
* `TopicBridge.interests` — the filters of some rules, each at the highest quality of service of the
  rules that share it;
* `TopicBridge.Registry`, `Registry.build` — the rules of a relay and their filters;
* `Registry.find?`, `Registry.route?` — the rule that handles a topic, and where it leads;
* `Registry.owner?` — the subscription whose copy of a message counts.
-/

import TopicBridge.Rule.Compiled

set_option autoImplicit false

namespace TopicBridge

/-! ### Interests -/

/-- A filter that is subscribed to for one or more rules. -/
structure Interest where
  /-- The identifier that comes with the messages of the subscription. -/
  id : UInt32
  filter : Pattern
  qos : Mqtt.QoS
  deriving DecidableEq

/-- Takes in the filter of a further rule. -/
def addInterest (flow : Flow) (found : List Interest) (r : Rule) :
    Except ConfigError (List Interest) :=
  let filter := r.subscriptionFilter flow
  if found.any fun i => i.filter.text = filter then
    .ok (found.map fun i => if i.filter.text = filter then { i with qos := max i.qos r.qos } else i)
  else
    match Pattern.parse filter with
    | .error e => .error (.rule r.id (.badSubscription filter e))
    | .ok pattern => .ok (found ++ [⟨UInt32.ofNat (found.length + 1), pattern, r.qos⟩])

/-- The filters of the rules that relay in a flow, in the order of the first rule that uses each. -/
def interests (flow : Flow) (rules : List Rule) : Except ConfigError (List Interest) :=
  (rules.filter fun r => r.appliesTo flow).foldlM (addInterest flow) []

/-! ### The registry -/

/-- The rules of a relay and the filters of both flows. -/
structure Registry where
  rules : List Rule
  forward : List Interest
  reverse : List Interest
  deriving DecidableEq

/-- A rule that handles a topic, with the captures. -/
structure Match where
  rule : Rule
  captures : List String
  deriving DecidableEq

namespace Registry

/-- The rules of a relay, compiled one after the other. -/
def compileAll (settings : List RuleSettings) (commonPrefix : Option String) :
    Except ConfigError (List Rule) :=
  settings.zipIdx.mapM fun (s, index) => Rule.compile s index commonPrefix

/-- The registry of some rules. -/
def ofRules (settings : List RuleSettings) (options : RelayOptions) :
    Except ConfigError Registry := do
  let rules ← compileAll settings options.trimmedPrefix?
  let forward ← interests .forward rules
  let reverse ← interests .reverse rules
  return { rules, forward, reverse }

/-- The registry of a relay. -/
def build (c : Config) : Except ConfigError Registry := ofRules c.rules c.relay

/-- The filters of a flow. -/
def interests (g : Registry) : Flow → List Interest
  | .forward => g.forward
  | .reverse => g.reverse

/-- Whether any rule relays back. -/
def hasReverse (g : Registry) : Bool := g.rules.any fun r => r.appliesTo .reverse

/-- The first rule that handles an inbound topic. -/
def find? (g : Registry) (flow : Flow) (topic : String) : Option Match :=
  g.rules.findSome? fun r => (r.captures? flow topic).map (Match.mk r)

/-- The outbound topic of a match. -/
def outboundTopic (flow : Flow) (m : Match) : Except TopicError String :=
  m.rule.outboundTopic flow m.captures

/-- The rule that handles a topic and where it leads, if it leads anywhere. -/
def route? (g : Registry) (flow : Flow) (topic : String) : Option (Rule × String) := do
  let m ← g.find? flow topic
  let outbound ← (outboundTopic flow m).toOption
  return (m.rule, outbound)

/-- Of the subscriptions that match a topic and have not been refused, the first. -/
def owner? (g : Registry) (flow : Flow) (topic : String) (refused : List UInt32) : Option UInt32 :=
  ((g.interests flow).find? fun i => !refused.contains i.id && i.filter.matches? topic).map (·.id)

end Registry

end TopicBridge
