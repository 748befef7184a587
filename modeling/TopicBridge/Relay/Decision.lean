/-
**What becomes of a message.**

Main definitions:

* `TopicBridge.Decision` — what becomes of a message;
* `Registry.isDuplicate` — whether a copy of a message is not the one that counts;
* `Registry.decide` — the decision on a message of a flow.
-/

import TopicBridge.Rule.Registry
import TopicBridge.Session.Message

set_option autoImplicit false

namespace TopicBridge

/-- What becomes of a message. -/
inductive Decision where
  /-- No rule handles its topic. -/
  | unmatched
  /-- A filter of the rule holds it back. -/
  | rejected (rule : String) (reason : Filter.Reason)
  /-- The rule cannot make a topic for it. -/
  | noTopic (rule : String) (error : TopicError)
  /-- Another copy of it counts. -/
  | duplicate
  | forward (rule : String) (m : Message)
  deriving DecidableEq, Repr

namespace Registry

/-- Whether a copy of a message is not the one that counts.  A broker may send a copy for each
filter that matches; the copy for the first filter that it has granted counts.  A copy that does
not tell its filters always does. -/
def isDuplicate (g : Registry) (flow : Flow) (refused : List UInt32) (m : Message) : Bool :=
  m.properties.subscriptionIdentifiers ≠ [] &&
    match g.owner? flow m.topic refused with
    | some owner => !m.properties.subscriptionIdentifiers.contains owner
    | none => false

/-- A message under another topic. -/
def redirect (m : Message) (topic : String) : Message :=
  { m with topic, properties := m.properties.forwardable }

/-- The decision on a message of a flow, if the broker has refused some filters. -/
def decide (g : Registry) (flow : Flow) (refused : List UInt32) (m : Message) (now : WallTime) :
    Decision :=
  if g.isDuplicate flow refused m then .duplicate
  else
    match g.find? flow m.topic with
    | none => .unmatched
    | some found =>
      match Filter.verdict found.rule.filters m.payload now with
      | .reject reason => .rejected found.rule.id reason
      | .accept =>
        match outboundTopic flow found with
        | .ok topic => .forward found.rule.id (redirect m topic)
        | .error e => .noTopic found.rule.id e

end Registry

end TopicBridge
