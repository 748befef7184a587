import TopicBridge.Config.Strict
import TopicBridge.Main
import TopicBridge.Metrics.Page
import TopicBridge.Relay.Running
import TopicBridge.Session.Solo
import TopicBridge.Proofs.Topic.Expansion
import TopicBridge.Proofs.Topic.Refill
import TopicBridge.Proofs.Rule.Built
import TopicBridge.Proofs.Rule.Coverage
import TopicBridge.Proofs.Session.SubscriberRun
import TopicBridge.Proofs.Session.Redelivery
import TopicBridge.Proofs.Session.SubscriptionRound
import TopicBridge.Proofs.Relay.LaneRun
import TopicBridge.Proofs.Relay.Overlap
import TopicBridge.Proofs.Mqtt.Stream
import TopicBridge.Proofs.Mqtt.RoundTrip
import TopicBridge.Proofs.Relay.Order
import TopicBridge.Proofs.Relay.Ledger
import TopicBridge.Proofs.Relay.Copies
import TopicBridge.Proofs.Relay.Chain
import TopicBridge.Proofs.Session.Limits
import TopicBridge.Proofs.Session.Vigilance
import TopicBridge.Proofs.Rule.Outbound
import TopicBridge.Proofs.Session.Exchange
import TopicBridge.Proofs.Session.Acknowledgements
import TopicBridge.Proofs.Session.Attention
import TopicBridge.Proofs.Relay.Lifecycle
import TopicBridge.Proofs.Relay.Setup
import TopicBridge.Proofs.Relay.Drain
import TopicBridge.Proofs.Session.Handoff
import TopicBridge.Proofs.Mqtt.Framing
import TopicBridge.Proofs.Mqtt.NormalForm
import TopicBridge.Proofs.Session.Outlet
import TopicBridge.Proofs.Topic.Levelwise
import TopicBridge.Proofs.Topic.Replacement
import TopicBridge.Proofs.Rule.Rewriting
import TopicBridge.Proofs.Rule.Ownership
import TopicBridge.Proofs.Rule.Collection
import TopicBridge.Proofs.Mqtt.Meaning
import TopicBridge.Proofs.Mqtt.Bodies
import TopicBridge.Proofs.Session.Inbound
import TopicBridge.Proofs.Session.Tally
import TopicBridge.Proofs.Relay.Crowd
import TopicBridge.Proofs.Filter.Conditions
import TopicBridge.Proofs.Session.Delays
import TopicBridge.Proofs.Mqtt.Numbers
import TopicBridge.Proofs.Topic.Grammar
import TopicBridge.Proofs.Config.Substitution
