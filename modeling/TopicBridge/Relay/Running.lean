/-
**A relay that runs.**

A relay serves the forward flow, and the reverse one if a rule relays back.  The two lanes share
the rules and the counts.  When it is told to stop it waits for its lanes, but not longer than a
time limit.

Main definitions:

* `Relay.lane` — the lane of a flow;
* `Relay.Running` — the lanes of a relay, the clock and the counts;
* `Relay.start` — the start of a relay;
* `Relay.Running.advance`, `Relay.Running.shutdown` — time passes; the relay is told to stop.
-/

import TopicBridge.Relay.Lane
import TopicBridge.Relay.Setup

set_option autoImplicit false

namespace TopicBridge

namespace Relay

/-- The flows that a relay serves. -/
def flows (r : Relay) : List Flow :=
  if r.registry.hasReverse then [.forward, .reverse] else [.forward]

/-- How the sessions of a flow are called: the name that is counted, and the one in client names. -/
def flowNames : Flow → String × String
  | .forward => ("forward", "fwd")
  | .reverse => ("reverse", "rev")

/-- The sides of a flow: where its messages come from, and where they go. -/
def sides : Flow → Side × Side
  | .forward => (.source, .destination)
  | .reverse => (.destination, .source)

/-- The settings of a session. -/
def session (r : Relay) (process : String) (flow : Flow) (side : Side) (role : String) :
    SessionSettings :=
  let (name, tag) := flowNames flow
  SessionSettings.ofEndpoint s!"{name}/{role}" (r.config.endpoint side) process s!"{tag}-{role}"
    (1000 * r.config.relay.reconnectMinSecs.toNat) (1000 * r.config.relay.reconnectMaxSecs.toNat)

/-- The lane of a flow, in a process with a given name. -/
def lane (r : Relay) (process : String) (flow : Flow) : Lane :=
  let o := r.config.relay
  let relayId := if o.loopPrevention then some r.id else none
  { subscriber := {
      settings := r.session process flow (sides flow).1 "sub"
      interests := r.registry.interests flow
      relayId }
    forwarder := { flow, registry := r.registry, queueTimeout := o.queueTimeoutMs.toNat }
    publisher := {
      settings := r.session process flow (sides flow).2 "pub"
      flow
      relayId
      ackTimeout := 1000 * o.ackTimeoutSecs.toNat }
    queueCapacity := o.queueCapacity.toNat }

/-! ### Running -/

/-- What becomes of the attempts to reach the brokers. -/
structure Reach where
  source : Except SessionError Unit
  destination : Except SessionError Unit

/-- What becomes of the attempts to reach a side. -/
def Reach.side (reach : Reach) : Side → Except SessionError Unit
  | .source => reach.source
  | .destination => reach.destination

/-- The network as a flow sees it. -/
def Reach.network (reach : Reach) (flow : Flow) : Lane.Network :=
  ⟨reach.side (sides flow).1, reach.side (sides flow).2⟩

/-- A relay that runs. -/
structure Running where
  reach : Reach
  wall : WallTime
  /-- How long the relay may take to stop. -/
  patience : Millis
  lanes : List (Lane × Lane.State)
  now : Millis := 0
  /-- When the relay stops at the latest, once it has been told to. -/
  limit : Option Millis := none
  stopped : Bool := false
  metrics : Metrics := {}

namespace Running

/-- What the sessions see. -/
def surroundings (r : Running) : Surroundings := ⟨r.now, r.limit.isSome⟩

/-- Lets everything happen that needs neither time nor the brokers. -/
def settle (r : Running) : Running :=
  if r.stopped then r
  else
    let settled := r.lanes.map fun (l, st) =>
      (l, l.settleAll (r.reach.network l.forwarder.flow) r.surroundings r.wall st)
    let lanes := settled.map fun (l, st, _) => (l, st)
    { r with
      lanes
      metrics := r.metrics.recordAll (settled.flatMap fun (_, _, report) => report.counts)
      stopped := r.limit.isSome && lanes.all fun (_, st) => st.isDone }

/-- The lanes are given up when the time for stopping is over. -/
def expire (r : Running) : Running :=
  match r.limit with
  | some limit => { r with stopped := r.stopped || limit ≤ r.now }
  | none => r

/-- The relay is told to stop. -/
def shutdown (r : Running) : Running :=
  match r.limit with
  | some _ => r
  | none => settle (expire { r with
      limit := some (r.now + r.patience)
      lanes := r.lanes.map fun (l, st) => (l, st.signal) })

/-- Some time passes. -/
def advance (time : Millis) (r : Running) : Running :=
  Millis.pass (fun r => expire (settle { r with now := r.now + Millis.tick })) time r

/-- The state of each flow. -/
def states (r : Running) : List (Flow × FlowState) :=
  r.lanes.map fun (l, st) => (l.forwarder.flow, st.middle.state.shown)

/-- The state of a flow, if it is served. -/
def state? (r : Running) (flow : Flow) : Option FlowState := r.states.lookup flow

/-- The messages that have been published in both flows. -/
def relayed (r : Running) : Nat := r.metrics.relayedTotal.1

end Running

/-- Starts a relay in a process with a given name. -/
def start (r : Relay) (process : String) (reach : Reach) (wall : WallTime) : Running :=
  let lanes := r.flows.map (r.lane process)
  Running.settle {
    reach
    wall
    patience := 1000 * r.config.relay.shutdownTimeoutSecs.toNat
    lanes := lanes.map fun l => (l, l.start) }

end Relay

end TopicBridge
