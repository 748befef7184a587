/-
**A lane: the three parts that serve a flow.**

The subscriber of a flow hands its events over through a channel of fixed capacity, the forwarder
takes them from there and fills a queue, and the publisher empties the queue.  The publisher tells
the forwarder how far it is, and all three see the same signal to stop.

A lane changes by steps of its parts.  At any time several steps may be possible, and any of them
may come next; `Lane.ready?` picks one.  The publisher makes two steps before it takes its leave: it
finds the queue empty, and then asks whether the queue is closed.  The other parts may make steps in
between.

Main definitions:

* `TopicBridge.Lane`, `Lane.State` — the parts and how far they are;
* `Lane.Label`, `Lane.step?` — the steps of a lane, and what each does;
* `Lane.settleAll` — lets everything happen that needs neither time nor the brokers.
-/

import TopicBridge.Relay.Forwarder
import TopicBridge.Session.Publisher
import TopicBridge.Session.Subscriber

set_option autoImplicit false

namespace TopicBridge

/-- The parts that serve a flow. -/
structure Lane where
  subscriber : Subscriber
  forwarder : Forwarder
  publisher : Publisher
  queueCapacity : Nat

namespace Lane

/-- How many events may wait for the forwarder. -/
def channelCapacity : Nat := 64

/-- How far the parts of a lane are. -/
structure State where
  subscriber : Subscriber.State
  middle : Forwarder.Running
  publisher : Publisher.State
  /-- Whether the publisher has found the queue empty, and has not learnt since that it is open. -/
  looked : Bool := false

/-- A lane that has just been started. -/
def start (l : Lane) : State where
  subscriber := l.subscriber.start false
  middle := .start l.queueCapacity .disconnected false
  publisher := l.publisher.start

/-- The signal to stop reaches the forwarder. -/
def State.signal (st : State) : State :=
  { st with middle := { st.middle with inbox := st.middle.inbox.signal true } }

/-- Whether all parts have come to their end. -/
def State.isDone (st : State) : Bool :=
  st.subscriber.isStopped && st.middle.state.done && st.publisher.isClosed

/-! ### Steps -/

/-- What happens next in a lane. -/
inductive Label where
  /-- The subscriber is told something about its stream or the time. -/
  | source (i : LinkInput)
  /-- The subscriber hands over the event that it offers. -/
  | handOver
  /-- There is nobody to take the event. -/
  | abandon
  /-- The forwarder takes an input. -/
  | forward (i : Forwarder.Input)
  /-- The publisher is told something about its stream or the time. -/
  | sink (i : LinkInput)
  /-- The publisher takes a message, or finds that there is none. -/
  | take
  /-- The publisher has found no message, and asks whether there will be one. -/
  | ask
  deriving DecidableEq, Repr

/-- What a step does to the streams, and what is counted. -/
structure Report where
  source : List Effect := []
  sink : List Effect := []
  forwarder : List Metric := []

namespace Report

/-- One report after another. -/
def append (a b : Report) : Report :=
  ⟨a.source ++ b.source, a.sink ++ b.sink, a.forwarder ++ b.forwarder⟩

/-- Everything that is counted. -/
def counts (r : Report) : List Metric :=
  Effect.counted r.source ++ r.forwarder ++ Effect.counted r.sink

end Report

/-- The subscriber has made a step; if it was the last one, there will be no more events. -/
def State.afterSource (st : State) : Subscriber.Outcome → State × Report
  | (subscriber, effects) =>
    let ended := st.middle.inbox.eventsEnded || subscriber.isStopped
    ({ st with
      subscriber
      middle := { st.middle with inbox := { st.middle.inbox with eventsEnded := ended } } },
      { source := effects })

/-- The publisher has made a step, and tells how far it is if that has changed. -/
def State.afterSink (st : State) : Publisher.Outcome → State × Report
  | (publisher, effects) =>
    let told := if publisher.phase.status = st.publisher.phase.status then st.middle.inbox
      else st.middle.inbox.tell publisher.phase.status
    ({ st with
      publisher
      middle := { st.middle with
        inbox := { told with statusEnded := told.statusEnded || publisher.isClosed } } },
      { sink := effects })

/-- The subscriber hands over the event that it offers, if there is room for it. -/
def handOver? (l : Lane) (w : Surroundings) (st : State) : Option (State × Report) :=
  match st.subscriber.offer? with
  | none => none
  | some e =>
    if st.middle.state.done ∨ channelCapacity ≤ st.middle.inbox.events.length then none
    else (l.subscriber.step? w st.subscriber .taken).map
      { st with middle := { st.middle with inbox := st.middle.inbox.put e } }.afterSource

/-- The publisher takes a message, or finds that there is none. -/
def take? (l : Lane) (w : Surroundings) (st : State) : Option (State × Report) :=
  if st.looked then none
  else
    match st.middle.queue.tryPop? with
    | some (m, queue) =>
      (l.publisher.step? w queue.isDrained st.publisher (.next m)).map
        { st with middle := { st.middle with queue } }.afterSink
    | none => if st.publisher.isIdle then some ({ st with looked := true }, {}) else none

/-- The publisher, which has found no message, asks whether there will be one.  It takes its leave
if the queue is closed. -/
def ask? (l : Lane) (w : Surroundings) (st : State) : Option (State × Report) :=
  if st.looked then
    if st.middle.queue.closed then
      (l.publisher.step? w st.middle.queue.isDrained st.publisher .drained).map st.afterSink
    else some ({ st with looked := false }, {})
  else none

/-- What a step does; `none` if it is not possible. -/
def step? (l : Lane) (w : Surroundings) (wall : WallTime) (st : State) :
    Label → Option (State × Report)
  | .source i => (l.subscriber.step? w st.subscriber (.link i)).map st.afterSource
  | .handOver => l.handOver? w st
  | .abandon =>
    if st.middle.state.done ∧ st.subscriber.offer?.isSome then
      (l.subscriber.step? w st.subscriber .refused).map st.afterSource
    else none
  | .forward i => (st.middle.take? l.forwarder w.now wall i).map fun (middle, counts) =>
      ({ st with middle }, { forwarder := counts })
  | .sink i =>
    if st.looked then none
    else (l.publisher.step? w st.middle.queue.isDrained st.publisher (.link i)).map st.afterSink
  | .take => l.take? w st
  | .ask => l.ask? w st

/-! ### Runs in a fixed order -/

/-- What becomes of the attempts to reach the two brokers. -/
structure Network where
  source : Except SessionError Unit
  sink : Except SessionError Unit

/-- What is tried, in order.  The publisher asks as soon as it has looked, and does not look where
it would have to wait. -/
def attempts (net : Network) (now : Millis) (st : State) : List Label :=
  [.ask, .handOver, .abandon, .source (.dialled net.source)] ++
    Subscriber.ownInputs.map .source ++
    (if st.middle.isStuck now then [] else (st.middle.inbox.waiting st.middle.state).map .forward) ++
    .sink (.dialled net.sink) :: (if st.middle.queue.pop?.isSome then [.take] else []) ++
    Publisher.ownInputs.map .sink

/-- The first step that is possible. -/
def ready? (l : Lane) (net : Network) (w : Surroundings) (wall : WallTime) (st : State) :
    Option (State × Report) :=
  (attempts net w.now st).findSome? (l.step? w wall st)

/-- Lets up to `n` steps happen. -/
def settle (l : Lane) (net : Network) (w : Surroundings) (wall : WallTime) :
    Nat → State → State × Report
  | 0, st => (st, {})
  | n + 1, st =>
    match l.ready? net w wall st with
    | none => (st, {})
    | some (st, report) =>
      let (st, more) := settle l net w wall n st
      (st, report.append more)

/-- More steps than are possible one after the other, if neither session connects again at once:
every byte, event and message gives rise to a few of them. -/
def bound (st : State) : Nat :=
  64 + 8 * (Connection.unread st.subscriber.phase.connection? +
    Connection.unread st.publisher.phase.connection? +
    st.middle.inbox.events.length + st.middle.queue.size)

/-- Lets everything happen that needs neither time nor the brokers. -/
def settleAll (l : Lane) (net : Network) (w : Surroundings) (wall : WallTime) (st : State) :
    State × Report :=
  l.settle net w wall (bound st) st

end Lane

end TopicBridge
