/-
**From a subscriber to a publisher.**

The forwarder of a flow takes the events of the subscriber one after the other, decides on each
message, and puts what is to be forwarded into the publisher's queue.  While it waits for room in
the queue it takes nothing else.  It also tells in which state the flow is.

Main definitions:

* `TopicBridge.FlowState` — the state of a flow;
* `TopicBridge.Forwarder`, `Forwarder.State` — what does not change while it runs, and what does;
* `Forwarder.step?` — what an input does; `none` if the forwarder does not wait for it;
* `Forwarder.Inbox` — what waits for the forwarder;
* `Forwarder.Running`, `Forwarder.Running.step?` — a forwarder with its inbox and its queue;
* `Forwarder.Solo` — a forwarder by itself.
-/

import TopicBridge.Metrics.Counters
import TopicBridge.Relay.Decision
import TopicBridge.Session.Queue

set_option autoImplicit false

namespace TopicBridge

/-! ### States -/

/-- The state of a flow. -/
inductive FlowState where
  | disconnected
  | connecting
  | subscribed
  | relaying
  | shuttingDown
  deriving DecidableEq, Repr

/-- The name of a state. -/
def FlowState.text : FlowState → String
  | disconnected => "disconnected"
  | connecting => "connecting"
  | subscribed => "subscribed"
  | relaying => "relaying"
  | shuttingDown => "shutting_down"

/-- How far the subscriber is, as its events tell. -/
inductive SourcePhase where
  | down
  | connecting
  | subscribed
  | relaying
  deriving DecidableEq, Repr

/-- The state of a flow: it is stopping, or as far as the subscriber is while the publisher is
connected. -/
def FlowState.derive (source : SourcePhase) (destination : SessionStatus) (stopping : Bool) :
    FlowState :=
  if stopping then shuttingDown
  else
    match source with
    | .down => disconnected
    | .connecting => connecting
    | .subscribed => if destination = .connected then subscribed else connecting
    | .relaying => if destination = .connected then relaying else connecting

/-! ### The machine -/

/-- What does not change while a forwarder runs. -/
structure Forwarder where
  flow : Flow
  registry : Registry
  /-- How long room in the queue is waited for. -/
  queueTimeout : Millis

namespace Forwarder

/-- What changes while a forwarder runs. -/
structure State where
  source : SourcePhase := .down
  destination : SessionStatus
  /-- The filters that the broker has refused. -/
  refused : List UInt32 := []
  stopping : Bool
  /-- The state that has been made known. -/
  shown : FlowState := .disconnected
  /-- Whether the publisher may still tell something. -/
  statusOpen : Bool := true
  /-- Whether the signal to stop may still come. -/
  signalOpen : Bool
  /-- The message that waits for room in the queue, and until when. -/
  blocked : Option (Message × Millis) := none
  /-- Whether the forwarder has come to its end. -/
  done : Bool := false
  deriving DecidableEq, Repr

/-- A forwarder that has just been started. -/
def start (status : SessionStatus) (shutdown : Bool) : State :=
  { destination := status, stopping := shutdown, signalOpen := !shutdown }

/-- Makes the state of the flow known. -/
def State.announced (st : State) : State :=
  { st with shown := .derive st.source st.destination st.stopping }

/-- What a forwarder is told. -/
inductive Input where
  | event (e : SessionEvent)
  /-- There will be no more events. -/
  | eventsEnded
  | status (s : SessionStatus)
  /-- The publisher will tell nothing more. -/
  | statusEnded
  /-- The signal to stop has been set or withdrawn. -/
  | signal (shutdown : Bool)
  /-- There will be no more signals. -/
  | signalEnded
  /-- The queue or the clock has changed. -/
  | retry
  deriving DecidableEq, Repr

/-- What an input does: the next state, the queue, and what is counted. -/
abbrev Outcome := State × Queue Message × List Metric

/-- What is counted under the name of the flow. -/
def counted (f : Forwarder) (family : Family) : Metric := .counted family f.flow.text

/-- Puts a message into the queue, or waits for room until a deadline. -/
def enqueue (f : Forwarder) (now deadline : Millis) (q : Queue Message) (st : State) (m : Message) :
    Outcome :=
  match q.push? m (deadline ≤ now) with
  | none => ({ st with blocked := some (m, deadline) }, q, [])
  | some (outcome, q) =>
    ({ st with blocked := none }, q,
      if outcome = .droppedOldest then [f.counted .backpressureDrops] else [])

/-- Carries out the decision on a message. -/
def handle (f : Forwarder) (now : Millis) (wall : WallTime) (q : Queue Message) (st : State)
    (m : Message) : Outcome :=
  let received := f.counted .messagesReceived
  match f.registry.decide f.flow st.refused m wall with
  | .unmatched => (st, q, [received, f.counted .messagesUnmatched])
  | .rejected _ reason => (st, q, [received, .counted .messagesFiltered reason.text])
  | .noTopic _ _ => (st, q, [received, f.counted .topicFailures])
  | .duplicate => (st, q, [received, f.counted .duplicateCopies])
  | .forward _ m =>
    let (st, q, counts) := f.enqueue now (now + f.queueTimeout) q st m
    (st, q, received :: counts)

/-- Takes an event. -/
def onEvent (f : Forwarder) (now : Millis) (wall : WallTime) (q : Queue Message) (st : State) :
    SessionEvent → Outcome
  | .connecting => ({ st with source := .connecting }.announced, q, [])
  | .connected _ => (st.announced, q, [])
  | .subscribed refused => ({ st with source := .subscribed, refused }.announced, q, [])
  | .message m => f.handle now wall q { st with source := .relaying }.announced m
  | .connectionLost _ => ({ st with source := .down }.announced, q, [])

/-- What an input does while no message waits for room. -/
def free? (f : Forwarder) (now : Millis) (wall : WallTime) (q : Queue Message) (st : State) :
    Input → Option Outcome
  | .event e => some (f.onEvent now wall q st e)
  | .eventsEnded => some ({ st with stopping := true, done := true }.announced, q.close, [])
  | .status s =>
    if st.statusOpen then some ({ st with destination := s }.announced, q, []) else none
  | .statusEnded =>
    if st.statusOpen then some ({ st with statusOpen := false }.announced, q, []) else none
  | .signal shutdown =>
    if st.signalOpen then
      some (if shutdown then { st with signalOpen := false, stopping := true }.announced else st,
        q, [])
    else none
  | .signalEnded => if st.signalOpen then some ({ st with signalOpen := false }, q, []) else none
  | .retry => none

/-- What an input does; `none` if the forwarder does not wait for it. -/
def step? (f : Forwarder) (now : Millis) (wall : WallTime) (q : Queue Message) (st : State)
    (i : Input) : Option Outcome :=
  if st.done then none
  else
    match st.blocked with
    | none => f.free? now wall q st i
    | some (m, deadline) => if i = .retry then some (f.enqueue now deadline q st m) else none

/-! ### What waits for a forwarder -/

/-- What waits for a forwarder. -/
structure Inbox where
  /-- The events that have not been taken, oldest first. -/
  events : List SessionEvent := []
  /-- Whether there will be no more events. -/
  eventsEnded : Bool := false
  /-- What the publisher has told last. -/
  status : SessionStatus := .disconnected
  /-- Whether the forwarder has not seen it. -/
  statusNew : Bool := false
  statusEnded : Bool := false
  /-- Whether the signal to stop is set. -/
  shutdown : Bool := false
  /-- Whether the forwarder has not seen it. -/
  shutdownNew : Bool := false
  shutdownEnded : Bool := false
  deriving DecidableEq, Repr

namespace Inbox

/-- The publisher tells how far it is. -/
def tell (b : Inbox) (s : SessionStatus) : Inbox := { b with status := s, statusNew := true }

/-- The signal to stop is set or withdrawn. -/
def signal (b : Inbox) (shutdown : Bool) : Inbox := { b with shutdown, shutdownNew := true }

/-- A further event. -/
def put (b : Inbox) (e : SessionEvent) : Inbox := { b with events := b.events ++ [e] }

/-- The inputs that wait, in the order in which they are looked at. -/
def waiting (b : Inbox) (st : State) : List Input :=
  if st.blocked.isSome then [.retry]
  else
    (b.events.head?.map Input.event).toList ++
    (if b.events.isEmpty && b.eventsEnded then [.eventsEnded] else []) ++
    (if st.statusOpen && b.statusNew then [.status b.status] else []) ++
    (if st.statusOpen && !b.statusNew && b.statusEnded then [.statusEnded] else []) ++
    (if st.signalOpen && b.shutdownNew then [.signal b.shutdown] else []) ++
    (if st.signalOpen && !b.shutdownNew && b.shutdownEnded then [.signalEnded] else [])

/-- What still waits when an input has been taken. -/
def without (b : Inbox) : Input → Inbox
  | .event _ => { b with events := b.events.tail }
  | .status _ => { b with statusNew := false }
  | .signal _ => { b with shutdownNew := false }
  | _ => b

end Inbox

/-- A forwarder with what waits for it and its queue. -/
structure Running where
  state : State
  inbox : Inbox
  queue : Queue Message

namespace Running

/-- A forwarder that has just been started. -/
def start (capacity : Nat) (status : SessionStatus) (shutdown : Bool) : Running where
  state := Forwarder.start status shutdown
  inbox := { status, shutdown }
  queue := .ofCapacity capacity

/-- Whether a message would still wait for room if it were tried again. -/
def isStuck (r : Running) (now : Millis) : Bool :=
  match r.state.blocked with
  | some (m, deadline) => (r.queue.push? m (deadline ≤ now)).isNone
  | none => false

/-- Takes an input that waits. -/
def take? (f : Forwarder) (now : Millis) (wall : WallTime) (r : Running) (i : Input) :
    Option (Running × List Metric) :=
  if i ∈ r.inbox.waiting r.state then
    (f.step? now wall r.queue r.state i).map fun (state, queue, counts) =>
      ({ state, inbox := r.inbox.without i, queue }, counts)
  else none

/-- Takes the first input that waits, if it changes anything. -/
def step? (f : Forwarder) (now : Millis) (wall : WallTime) (r : Running) :
    Option (Running × List Metric) :=
  if r.isStuck now then none
  else (r.inbox.waiting r.state).head?.bind (r.take? f now wall)

/-- The number of things that can happen one after the other: each event may be taken and may have
to wait once, and there are two steps for the status, two for the signal and one for the end. -/
def bound (r : Running) : Nat := 2 * r.inbox.events.length + 7

end Running

/-! ### A forwarder by itself -/

/-- A forwarder by itself, with a clock and with what it has counted. -/
structure Solo where
  forwarder : Forwarder
  wall : WallTime
  running : Running
  now : Millis := 0
  metrics : Metrics := {}

namespace Solo

/-- Lets up to `n` things happen. -/
def settle : Nat → Solo → Solo
  | 0, s => s
  | n + 1, s =>
    match s.running.step? s.forwarder s.now s.wall with
    | none => s
    | some (running, counts) => settle n { s with running, metrics := s.metrics.recordAll counts }

/-- Something happens around the forwarder, and then all that follows from it. -/
def update (change : Running → Running) (s : Solo) : Solo :=
  let running := change s.running
  settle running.bound { s with running }

/-- The inbox changes. -/
def receive (change : Inbox → Inbox) (s : Solo) : Solo :=
  s.update fun r => { r with inbox := change r.inbox }

/-- Some time passes. -/
def advance (time : Millis) (s : Solo) : Solo :=
  Millis.pass (fun s => update id { s with now := s.now + Millis.tick }) time s

/-- Someone takes a message from the queue, and does not wait for one. -/
def tryPop (s : Solo) : Option Message × Solo :=
  match s.running.queue.tryPop? with
  | some (m, queue) => (some m, s.update fun r => { r with queue })
  | none => (none, s)

end Solo

end Forwarder

end TopicBridge
