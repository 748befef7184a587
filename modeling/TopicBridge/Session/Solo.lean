/-
**Sessions on their own.**

A session can be run by itself: a subscriber whose events someone takes at once, and a publisher
with a queue that someone else fills.  Everything that needs neither time nor the broker happens
at once.

Main definitions:

* `Subscriber.Solo` — a subscriber by itself, with the events that it has handed over;
* `Publisher.Solo` — a publisher by itself, with its queue.
-/

import TopicBridge.Session.Publisher
import TopicBridge.Session.Queue
import TopicBridge.Session.Subscriber

set_option autoImplicit false

namespace TopicBridge

/-! ### Subscribers -/

/-- A subscriber by itself. -/
structure Subscriber.Solo where
  session : Subscriber
  /-- How an attempt to open a stream ends. -/
  dialled : Except SessionError Unit
  state : Subscriber.State
  world : Surroundings := ⟨0, false⟩
  /-- Whether someone takes its events. -/
  listening : Bool := true
  /-- The events that have been taken. -/
  events : List SessionEvent := []
  metrics : Metrics := {}

namespace Subscriber.Solo

/-- The subscriber has made a step. -/
def after (s : Solo) (events : List SessionEvent) : Outcome → Solo
  | (state, effects) => { s with
      state
      events := s.events ++ events
      metrics := s.metrics.recordAll (Effect.counted effects) }

/-- The next thing that happens. -/
def next? (s : Solo) : Option Solo :=
  match s.state.offer? with
  | some e =>
    if s.listening then (s.session.step? s.world s.state .taken).map (s.after [e])
    else (s.session.step? s.world s.state .refused).map (s.after [])
  | none =>
    ((s.session.link? s.world s.state (.dialled s.dialled)).or
      (s.session.ready? s.world s.state)).map (s.after [])

/-- Lets up to `n` things happen. -/
def settle : Nat → Solo → Solo
  | 0, s => s
  | n + 1, s =>
    match s.next? with
    | none => s
    | some s => settle n s

/-- Lets everything happen that needs neither time nor the broker. -/
def settleAll (s : Solo) : Solo :=
  s.settle (64 + 8 * Connection.unread s.state.phase.connection?)

/-- A subscriber that has just been started. -/
def start (session : Subscriber) (dialled : Except SessionError Unit) : Solo :=
  settleAll { session, dialled, state := session.start false }

/-- Some time passes. -/
def advance (time : Millis) (s : Solo) : Solo :=
  Millis.pass (fun s => settleAll { s with world.now := s.world.now + Millis.tick }) time s

/-- The subscriber is told to stop. -/
def shutdown (s : Solo) : Solo := settleAll { s with world.shutdown := true }

/-- Nobody takes its events any more. -/
def detach (s : Solo) : Solo := settleAll { s with listening := false }

end Subscriber.Solo

/-! ### Publishers -/

/-- A publisher by itself. -/
structure Publisher.Solo where
  session : Publisher
  /-- How an attempt to open a stream ends. -/
  dialled : Except SessionError Unit
  state : Publisher.State
  queue : Queue Message
  world : Surroundings := ⟨0, false⟩
  metrics : Metrics := {}

namespace Publisher.Solo

/-- The publisher has made a step. -/
def after (s : Solo) (queue : Queue Message) : Outcome → Solo
  | (state, effects) => { s with
      state
      queue
      metrics := s.metrics.recordAll (Effect.counted effects) }

/-- What is in the queue goes to the publisher. -/
def take? (s : Solo) : Option Solo :=
  match s.queue.pop? with
  | none => none
  | some (item, queue) =>
    let input := match item with
      | some m => Input.next m
      | none => Input.drained
    (s.session.step? s.world queue.isDrained s.state input).map (s.after queue)

/-- The next thing that happens. -/
def next? (s : Solo) : Option Solo :=
  let drained := s.queue.isDrained
  s.take?.or
    (((s.session.link? s.world drained s.state (.dialled s.dialled)).or
      (s.session.ready? s.world drained s.state)).map (s.after s.queue))

/-- Lets up to `n` things happen. -/
def settle : Nat → Solo → Solo
  | 0, s => s
  | n + 1, s =>
    match s.next? with
    | none => s
    | some s => settle n s

/-- Lets everything happen that needs neither time nor the broker. -/
def settleAll (s : Solo) : Solo :=
  s.settle (64 + 8 * (Connection.unread s.state.phase.connection? + s.queue.size))

/-- A publisher that has just been started, with an empty queue. -/
def start (session : Publisher) (dialled : Except SessionError Unit) (capacity : Nat) : Solo :=
  settleAll { session, dialled, state := session.start, queue := .ofCapacity capacity }

/-- Some time passes. -/
def advance (time : Millis) (s : Solo) : Solo :=
  Millis.pass (fun s => settleAll { s with world.now := s.world.now + Millis.tick }) time s

/-- The publisher is told to stop. -/
def shutdown (s : Solo) : Solo := settleAll { s with world.shutdown := true }

/-- Someone puts a message into the queue, and does not wait for room. -/
def push (m : Message) (s : Solo) : Option PushOutcome × Solo :=
  match s.queue.push? m true with
  | some (outcome, queue) => (some outcome, settleAll { s with queue })
  | none => (none, s)

/-- The queue is closed. -/
def closeQueue (s : Solo) : Solo := settleAll { s with queue := s.queue.close }

end Publisher.Solo

end TopicBridge
