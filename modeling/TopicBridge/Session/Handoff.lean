/-
**Waking at a queue.**

`Queue` says what one attempt at a queue does.  Whoever has to wait makes another attempt when he is
woken, and there are two bells for that: one is rung when there is room, the other when there is
something to take, and whoever closes the queue rings both for everybody.  A bell that is rung while
nobody listens keeps the ring for the next who does, so that nobody falls asleep over a change that
he has missed; such a ring may also be left over, and wake somebody for nothing.  Both ends
therefore listen before they try, and start again when they are woken.  Who brings an element does
not start again after his deadline unless he has been woken: he puts it in by force.

A step is one access to what the two ends share, and any end may make the next one.  Who comes for
an element looks for one first, and only when he has found none does he ask whether the queue is
closed: what happens in between he does not see.  How an attempt ends is settled by the access that
decides it; the bell for the other end is rung after that.

Main definitions:

* `TopicBridge.Bell` — a bell and the one who may listen to it;
* `Queue.force` — puts an element in, if need be in place of the oldest;
* `TopicBridge.Bringer`, `TopicBridge.Taker` — how far the two ends are;
* `TopicBridge.Handoff`, `Handoff.step?` — a queue with its two ends, and their steps.
-/

import TopicBridge.Session.Queue

set_option autoImplicit false

namespace TopicBridge

/-! ### Bells -/

/-- How it stands with the one whom a bell may wake. -/
inductive Listener where
  /-- Nobody listens. -/
  | away
  | asleep
  /-- The bell has been rung for him. -/
  | called
  /-- The bell has been rung for everybody. -/
  | roused
  /-- He has found an earlier ring. -/
  | hearing
  deriving DecidableEq, Repr

/-- A bell. -/
structure Bell where
  /-- Whether it has been rung while nobody was asleep. -/
  pending : Bool := false
  listener : Listener := .away
  deriving DecidableEq, Repr

namespace Bell

/-- Someone listens, and uses up an earlier ring if there is one. -/
def listen (b : Bell) : Bell := ⟨false, if b.pending then .hearing else .asleep⟩

/-- The bell is rung for one. -/
def ring (b : Bell) : Bell :=
  if b.listener = .asleep then { b with listener := .called } else { b with pending := true }

/-- The bell is rung for everybody who listens. -/
def ringAll (b : Bell) : Bell :=
  if b.listener = .asleep then { b with listener := .roused } else b

/-- Whether the one who listens is awake. -/
def isAwake (b : Bell) : Bool :=
  match b.listener with
  | .called | .roused | .hearing => true
  | _ => false

/-- He takes note of the ring. -/
def hear (b : Bell) : Bell := { b with listener := .away }

/-- He goes away; a ring that was meant for him alone is kept for the next. -/
def leave (b : Bell) : Bell := ⟨b.pending || b.listener = .called, .away⟩

end Bell

/-! ### Force -/

/-- Puts an element in, if need be in place of the oldest one, whether or not the queue is
closed. -/
def Queue.force {α : Type} (q : Queue α) (a : α) : PushOutcome × Queue α :=
  if h : q.items.length < q.capacity then (.queued, q.append a h) else (.droppedOldest, q.evict a)

/-! ### The two ends -/

/-- How far the one who brings elements is.  He may have an element and a deadline. -/
inductive Bringer (α : Type) where
  | away
  /-- He is about to ask whether the queue is closed. -/
  | asking (a : α) (deadline : Millis)
  /-- He is about to listen. -/
  | coming (a : α) (deadline : Millis)
  /-- He listens, and is about to try. -/
  | trying (a : α) (deadline : Millis)
  | waiting (a : α) (deadline : Millis)
  /-- His time is over; he is about to put the element in by force. -/
  | forcing (a : α)
  /-- The element is in; he is about to ring for the other end. -/
  | telling
  deriving DecidableEq, Repr

/-- How far the one who takes elements is. -/
inductive Taker where
  | away
  /-- He is about to listen. -/
  | coming
  /-- He listens, and is about to look for an element. -/
  | trying
  /-- He has found none, and is about to ask whether the queue is closed. -/
  | asking
  | waiting
  /-- He has an element; he is about to ring for the other end. -/
  | telling
  deriving DecidableEq, Repr

/-- A queue with its two ends. -/
structure Handoff (α : Type) where
  queue : Queue α
  /-- Rung when there is room. -/
  room : Bell := {}
  /-- Rung when there is something to take. -/
  more : Bell := {}
  bringer : Bringer α := .away
  taker : Taker := .away

namespace Handoff

variable {α : Type}

/-- An empty queue at which nobody waits. -/
def start (capacity : Nat) : Handoff α := { queue := .ofCapacity capacity }

/-- What is done at a queue. -/
inductive Act (α : Type) where
  /-- Someone comes with an element, and will wait for room for some time. -/
  | push (a : α) (wait : Millis)
  /-- He goes on. -/
  | bring
  /-- Someone comes for an element. -/
  | pop
  /-- He goes on. -/
  | take
  /-- He waits no longer. -/
  | cancel
  | close
  /-- Whoever has closed the queue rings for everybody who waits for an element. -/
  | rouseTaker
  /-- He rings for everybody who waits for room. -/
  | rouseBringer
  deriving DecidableEq, Repr

/-- What a step does: the next state, and how what it belongs to has ended, if that is settled. -/
abbrev Outcome (α : Type) := Handoff α × Option (Settled α)

/-- The next step of the one who brings an element. -/
def bring? (now : Millis) (x : Handoff α) : Option (Outcome α) :=
  match x.bringer with
  | .away => none
  | .asking a deadline =>
    if x.queue.closed then some ({ x with bringer := .away }, some (.pushed .closed))
    else some ({ x with bringer := .coming a deadline }, none)
  | .coming a deadline =>
    some ({ x with room := x.room.listen, bringer := .trying a deadline }, none)
  | .trying a deadline =>
    if h : x.queue.items.length < x.queue.capacity then
      some ({ x with queue := x.queue.append a h, bringer := .telling }, some (.pushed .queued))
    else some ({ x with bringer := .waiting a deadline }, none)
  | .waiting a deadline =>
    if x.room.isAwake then
      some ({ x with room := x.room.hear, bringer := .asking a deadline }, none)
    else if deadline ≤ now then
      some ({ x with room := x.room.leave, bringer := .forcing a }, none)
    else none
  | .forcing a =>
    let (outcome, queue) := x.queue.force a
    some ({ x with queue, bringer := .telling }, some (.pushed outcome))
  | .telling =>
    some ({ x with room := x.room.leave, more := x.more.ring, bringer := .away }, none)

/-- The next step of the one who comes for an element. -/
def take? (x : Handoff α) : Option (Outcome α) :=
  match x.taker with
  | .away => none
  | .coming => some ({ x with more := x.more.listen, taker := .trying }, none)
  | .trying =>
    match x.queue.tryPop? with
    | some (a, queue) => some ({ x with queue, taker := .telling }, some (.popped (some a)))
    | none => some ({ x with taker := .asking }, none)
  | .asking =>
    if x.queue.closed then
      some ({ x with more := x.more.leave, taker := .away }, some (.popped none))
    else some ({ x with taker := .waiting }, none)
  | .waiting =>
    if x.more.isAwake then some ({ x with more := x.more.hear, taker := .coming }, none) else none
  | .telling =>
    some ({ x with room := x.room.ring, more := x.more.leave, taker := .away }, none)

/-- What is done at a queue; `none` if it cannot be.  Each end does one thing at a time. -/
def step? (now : Millis) (x : Handoff α) : Act α → Option (Outcome α)
  | .push a wait =>
    match x.bringer with
    | .away => some ({ x with bringer := .asking a (now + wait) }, none)
    | _ => none
  | .bring => x.bring? now
  | .pop =>
    match x.taker with
    | .away => some ({ x with taker := .coming }, none)
    | _ => none
  | .take => x.take?
  | .cancel =>
    match x.taker with
    | .waiting => some ({ x with more := x.more.leave, taker := .away }, none)
    | _ => none
  | .close => some ({ x with queue := x.queue.close }, none)
  | .rouseTaker =>
    if x.queue.closed then some ({ x with more := x.more.ringAll }, none) else none
  | .rouseBringer =>
    if x.queue.closed then some ({ x with room := x.room.ringAll }, none) else none

end Handoff

end TopicBridge
