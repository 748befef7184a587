/-
**The queue between a relay's two ends.**

Messages wait in a queue of fixed capacity until the publisher takes them.  Whoever finds it full
waits for room, but only for a time: then the oldest message gives way.  A closed queue admits
nothing more; what is in it can still be taken.

Main definitions:

* `TopicBridge.Queue` — a bounded first-in-first-out queue;
* `Queue.push?` — one attempt to put an element in, which may have to wait;
* `Queue.pop?` — one attempt to take an element, which may have to wait;
* `TopicBridge.Exchange` — a queue with those who wait at it, in the order in which they came.

Main results:

* `Queue.items_push?`, `Queue.tryPop?_eq_some_iff` — what the attempts do to the elements;
* `Queue.tryPop?_eq_none_iff` — when there is nothing to take.
-/

import TopicBridge.Session.Backoff

set_option autoImplicit false

namespace TopicBridge

/-! ### The queue -/

/-- Elements in the order in which they came, not more than the capacity. -/
structure Queue (α : Type) where
  capacity : Nat
  /-- The elements, oldest first. -/
  items : List α
  closed : Bool
  capacity_pos : 0 < capacity
  length_le : items.length ≤ capacity

/-- How an attempt to put an element in ends. -/
inductive PushOutcome where
  | queued
  /-- There was no room in time, and the oldest element has been dropped. -/
  | droppedOldest
  /-- The queue is closed; the element is discarded. -/
  | closed
  deriving DecidableEq, Repr

/-- The name of an outcome. -/
def PushOutcome.text : PushOutcome → String
  | queued => "queued"
  | droppedOldest => "dropped_oldest"
  | closed => "closed"

namespace Queue

variable {α : Type}

/-- An empty queue, which has room for one element at least. -/
def ofCapacity (capacity : Nat) : Queue α where
  capacity := max capacity 1
  items := []
  closed := false
  capacity_pos := by omega
  length_le := by simp

/-- The elements in the queue. -/
def size (q : Queue α) : Nat := q.items.length

/-- Whether another element finds room. -/
def hasRoom (q : Queue α) : Bool := q.items.length < q.capacity

/-- Whether nothing is in the queue, and nothing will be. -/
def isDrained (q : Queue α) : Bool := q.closed && q.items.isEmpty

/-- Admits nothing more. -/
def close (q : Queue α) : Queue α := { q with closed := true }

/-- Puts an element in where there is room. -/
def append (q : Queue α) (a : α) (h : q.items.length < q.capacity) : Queue α :=
  { q with
    items := q.items ++ [a]
    length_le := by
      rw [List.length_append, List.length_singleton]
      exact h }

/-- Puts an element in and drops the oldest one. -/
def evict (q : Queue α) (a : α) : Queue α :=
  { q with
    items := q.items.tail ++ [a]
    length_le := by
      have h := q.length_le
      have hpos := q.capacity_pos
      simp only [List.length_append, List.length_tail, List.length_cons, List.length_nil]
      omega }

/-- One attempt to put an element in: `none` if it has to wait for room.  Once the time for waiting
has `expired`, the oldest element gives way. -/
def push? (q : Queue α) (a : α) (expired : Bool) : Option (PushOutcome × Queue α) :=
  if q.closed then some (.closed, q)
  else if h : q.items.length < q.capacity then some (.queued, q.append a h)
  else if expired then some (.droppedOldest, q.evict a)
  else none

/-- Takes the oldest element. -/
def tryPop? (q : Queue α) : Option (α × Queue α) :=
  match h : q.items with
  | [] => none
  | a :: rest => some (a, { q with
      items := rest
      length_le := by
        have hle := q.length_le
        rw [h, List.length_cons] at hle
        omega })

/-- One attempt to take the oldest element: `none` if there is nothing to take yet, and no element
if there never will be. -/
def pop? (q : Queue α) : Option (Option α × Queue α) :=
  match q.tryPop? with
  | some (a, rest) => some (some a, rest)
  | none => if q.closed then some (none, q) else none

/-! ### What the attempts do -/

@[simp] theorem items_ofCapacity (n : Nat) : (ofCapacity n : Queue α).items = [] := rfl

@[simp] theorem items_close (q : Queue α) : q.close.items = q.items := rfl

@[simp] theorem closed_close (q : Queue α) : q.close.closed = true := rfl

@[simp] theorem items_append (q : Queue α) (a : α) (h : q.items.length < q.capacity) :
    (q.append a h).items = q.items ++ [a] := rfl

@[simp] theorem items_evict (q : Queue α) (a : α) : (q.evict a).items = q.items.tail ++ [a] := rfl

/-- An attempt that ends adds the element behind the others, in place of the oldest one, or not at
all, as its outcome says. -/
theorem items_push? {q r : Queue α} {a : α} {expired : Bool} {o : PushOutcome}
    (h : q.push? a expired = some (o, r)) :
    r.items = match o with
      | .queued => q.items ++ [a]
      | .droppedOldest => q.items.tail ++ [a]
      | .closed => q.items := by
  unfold push? at h
  split at h
  · cases h; rfl
  · split at h
    · cases h; rfl
    · split at h
      · cases h; rfl
      · cases h

theorem tryPop?_eq_some_iff {q r : Queue α} {a : α} :
    q.tryPop? = some (a, r) ↔
      q.items = a :: r.items ∧ r.capacity = q.capacity ∧ r.closed = q.closed := by
  obtain ⟨capacity, items, closed, hpos, hle⟩ := q
  obtain ⟨capacity', items', closed', hpos', hle'⟩ := r
  cases items with
  | nil => simp [tryPop?]
  | cons b rest =>
    simp only [tryPop?, Option.some.injEq, Prod.mk.injEq, mk.injEq, List.cons.injEq]
    constructor
    · rintro ⟨rfl, rfl, rfl, rfl⟩
      exact ⟨⟨rfl, rfl⟩, rfl, rfl⟩
    · rintro ⟨⟨rfl, rfl⟩, rfl, rfl⟩
      exact ⟨rfl, rfl, rfl, rfl⟩

theorem tryPop?_eq_none_iff {q : Queue α} : q.tryPop? = none ↔ q.items = [] := by
  obtain ⟨capacity, items, closed, hpos, hle⟩ := q
  cases items <;> simp [tryPop?]

end Queue

/-! ### Waiting at a queue -/

/-- Someone who waits for room. -/
structure Waiter (α : Type) where
  name : Nat
  item : α
  /-- When the waiting ends. -/
  deadline : Millis

/-- How an operation on a queue ends. -/
inductive Settled (α : Type) where
  | pushed (outcome : PushOutcome)
  | popped (item : Option α)

/-- A queue with those who wait at it.  Everyone has a name, and those who came first are served
first. -/
structure Exchange (α : Type) where
  queue : Queue α
  now : Millis := 0
  pushers : List (Waiter α) := []
  poppers : List Nat := []
  /-- The operations that have ended, each under the name of who asked for it. -/
  settled : List (Nat × Settled α) := []

namespace Exchange

variable {α : Type}

/-- Nobody waits at an empty queue. -/
def ofCapacity (capacity : Nat) : Exchange α := { queue := .ofCapacity capacity }

/-- The first of those who bring an element that can be served, with the outcome. -/
def firstPusher? (x : Exchange α) : Option (Nat × PushOutcome × Queue α) :=
  x.pushers.findSome? fun w =>
    (x.queue.push? w.item (w.deadline ≤ x.now)).map fun r => (w.name, r)

/-- Serves the first who can be served: those who take come before those who bring, so that a
queue with room for one keeps moving. -/
def serve? (x : Exchange α) : Option (Exchange α) :=
  match x.poppers, x.queue.pop? with
  | name :: rest, some (item, queue) =>
    some { x with queue, poppers := rest, settled := x.settled ++ [(name, .popped item)] }
  | _, _ =>
    x.firstPusher?.map fun (name, outcome, queue) => { x with
      queue
      pushers := x.pushers.filter fun w => w.name ≠ name
      settled := x.settled ++ [(name, .pushed outcome)] }

/-- Serves up to `n` of those who wait. -/
def settle : Nat → Exchange α → Exchange α
  | 0, x => x
  | n + 1, x =>
    match x.serve? with
    | none => x
    | some x => settle n x

/-- Serves all who can be served. -/
def settleAll (x : Exchange α) : Exchange α := x.settle (x.pushers.length + x.poppers.length)

/-- Someone comes with an element, and waits for room for some time. -/
def push (x : Exchange α) (name : Nat) (item : α) (time : Millis) : Exchange α :=
  settleAll { x with pushers := x.pushers ++ [⟨name, item, x.now + time⟩] }

/-- Someone comes for an element. -/
def pop (x : Exchange α) (name : Nat) : Exchange α :=
  settleAll { x with poppers := x.poppers ++ [name] }

/-- An element is taken if there is one, by someone who does not wait. -/
def tryPop (x : Exchange α) : Option α × Exchange α :=
  match x.queue.tryPop? with
  | some (a, queue) => (some a, settleAll { x with queue })
  | none => (none, x)

/-- Closes the queue. -/
def close (x : Exchange α) : Exchange α := settleAll { x with queue := x.queue.close }

/-- Some time passes. -/
def advance (time : Millis) (x : Exchange α) : Exchange α :=
  Millis.pass (fun x => settleAll { x with now := x.now + Millis.tick }) time x

end Exchange

end TopicBridge
