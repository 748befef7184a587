/-
**The runs of a lane.**

A run of a lane interleaves the steps of its parts in any order.  Seen from the subscriber it is a
run of the subscriber; and since the channel keeps the order of the events, the forwarder has taken
a first part of what the subscriber has handed over, and the rest waits.

Main definitions:

* `Lane.Move`, `Lane.Run` — a step with all that it depends on, and the runs;
* `Lane.Step` — the cases of a step;
* `Lane.sources` — the moves of the subscriber in some moves of a lane;
* `Lane.taken` — the events that the forwarder takes in some moves;
* `Lane.play?` — the run that some labels make.

Main results:

* `Lane.step_of_step?` — every step is one of the cases;
* `Lane.Run.source` — the subscriber makes a run;
* `Lane.Run.handed_eq` — **the forwarder takes the events in order, and none is lost or added**;
* `Lane.Run.refused_eq` — the forwarder takes those filters to be refused that the last report
  names.
-/

import TopicBridge.Proofs.Session.SubscriptionRound
import TopicBridge.Relay.Lane

set_option autoImplicit false

namespace TopicBridge

/-! ### The forwarder -/

namespace Forwarder

variable {f : Forwarder} {now : Millis} {wall : WallTime} {q q' : Queue Message} {st st' : State}
  {counts : List Metric}

/-- The event that an input is, if it is one. -/
def Input.event? : Input → Option SessionEvent
  | .event e => some e
  | _ => none

/-- What a forwarder takes to be refused after an input. -/
def Input.refusedAfter (refused : List UInt32) (i : Input) : List UInt32 :=
  i.event?.toList.foldl SessionEvent.refusedAfter refused

theorem refused_of_enqueue {deadline : Millis} {m : Message}
    (h : f.enqueue now deadline q st m = (st', q', counts)) : st'.refused = st.refused := by
  unfold enqueue at h
  split at h
  · obtain ⟨rfl, -⟩ := Prod.mk.inj h
    rfl
  · obtain ⟨rfl, -⟩ := Prod.mk.inj h
    rfl

theorem refused_of_handle {m : Message} (h : f.handle now wall q st m = (st', q', counts)) :
    st'.refused = st.refused := by
  unfold handle at h
  split at h
  case h_5 =>
    obtain ⟨rfl, -⟩ := Prod.mk.inj h
    exact refused_of_enqueue rfl
  all_goals
    obtain ⟨rfl, -⟩ := Prod.mk.inj h
    rfl

theorem refused_of_onEvent {e : SessionEvent} (h : f.onEvent now wall q st e = (st', q', counts)) :
    st'.refused = (Input.event e).refusedAfter st.refused := by
  cases e with
  | message m =>
      have hm := refused_of_handle h
      exact hm
  | _ =>
      obtain ⟨rfl, -⟩ := Prod.mk.inj h
      rfl

theorem refused_of_free? {i : Input} (h : f.free? now wall q st i = some (st', q', counts)) :
    st'.refused = i.refusedAfter st.refused := by
  cases i with
  | event e => exact refused_of_onEvent (Option.some.inj h)
  | eventsEnded =>
      obtain ⟨rfl, -⟩ := Prod.mk.inj (Option.some.inj h)
      rfl
  | retry => cases h
  | signal shutdown =>
      simp only [free?] at h
      split_ifs at h
      all_goals
        obtain ⟨rfl, -⟩ := Prod.mk.inj (Option.some.inj h)
        rfl
  | _ =>
      simp only [free?] at h
      split_ifs at h
      obtain ⟨rfl, -⟩ := Prod.mk.inj (Option.some.inj h)
      rfl

/-- Only a report changes what a forwarder takes to be refused. -/
theorem refused_of_step? {i : Input} (h : f.step? now wall q st i = some (st', q', counts)) :
    st'.refused = i.refusedAfter st.refused := by
  unfold step? at h
  split at h
  · cases h
  · split at h
    · exact refused_of_free? h
    · split_ifs at h with hi
      subst hi
      exact refused_of_enqueue (Option.some.inj h)

end Forwarder

namespace Lane

/-! ### The cases of a step -/

theorem afterSource_events (st : State) (o : Subscriber.Outcome) :
    (st.afterSource o).1.middle.inbox.events = st.middle.inbox.events := rfl

theorem afterSink_events (st : State) (o : Publisher.Outcome) :
    (st.afterSink o).1.middle.inbox.events = st.middle.inbox.events := by
  unfold State.afterSink
  dsimp only
  split_ifs <;> rfl

/-- What a step can be, in given surroundings. -/
inductive Step (l : Lane) (w : Surroundings) (wall : WallTime) (st : State) :
    Label → State → Report → Prop where
  | source {i : LinkInput} {sub : Subscriber.State} {es : List Effect}
      (h : l.subscriber.step? w st.subscriber (.link i) = some (sub, es)) :
      Step l w wall st (.source i) (st.afterSource (sub, es)).1 (st.afterSource (sub, es)).2
  | handOver {e : SessionEvent} {sub : Subscriber.State} {es : List Effect} {st₁ : State}
      (he : st.subscriber.offer? = some e) (hd : st.middle.state.done = false)
      (hroom : st.middle.inbox.events.length < channelCapacity)
      (h : l.subscriber.step? w st.subscriber .taken = some (sub, es))
      (hput : st₁ = { st with middle := { st.middle with inbox := st.middle.inbox.put e } }) :
      Step l w wall st .handOver (st₁.afterSource (sub, es)).1 (st₁.afterSource (sub, es)).2
  | abandon {sub : Subscriber.State} {es : List Effect} (hd : st.middle.state.done)
      (h : l.subscriber.step? w st.subscriber .refused = some (sub, es)) :
      Step l w wall st .abandon (st.afterSource (sub, es)).1 (st.afterSource (sub, es)).2
  | forward {i : Forwarder.Input} {state : Forwarder.State} {queue : Queue Message}
      {counts : List Metric} (hi : i ∈ st.middle.inbox.waiting st.middle.state)
      (h : l.forwarder.step? w.now wall st.middle.queue st.middle.state i =
        some (state, queue, counts)) :
      Step l w wall st (.forward i)
        { st with middle := ⟨state, st.middle.inbox.without i, queue⟩ } { forwarder := counts }
  | sink {i : LinkInput} {pub : Publisher.State} {es : List Effect} (hl : st.looked = false)
      (h : l.publisher.step? w st.middle.queue.isDrained st.publisher (.link i) = some (pub, es)) :
      Step l w wall st (.sink i) (st.afterSink (pub, es)).1 (st.afterSink (pub, es)).2
  | take {m : Message} {queue : Queue Message} {pub : Publisher.State} {es : List Effect}
      {st₁ : State} (hl : st.looked = false) (hq : st.middle.queue.tryPop? = some (m, queue))
      (h : l.publisher.step? w queue.isDrained st.publisher (.next m) = some (pub, es))
      (hpop : st₁ = { st with middle := { st.middle with queue } }) :
      Step l w wall st .take (st₁.afterSink (pub, es)).1 (st₁.afterSink (pub, es)).2
  | looked (hl : st.looked = false) (he : st.middle.queue.items = [])
      (hi : st.publisher.isIdle = true) : Step l w wall st .take { st with looked := true } {}
  | waits (hl : st.looked = true) (ho : st.middle.queue.closed = false) :
      Step l w wall st .ask { st with looked := false } {}
  | drained {pub : Publisher.State} {es : List Effect} (hl : st.looked = true)
      (hc : st.middle.queue.closed = true)
      (h : l.publisher.step? w st.middle.queue.isDrained st.publisher .drained = some (pub, es)) :
      Step l w wall st .ask (st.afterSink (pub, es)).1 (st.afterSink (pub, es)).2

variable {l : Lane} {w : Surroundings} {wall : WallTime} {st st' : State} {label : Label}
  {report : Report}

/-- **Every step of a lane is one of the cases.** -/
theorem step_of_step? (h : l.step? w wall st label = some (st', report)) :
    Step l w wall st label st' report := by
  cases label with
  | source i =>
      obtain ⟨⟨sub, es⟩, hs, hpair⟩ := Option.map_eq_some_iff.1 h
      obtain ⟨rfl, rfl⟩ := Prod.mk.inj hpair
      exact .source hs
  | handOver =>
      simp only [step?, handOver?] at h
      split at h
      · cases h
      · rename_i e he
        split_ifs at h with hno
        obtain ⟨⟨sub, es⟩, hs, hpair⟩ := Option.map_eq_some_iff.1 h
        obtain ⟨rfl, rfl⟩ := Prod.mk.inj hpair
        simp only [not_or, Bool.not_eq_true, Nat.not_le] at hno
        exact .handOver he hno.1 hno.2 hs rfl
  | abandon =>
      simp only [step?] at h
      split_ifs at h with hd
      obtain ⟨⟨sub, es⟩, hs, hpair⟩ := Option.map_eq_some_iff.1 h
      obtain ⟨rfl, rfl⟩ := Prod.mk.inj hpair
      exact .abandon hd.1 hs
  | forward i =>
      obtain ⟨⟨middle, counts⟩, hs, hpair⟩ := Option.map_eq_some_iff.1 h
      obtain ⟨rfl, rfl⟩ := Prod.mk.inj hpair
      unfold Forwarder.Running.take? at hs
      split_ifs at hs with hi
      obtain ⟨⟨state, queue, counts⟩, hf, hpair⟩ := Option.map_eq_some_iff.1 hs
      obtain ⟨rfl, rfl⟩ := Prod.mk.inj hpair
      exact .forward hi hf
  | sink i =>
      simp only [step?] at h
      split_ifs at h with hl
      obtain ⟨⟨pub, es⟩, hs, hpair⟩ := Option.map_eq_some_iff.1 h
      obtain ⟨rfl, rfl⟩ := Prod.mk.inj hpair
      exact .sink (Bool.eq_false_iff.2 hl) hs
  | take =>
      simp only [step?, take?] at h
      split at h
      · cases h
      · rename_i hl
        rw [Bool.not_eq_true] at hl
        split at h
        · rename_i m queue hq
          obtain ⟨⟨pub, es⟩, hs, hpair⟩ := Option.map_eq_some_iff.1 h
          obtain ⟨rfl, rfl⟩ := Prod.mk.inj hpair
          exact .take hl hq hs rfl
        · rename_i hq
          split_ifs at h with hi
          obtain ⟨rfl, rfl⟩ := Prod.mk.inj (Option.some.inj h)
          exact .looked hl (Queue.tryPop?_eq_none_iff.1 hq) hi
  | ask =>
      simp only [step?, ask?] at h
      split_ifs at h with hl hc
      · obtain ⟨⟨pub, es⟩, hs, hpair⟩ := Option.map_eq_some_iff.1 h
        obtain ⟨rfl, rfl⟩ := Prod.mk.inj hpair
        exact .drained hl hc hs
      · obtain ⟨rfl, rfl⟩ := Prod.mk.inj (Option.some.inj h)
        exact .waits hl (Bool.eq_false_iff.2 hc)

/-! ### Runs -/

/-- A step, with all that it depends on and all that it does. -/
structure Move where
  world : Surroundings
  wall : WallTime
  before : State
  label : Label
  after : State
  report : Report

/-- The move of the subscriber, if it is one. -/
def Move.source? (mv : Move) : Option Subscriber.Move :=
  let move (i : Subscriber.Input) : Subscriber.Move :=
    ⟨mv.world, mv.before.subscriber, i, mv.after.subscriber, mv.report.source⟩
  match mv.label with
  | .source i => some (move (.link i))
  | .handOver => some (move .taken)
  | .abandon => some (move .refused)
  | _ => none

/-- The event that the forwarder takes. -/
def Move.event? (mv : Move) : Option SessionEvent :=
  match mv.label with
  | .forward i => i.event?
  | _ => none

/-- The moves of the subscriber in some moves of a lane. -/
def sources (ms : List Move) : List Subscriber.Move := ms.filterMap Move.source?

/-- The events that the forwarder takes in some moves of a lane. -/
def taken (ms : List Move) : List SessionEvent := ms.filterMap Move.event?

/-- The runs of a lane: the moves, oldest first, and the state that they lead to. -/
inductive Run (l : Lane) (st₀ : State) : List Move → State → Prop where
  | nil : Run l st₀ [] st₀
  | snoc {ms : List Move} {mv : Move} (h : Run l st₀ ms mv.before)
      (hs : l.step? mv.world mv.wall mv.before mv.label = some (mv.after, mv.report)) :
      Run l st₀ (ms ++ [mv]) mv.after

variable {st₀ : State} {ms : List Move} {mv : Move}

theorem sources_concat : sources (ms ++ [mv]) = sources ms ++ mv.source?.toList :=
  filterMap_concat _

theorem taken_concat : taken (ms ++ [mv]) = taken ms ++ mv.event?.toList := filterMap_concat _

/-- The subscriber makes a step of its own, or none at all. -/
theorem source_of_step (h : Step l mv.world mv.wall mv.before mv.label mv.after mv.report) :
    (∃ sv, mv.source? = some sv ∧ sv.before = mv.before.subscriber ∧
      sv.after = mv.after.subscriber ∧
      l.subscriber.step? sv.world sv.before sv.input = some (sv.after, sv.effects)) ∨
    (mv.source? = none ∧ mv.after.subscriber = mv.before.subscriber) := by
  obtain ⟨w, wall, before, label, after, report⟩ := mv
  dsimp only at h
  cases h with
  | source h => exact .inl ⟨_, rfl, rfl, rfl, h⟩
  | handOver _ _ _ h hput =>
      subst hput
      exact .inl ⟨_, rfl, rfl, rfl, h⟩
  | abandon _ h => exact .inl ⟨_, rfl, rfl, rfl, h⟩
  | take _ _ _ hpop =>
      subst hpop
      exact .inr ⟨rfl, rfl⟩
  | _ => exact .inr ⟨rfl, rfl⟩

/-- **The subscriber of a lane makes a run.** -/
theorem Run.source (h : Run l st₀ ms st) :
    l.subscriber.Run st₀.subscriber (sources ms) st.subscriber := by
  induction h with
  | nil => exact .nil
  | snoc _ hs ih =>
      rw [sources_concat]
      rcases source_of_step (step_of_step? hs) with ⟨sv, hsv, hbefore, hafter, hstep⟩ | ⟨hsv, hsame⟩
      · -- the subscriber moves: its run grows by the same step
        rw [hsv, Option.toList_some, ← hafter]
        rw [← hbefore] at ih
        exact ih.snoc hstep
      · rw [hsv, Option.toList_none, List.append_nil, hsame]
        exact ih

theorem head?_of_event_mem_waiting {b : Forwarder.Inbox} {s : Forwarder.State} {e : SessionEvent}
    (h : .event e ∈ b.waiting s) : b.events.head? = some e := by
  unfold Forwarder.Inbox.waiting at h
  split_ifs at h
  · simp at h
  all_goals simpa using h

/-- Taking an input removes the event that it is from those that wait. -/
theorem events_of_mem_waiting {b : Forwarder.Inbox} {s : Forwarder.State} {i : Forwarder.Input}
    (h : i ∈ b.waiting s) : b.events = i.event?.toList ++ (b.without i).events := by
  cases i with
  | event e =>
      obtain ⟨rest, hb⟩ := List.head?_eq_some_iff.1 (head?_of_event_mem_waiting h)
      simp [Forwarder.Input.event?, Forwarder.Inbox.without, hb]
  | _ => rfl

/-- The events that wait, before and after a step: one may be added at the end, and one taken at the
front. -/
theorem events_of_step (h : Step l mv.world mv.wall mv.before mv.label mv.after mv.report) :
    mv.before.middle.inbox.events ++ (Subscriber.handed mv.source?.toList) =
      mv.event?.toList ++ mv.after.middle.inbox.events := by
  obtain ⟨w, wall, before, label, after, report⟩ := mv
  dsimp only at h
  -- only a hand-over adds an event, and only the forwarder takes one
  cases h with
  | source | abandon | looked | waits => exact List.append_nil _
  | handOver he _ _ _ hput =>
      subst hput
      simp [Move.source?, Subscriber.handed, Subscriber.Move.handed?, he, Move.event?,
        afterSource_events, Forwarder.Inbox.put]
  | forward hi => exact (List.append_nil _).trans (events_of_mem_waiting hi)
  | sink =>
      rw [afterSink_events]
      exact List.append_nil _
  | take _ _ _ hpop =>
      subst hpop
      rw [afterSink_events]
      exact List.append_nil _
  | drained =>
      rw [afterSink_events]
      exact List.append_nil _

/-- **The forwarder takes the events in the order in which they are handed over**, and what it has
not taken waits for it. -/
theorem Run.handed_eq (h : Run l l.start ms st) :
    Subscriber.handed (sources ms) = taken ms ++ st.middle.inbox.events := by
  induction h with
  | nil => rfl
  | snoc _ hs ih =>
      rw [sources_concat, taken_concat, List.append_assoc, ← events_of_step (step_of_step? hs),
        ← List.append_assoc, ← ih, Subscriber.handed, List.filterMap_append]
      rfl

/-- A step changes what the forwarder takes to be refused as the event says that it takes. -/
theorem refused_of_step (h : Step l mv.world mv.wall mv.before mv.label mv.after mv.report) :
    mv.after.middle.state.refused =
      mv.event?.toList.foldl SessionEvent.refusedAfter mv.before.middle.state.refused := by
  obtain ⟨w, wall, before, label, after, report⟩ := mv
  dsimp only at h
  cases h with
  | handOver _ _ _ _ hput =>
      subst hput
      rfl
  | forward _ hf => exact Forwarder.refused_of_step? hf
  | take _ _ _ hpop =>
      subst hpop
      rfl
  | _ => rfl

/-- The forwarder takes those filters to be refused that the last report names. -/
theorem Run.refused_eq (h : Run l l.start ms st) :
    st.middle.state.refused = Subscriber.reported (taken ms) := by
  induction h with
  | nil => rfl
  | snoc _ hs ih =>
      rw [refused_of_step (step_of_step? hs), ih, taken_concat, Subscriber.reported,
        Subscriber.reported, List.foldl_append]

/-! ### Playing a run -/

/-- The run that some labels make in given surroundings, after some moves. -/
def play? (l : Lane) (w : Surroundings) (wall : WallTime) :
    List Label → List Move → State → Option (List Move × State)
  | [], ms, st => some (ms, st)
  | label :: script, ms, st =>
    match l.step? w wall st label with
    | none => none
    | some (st', report) => play? l w wall script (ms ++ [⟨w, wall, st, label, st', report⟩]) st'

/-- What has been played is a run. -/
theorem Run.of_play? {script : List Label} {ms' : List Move} (h : Run l st₀ ms st)
    (hp : l.play? w wall script ms st = some (ms', st')) : Run l st₀ ms' st' := by
  induction script generalizing ms st with
  | nil =>
      obtain ⟨rfl, rfl⟩ := Prod.mk.inj (Option.some.inj hp)
      exact h
  | cons label script ih =>
      simp only [play?] at hp
      split at hp
      · cases hp
      · rename_i hs
        exact ih (@Run.snoc _ _ _ ⟨_, _, _, _, _, _⟩ h hs) hp

end Lane

end TopicBridge
