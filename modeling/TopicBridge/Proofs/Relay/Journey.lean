/-
**The way of a message through a lane.**

What is to be forwarded lines up: the queue, and behind it the message that is held until there is
room.  A message leaves the line at the front, either because the publisher takes it and tries to
send it, or because it is evicted; it does so once, and it never comes back.  So the messages that
have left, followed by those in the line, are the decisions to forward in the order in which they
were taken, whatever the sessions of the lane go through.

Unlike a `Lane.Run` a journey may contain the signal to stop, which reaches the lane from outside.

Main definitions:

* `Lane.Journey` — the runs of a lane that may be told to stop;
* `Lane.judged`, `Lane.forwards` — the decisions of the forwarder, and those to forward;
* `Lane.Move.exits`, `Lane.exits` — what leaves the line, and how;
* `Lane.State.line` — what is in the line;
* `Lane.Move.sinkInput?` — what the publisher is told.

Main results:

* `Lane.Journey.handed_eq` — the decisions are on the messages handed over, in that order;
* `Lane.Journey.line_eq` — **what has left the line and what is in it are the decisions to
  forward**;
* `Lane.Journey.attempted_sublist` — so the publisher takes what is to be forwarded in order.
-/

import TopicBridge.Proofs.Relay.ForwarderStep
import TopicBridge.Proofs.Relay.Overlap
import TopicBridge.Proofs.Session.PublisherStep

set_option autoImplicit false

namespace TopicBridge

/-- The message that an event brings. -/
def SessionEvent.message? : SessionEvent → Option Message
  | .message m => some m
  | _ => none

namespace Lane

variable {l : Lane} {w : Surroundings} {wall : WallTime} {st st' st₀ st₁ st₂ : State}
  {ms ms₁ ms₂ : List Move} {mv : Move}

/-! ### Journeys -/

/-- The moves of a lane that may be told to stop, oldest first, and the state that they lead to. -/
inductive Journey (l : Lane) (st₀ : State) : List Move → State → Prop where
  | nil : Journey l st₀ [] st₀
  | snoc {ms : List Move} {mv : Move} (h : Journey l st₀ ms mv.before)
      (hs : l.step? mv.world mv.wall mv.before mv.label = some (mv.after, mv.report)) :
      Journey l st₀ (ms ++ [mv]) mv.after
  | signal {ms : List Move} {st : State} (h : Journey l st₀ ms st) : Journey l st₀ ms st.signal

/-- A run is a journey on which nobody tells the lane to stop. -/
theorem Run.journey (h : Run l st₀ ms st) : Journey l st₀ ms st := by
  induction h with
  | nil => exact .nil
  | snoc _ hs ih => exact ih.snoc hs

/-- Every move of a journey is a step, in the state that the moves before it lead to. -/
theorem Journey.before {front back : List Move}
    (h : Journey l st₀ (front ++ mv :: back) st) :
    Journey l st₀ front mv.before ∧
      Step l mv.world mv.wall mv.before mv.label mv.after mv.report := by
  generalize hms : front ++ mv :: back = ms at h
  induction h generalizing back with
  | nil => simp at hms
  | @snoc ms mv' h hs ih =>
      rcases List.eq_nil_or_concat back with rfl | ⟨back, last, rfl⟩
      · obtain ⟨rfl, hlast⟩ := List.append_inj' hms rfl
        obtain rfl := List.singleton_inj.1 hlast
        exact ⟨h, step_of_step? hs⟩
      · have hcut : (front ++ mv :: back) ++ [last] = ms ++ [mv'] := by
          rw [← hms, List.concat_eq_append, List.append_assoc, List.cons_append]
        exact ih (List.append_inj' hcut rfl).1
  | signal _ ih => exact ih hms

theorem Journey.step_of_mem (h : Journey l st₀ ms st) (hmv : mv ∈ ms) :
    Step l mv.world mv.wall mv.before mv.label mv.after mv.report := by
  obtain ⟨front, back, rfl⟩ := List.append_of_mem hmv
  exact h.before.2

/-- A journey may go on where another has come to. -/
theorem Journey.append (h₁ : Journey l st₀ ms₁ st₁) (h₂ : Journey l st₁ ms₂ st₂) :
    Journey l st₀ (ms₁ ++ ms₂) st₂ := by
  induction h₂ with
  | nil => rwa [List.append_nil]
  | snoc _ hs ih =>
      rw [← List.append_assoc]
      exact ih.snoc hs
  | signal _ ih => exact ih.signal

/-- **The subscriber of a lane makes a run.** -/
theorem Journey.source (h : Journey l st₀ ms st) :
    l.subscriber.Run st₀.subscriber (sources ms) st.subscriber := by
  induction h with
  | nil => exact .nil
  | snoc _ hs ih =>
      rw [sources_concat]
      rcases source_of_step (step_of_step? hs) with ⟨sv, hsv, hbefore, hafter, hstep⟩ | ⟨hsv, hsame⟩
      · rw [hsv, Option.toList_some, ← hafter]
        rw [← hbefore] at ih
        exact ih.snoc hstep
      · rw [hsv, Option.toList_none, List.append_nil, hsame]
        exact ih
  | signal _ ih => exact ih

/-! ### What the forwarder decides -/

/-- The decision of a move, with the message that it is on. -/
def Move.judgements (l : Lane) (mv : Move) : List (Message × Decision) :=
  match mv.label with
  | .forward i => l.forwarder.judgements mv.wall mv.before.middle.state.refused i
  | _ => []

/-- The decisions of some moves, in order. -/
def judged (l : Lane) (ms : List Move) : List (Message × Decision) :=
  ms.flatMap (Move.judgements l)

/-- The messages that some moves decide to forward, in order. -/
def forwards (l : Lane) (ms : List Move) : List Message :=
  (judged l ms).filterMap (·.2.forwarded?)

theorem judged_concat : judged l (ms ++ [mv]) = judged l ms ++ mv.judgements l := by
  simp [judged]

theorem forwards_concat :
    forwards l (ms ++ [mv]) = forwards l ms ++ (mv.judgements l).filterMap (·.2.forwarded?) := by
  rw [forwards, judged_concat, List.filterMap_append, forwards]

/-- A decision is on the message of the event that is taken. -/
theorem map_fst_judgements (l : Lane) (mv : Move) :
    (mv.judgements l).map Prod.fst = mv.event?.toList.filterMap SessionEvent.message? := by
  obtain ⟨w, wall, before, label, after, report⟩ := mv
  cases label with
  | forward i =>
      cases i with
      | event e => cases e <;> rfl
      | _ => rfl
  | _ => rfl

theorem map_fst_judged (l : Lane) (ms : List Move) :
    (judged l ms).map Prod.fst = (taken ms).filterMap SessionEvent.message? := by
  induction ms with
  | nil => rfl
  | cons mv ms ih =>
      rw [judged, List.flatMap_cons, List.map_append, map_fst_judgements, ← judged, ih, taken,
        taken, ← List.filterMap_append, List.filterMap_cons]
      cases mv.event? <;> rfl

/-- Every event that is handed over has been taken or waits, in order. -/
theorem Journey.events_eq (h : Journey l l.start ms st) :
    Subscriber.handed (sources ms) = taken ms ++ st.middle.inbox.events := by
  induction h with
  | nil => rfl
  | snoc _ hs ih =>
      rw [sources_concat, taken_concat, List.append_assoc, ← events_of_step (step_of_step? hs),
        ← List.append_assoc, ← ih, Subscriber.handed, List.filterMap_append]
      rfl
  | signal _ ih => exact ih

/-- **The decisions are on the messages handed over, in that order**, and the messages on which
there is no decision yet wait behind. -/
theorem Journey.handed_eq (h : Journey l l.start ms st) :
    (Subscriber.handed (sources ms)).filterMap SessionEvent.message? =
      (judged l ms).map Prod.fst ++ st.middle.inbox.events.filterMap SessionEvent.message? := by
  rw [h.events_eq, List.filterMap_append, map_fst_judged]

/-! ### What the publisher is told -/

/-- What the publisher is told in a move, if anything. -/
def Move.sinkInput? (mv : Move) : Option Publisher.Input :=
  match mv.label with
  | .sink i => some (.link i)
  | .take => mv.before.middle.queue.items.head?.map .next
  | .ask => if mv.before.middle.queue.closed then some .drained else none
  | _ => none

/-- The message that the publisher takes and tries to send. -/
def Move.attempt? (mv : Move) : Option Message := mv.sinkInput?.bind Publisher.Input.message?

/-- The publisher makes a step of its own, or none at all. -/
theorem sink_of_step (h : Step l mv.world mv.wall mv.before mv.label mv.after mv.report) :
    (∃ i, mv.sinkInput? = some i ∧ l.publisher.Step mv.world mv.before.publisher.phase i
      mv.after.publisher.phase mv.report.sink) ∨
    (mv.sinkInput? = none ∧ mv.report.sink = [] ∧ mv.after.publisher = mv.before.publisher) := by
  obtain ⟨w, wall, before, label, after, report⟩ := mv
  dsimp only at h
  cases h with
  | sink _ h => exact .inl ⟨_, rfl, Publisher.step_of_step? h⟩
  | take _ hq h hpop =>
      subst hpop
      refine .inl ⟨_, ?_, Publisher.step_of_step? h⟩
      simp only [Move.sinkInput?, (Queue.tryPop?_eq_some_iff.1 hq).1, List.head?_cons,
        Option.map_some]
  | looked _ he => exact .inr ⟨by simp [Move.sinkInput?, he], rfl, rfl⟩
  | waits _ ho => exact .inr ⟨by simp [Move.sinkInput?, ho], rfl, rfl⟩
  | drained _ hc h => exact .inl ⟨_, if_pos hc, Publisher.step_of_step? h⟩
  | handOver _ _ _ _ hput =>
      subst hput
      exact .inr ⟨rfl, rfl, rfl⟩
  | _ => exact .inr ⟨rfl, rfl, rfl⟩

/-! ### The line -/

/-- How a message leaves the line. -/
inductive Fate where
  | attempted
  | evicted
  deriving DecidableEq, Repr

/-- The messages in the line: the queue, and the message that waits for room. -/
def State.line (st : State) : List Message := st.middle.queue.items ++ st.middle.state.held

/-- The messages that are evicted: as many of the oldest as drops are counted. -/
def Move.evictions (mv : Move) : List Message :=
  match mv.label with
  | .forward _ =>
    mv.before.middle.queue.items.take (mv.report.forwarder.countP (Metric.isOf .backpressureDrops))
  | _ => []

/-- What leaves the line in a move. -/
def Move.exits (mv : Move) : List (Fate × Message) :=
  mv.attempt?.toList.map (Prod.mk .attempted) ++ mv.evictions.map (Prod.mk .evicted)

/-- What leaves the line in some moves, in order. -/
def exits (ms : List Move) : List (Fate × Message) := ms.flatMap Move.exits

/-- The messages that the publisher takes and tries to send, in order. -/
def attempted (ms : List Move) : List Message :=
  ((exits ms).filter fun e => e.1 = .attempted).map Prod.snd

theorem exits_concat : exits (ms ++ [mv]) = exits ms ++ mv.exits := by simp [exits]

theorem map_snd_exits (mv : Move) :
    mv.exits.map Prod.snd = mv.attempt?.toList ++ mv.evictions := by
  simp [Move.exits, Function.comp_def]

/-- The queue is closed only at the end of the forwarder. -/
def State.Sound (st : State) : Prop := st.middle.queue.closed → st.middle.state.done

theorem afterSink_middle (st : State) (o : Publisher.Outcome) :
    (st.afterSink o).1.middle.queue = st.middle.queue ∧
      (st.afterSink o).1.middle.state = st.middle.state := ⟨rfl, rfl⟩

/-- A family in which no decision is counted, nor that a message has come in, does not grow with
decisions. -/
theorem countP_judgements_eq_zero {f : Forwarder} {family : Family}
    (hf : ∀ d, (f.counted .messagesReceived :: f.tally d).countP (Metric.isOf family) = 0)
    (ds : List (Message × Decision)) :
    (ds.flatMap fun d => f.counted .messagesReceived :: f.tally d.2).countP
      (Metric.isOf family) = 0 := by
  induction ds with
  | nil => rfl
  | cons d ds ih => rw [List.flatMap_cons, List.countP_append, ih, hf]

/-- The messages that are evicted are the oldest, as many as drops are counted. -/
theorem take_countP_drops {f : Forwarder} {q q' : Queue Message} {s s' : Forwarder.State}
    {i : Forwarder.Input} {counts : List Metric} {evicted : List Message}
    (h : Forwarder.Passes f wall q s i s' q' counts evicted) :
    q.items.take (counts.countP (Metric.isOf .backpressureDrops)) = evicted := by
  have hdrops : (evicted.map fun _ => f.counted .backpressureDrops).countP
      (Metric.isOf .backpressureDrops) = evicted.length := by
    rw [List.countP_map]
    exact List.countP_eq_length.2 fun _ _ => rfl
  rw [h.counts_eq, List.countP_append,
    countP_judgements_eq_zero (fun d => by cases d <;> rfl), Nat.zero_add, hdrops]
  exact (List.prefix_iff_eq_take.1 h.evicted_prefix).symm

/-- What a step does to the line: some messages leave at the front, and what is decided to be
forwarded joins at the end. -/
theorem line_of_step (hsound : mv.before.Sound)
    (h : Step l mv.world mv.wall mv.before mv.label mv.after mv.report) :
    mv.after.Sound ∧ mv.exits.map Prod.snd ++ mv.after.line =
      mv.before.line ++ (mv.judgements l).filterMap (·.2.forwarded?) := by
  rw [map_snd_exits]
  obtain ⟨w, wall, before, label, after, report⟩ := mv
  dsimp only at h hsound ⊢
  cases h with
  | forward hi hf =>
      obtain ⟨evicted, hp⟩ := Forwarder.exists_passes_of_step? hsound hf
      refine ⟨hp.done_of_closed, ?_⟩
      have hevicted := take_countP_drops hp
      simp only [Move.attempt?, Move.sinkInput?, Move.evictions, hevicted, State.line,
        Move.judgements]
      exact (List.append_assoc _ _ _).symm.trans hp.line
  | take _ hq h hpop =>
      -- the publisher takes the message in front
      subst hpop
      obtain ⟨hitems, -, hclosed⟩ := Queue.tryPop?_eq_some_iff.1 hq
      refine ⟨fun hc => hsound (hclosed ▸ hc), ?_⟩
      simp [Move.attempt?, Move.sinkInput?, Publisher.Input.message?, Move.evictions, State.line,
        Move.judgements, hitems, afterSink_middle]
  | looked _ he =>
      refine ⟨hsound, ?_⟩
      simp [Move.attempt?, Move.sinkInput?, Move.evictions, State.line, Move.judgements, he]
  | waits _ ho =>
      refine ⟨hsound, ?_⟩
      simp [Move.attempt?, Move.sinkInput?, Move.evictions, State.line, Move.judgements, ho]
  | drained _ hc h =>
      refine ⟨hsound, ?_⟩
      simp [Move.attempt?, Move.sinkInput?, Publisher.Input.message?, Move.evictions, State.line,
        Move.judgements, hc, afterSink_middle]
  | handOver _ _ _ _ hput =>
      subst hput
      exact ⟨hsound, (List.append_nil _).symm⟩
  | _ => exact ⟨hsound, (List.append_nil _).symm⟩

/-- **What has left the line and what is in it are the decisions to forward**, in the order in which
they were taken: each message leaves at most once. -/
theorem Journey.line_eq (h : Journey l l.start ms st) :
    st.Sound ∧ (exits ms).map Prod.snd ++ st.line = forwards l ms := by
  induction h with
  | nil => exact ⟨nofun, rfl⟩
  | snoc _ hs ih =>
      obtain ⟨hsound, hline⟩ := line_of_step ih.1 (step_of_step? hs)
      refine ⟨hsound, ?_⟩
      rw [exits_concat, forwards_concat, List.map_append, List.append_assoc, hline,
        ← List.append_assoc, ih.2]
  | signal _ ih => exact ih

/-- **The publisher takes what is to be forwarded in order.** -/
theorem Journey.attempted_sublist (h : Journey l l.start ms st) :
    (attempted ms).Sublist (forwards l ms) := by
  rw [← h.line_eq.2]
  exact (List.filter_sublist.map _).trans (List.sublist_append_left _ _)

/-! ### A lane with a short queue -/

/-- The forward lane of the relay with overlapping filters, with room for one message in the queue
and no time to wait for more. -/
def narrow : Lane :=
  { Relay.overlapLane with
    forwarder := { Relay.overlapLane.forwarder with queueTimeout := 0 }
    queueCapacity := 1 }

/-- A message for the first filter. -/
def narrowMessage (topic : String) : Message where
  topic
  payload := []
  qos := .atLeastOnce
  retain := false
  properties := { subscriptionIdentifiers := [1] }

/-- The publisher connects, and so does the subscriber, to which the broker grants both filters and
sends three messages. -/
def narrowStart : List Label :=
  [.sink .timeUp, .sink .opened, .sink (.arrived [0x20, 3, 0, 0, 0]), .sink .packet,
    .handOver, .source .opened,
    .source (.arrived ([0x20, 3, 0, 0, 0] ++ [0x90, 4, 0, 1, 0, 1] ++ [0x90, 4, 0, 2, 0, 1] ++
      [0x32, 10, 0, 3, 0x61, 0x2f, 0x31, 0, 1, 2, 0x0b, 1] ++
      [0x32, 10, 0, 3, 0x61, 0x2f, 0x32, 0, 2, 2, 0x0b, 1] ++
      [0x32, 10, 0, 3, 0x61, 0x2f, 0x33, 0, 3, 2, 0x0b, 1])),
    .source .packet, .handOver, .source .packet, .source .packet, .handOver,
    .source .packet, .handOver, .source .packet, .handOver, .source .packet, .handOver]

/-- The forwarder takes the messages while the publisher waits for the acknowledgement of the first:
the second is evicted by the third, which is taken after the acknowledgement. -/
def narrowScript : List Label :=
  narrowStart ++
    [.forward (.event .connecting), .forward (.event (.connected false)),
      .forward (.event (.subscribed [])), .forward (.event (.message (narrowMessage "a/1"))), .take,
      .forward (.event (.message (narrowMessage "a/2"))),
      .forward (.event (.message (narrowMessage "a/3"))), .sink (.arrived [0x40, 2, 0, 1]),
      .sink .packet, .take]

end Lane

end TopicBridge
