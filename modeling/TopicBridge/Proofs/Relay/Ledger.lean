/-
**No message disappears uncounted.**

A relay counts each message that it receives, and once more what becomes of it: nobody wanted it, a
filter held it back, it was a duplicate, it gave way to a newer one, it has been published or its
publication has failed.  At any time the two counts differ by the messages that are on the way:
those in the queues, and those that the publishers have sent and of which they do not know yet
whether they have arrived.

The books are kept by lanes.  A step of a lane counts as received what enters the lane, and counts
as an outcome what leaves it; since both flows count into the same books, the balance of the lanes
is that of the relay.

Main definitions:

* `Lane.State.load` — the number of messages on the way in a lane;
* `Relay.Running.Event`, `Relay.Running.step?` — what can happen to a relay, in any order;
* `Relay.Running.Course` — the states that a relay comes to;
* `Relay.Running.launch` — a relay to which nothing has happened yet.

Main results:

* `Lane.balance_of_step` — **what a step counts is what the load changes by**;
* `Relay.Running.Course.balanced` — the books of a relay balance at any time;
* `Relay.Running.Course.received_eq` — **every message received is counted or on its way**.
-/

import TopicBridge.Proofs.Relay.Journey
import TopicBridge.Proofs.Session.Counts

set_option autoImplicit false

namespace TopicBridge

namespace Lane

variable {l : Lane} {st : State} {mv : Move}

/-! ### Lanes -/

/-- The number of messages on the way in a lane: in the queue, waiting for room, or in flight. -/
def State.load (st : State) : Nat := st.line.length + st.publisher.phase.inFlight?.toList.length

theorem countP_judgement (f : Forwarder) (d : Decision) :
    (f.counted .messagesReceived :: f.tally d).countP (Metric.isOf .messagesReceived) = 1 ∧
      (f.counted .messagesReceived :: f.tally d).countP Metric.isOutcome +
        d.forwarded?.toList.length = 1 := by
  cases d <;> exact ⟨rfl, rfl⟩

/-- What is counted of some decisions: each message as received, and as an outcome if it is not to
be forwarded. -/
theorem countP_judgements (f : Forwarder) (ds : List (Message × Decision)) :
    let counts := ds.flatMap fun d => f.counted .messagesReceived :: f.tally d.2
    counts.countP (Metric.isOf .messagesReceived) = ds.length ∧
      counts.countP Metric.isOutcome + (ds.filterMap (·.2.forwarded?)).length = ds.length := by
  induction ds with
  | nil => exact ⟨rfl, rfl⟩
  | cons d ds ih =>
      obtain ⟨hreceived, houtcome⟩ := countP_judgement f d.2
      have hlen : ((d :: ds).filterMap (·.2.forwarded?)).length =
          d.2.forwarded?.toList.length + (ds.filterMap (·.2.forwarded?)).length := by
        rw [List.filterMap_cons]
        cases d.2.forwarded? <;> simp [Nat.add_comm]
      simp only [List.flatMap_cons, List.countP_append, List.length_cons, hlen, hreceived]
      omega

theorem countP_drops (f : Forwarder) (evicted : List Message) :
    (evicted.map fun _ => f.counted .backpressureDrops).countP (Metric.isOf .messagesReceived) = 0 ∧
      (evicted.map fun _ => f.counted .backpressureDrops).countP Metric.isOutcome =
        evicted.length := by
  rw [List.countP_map, List.countP_map]
  exact ⟨List.countP_eq_zero.2 fun _ _ => nofun, List.countP_eq_length.2 fun _ _ => rfl⟩

/-- The forwarder counts what it decides on, and what it evicts. -/
theorem forwarder_counts_of_step (hsound : mv.before.Sound)
    (h : Step l mv.world mv.wall mv.before mv.label mv.after mv.report) :
    mv.report.forwarder.countP (Metric.isOf .messagesReceived) = (mv.judgements l).length ∧
      mv.report.forwarder.countP Metric.isOutcome +
          ((mv.judgements l).filterMap (·.2.forwarded?)).length =
        (mv.judgements l).length + mv.evictions.length := by
  obtain ⟨w, wall, before, label, after, report⟩ := mv
  dsimp only at h hsound ⊢
  cases h with
  | forward hi hf =>
      obtain ⟨evicted, hp⟩ := Forwarder.exists_passes_of_step? hsound hf
      obtain ⟨hreceived, houtcome⟩ := countP_judgements l.forwarder
        (l.forwarder.judgements wall before.middle.state.refused _)
      have hdrops := countP_drops l.forwarder evicted
      simp only [Move.judgements, Move.evictions, take_countP_drops hp]
      rw [hp.counts_eq, List.countP_append, List.countP_append, hdrops.1, hdrops.2, hreceived]
      omega
  | _ => exact ⟨rfl, rfl⟩

/-- The publisher counts what becomes of the messages that it takes. -/
theorem sink_counts_of_step (h : Step l mv.world mv.wall mv.before mv.label mv.after mv.report) :
    (Effect.counted mv.report.sink).countP (Metric.isOf .messagesReceived) = 0 ∧
      (Effect.counted mv.report.sink).countP Metric.isOutcome +
          mv.after.publisher.phase.inFlight?.toList.length =
        mv.before.publisher.phase.inFlight?.toList.length + mv.attempt?.toList.length := by
  rcases sink_of_step h with ⟨i, hi, hstep⟩ | ⟨hi, hnone, hsame⟩
  · rw [Move.attempt?, hi]
    exact Publisher.outcomes_of_step hstep
  · rw [Move.attempt?, hi, hnone, hsame]
    exact ⟨rfl, Nat.zero_add _⟩

/-- The subscriber counts neither. -/
theorem source_counts_of_step (h : Step l mv.world mv.wall mv.before mv.label mv.after mv.report) :
    (Effect.counted mv.report.source).countP (Metric.isOf .messagesReceived) = 0 ∧
      (Effect.counted mv.report.source).countP Metric.isOutcome = 0 := by
  obtain ⟨w, wall, before, label, after, report⟩ := mv
  dsimp only at h ⊢
  cases h with
  | source h | handOver _ _ _ h | abandon _ h =>
      exact Effect.countP_counted_of_isSession (Subscriber.isSession_of_step (Subscriber.step_of_step? h))
  | _ => exact ⟨rfl, rfl⟩

/-- **What a step counts is what the load changes by**: what is received enters, and what is an
outcome leaves. -/
theorem balance_of_step (hsound : mv.before.Sound)
    (h : Step l mv.world mv.wall mv.before mv.label mv.after mv.report) :
    mv.report.counts.countP (Metric.isOf .messagesReceived) + mv.before.load =
      mv.report.counts.countP Metric.isOutcome + mv.after.load := by
  obtain ⟨hfreceived, hfoutcome⟩ := forwarder_counts_of_step hsound h
  obtain ⟨hpreceived, hpoutcome⟩ := sink_counts_of_step h
  obtain ⟨hsreceived, hsoutcome⟩ := source_counts_of_step h
  have hline := congrArg List.length (line_of_step hsound h).2
  rw [map_snd_exits] at hline
  simp only [List.length_append] at hline
  simp only [Report.counts, List.countP_append, State.load]
  omega

end Lane

namespace Relay.Running

/-! ### What can happen to a relay -/

/-- What happens next to a relay. -/
inductive Event where
  /-- One of the lanes makes a step. -/
  | lane (k : Nat) (label : Lane.Label)
  /-- Time passes, after which the clock shows what it shows. -/
  | pass (time : Millis) (wall : WallTime)
  /-- The relay is told to stop. -/
  | shutdown
  /-- The lanes have come to their end, or their time is over. -/
  | stop
  deriving DecidableEq, Repr

/-- Whether the relay has been told to stop and need not wait for its lanes any longer. -/
def isOver (r : Running) : Bool :=
  r.limit.any fun limit => limit ≤ r.now || r.lanes.all fun x => x.2.isDone

/-- What a step of a relay does; `none` if it is not possible. -/
def step? (r : Running) : Event → Option Running
  | .lane k label =>
    if r.stopped then none
    else
      match r.lanes[k]? with
      | none => none
      | some (l, st) =>
        (l.step? r.surroundings r.wall st label).map fun (st, report) => { r with
          lanes := r.lanes.set k (l, st)
          metrics := r.metrics.recordAll report.counts }
  | .pass time wall => some { r with now := r.now + time, wall }
  | .shutdown =>
    match r.limit with
    | some _ => none
    | none => some { r with
        limit := some (r.now + r.patience)
        lanes := r.lanes.map fun (l, st) => (l, st.signal) }
  | .stop => if r.isOver then some { r with stopped := true } else none

/-- The states that a relay comes to, whatever its lanes do and in whatever order. -/
inductive Course (r₀ : Running) : Running → Prop where
  | nil : Course r₀ r₀
  | snoc {r r' : Running} {e : Event} (h : Course r₀ r) (hs : r.step? e = some r') : Course r₀ r'

/-- What events make of a relay, one after the other, if they are possible. -/
def play? : List Event → Running → Option Running
  | [], r => some r
  | e :: es, r =>
    match r.step? e with
    | none => none
    | some r' => play? es r'

/-- What events make of a relay is a state that it comes to. -/
theorem Course.of_play? {r r' r₀ : Running} {es : List Event} (h : Course r₀ r)
    (hplay : play? es r = some r') : Course r₀ r' := by
  induction es generalizing r with
  | nil =>
      obtain rfl := Option.some.inj hplay
      exact h
  | cons e es ih =>
      simp only [play?] at hplay
      split at hplay
      · cases hplay
      · rename_i next hs
        exact ih (h.snoc hs) hplay

/-- A relay to which nothing has happened yet. -/
def launch (lanes : List Lane) (reach : Reach) (wall : WallTime) (patience : Millis) : Running where
  reach
  wall
  patience
  lanes := lanes.map fun l => (l, l.start)

/-- The start of a relay is its launch and what follows at once. -/
theorem start_eq (r : Relay) (process : String) (reach : Reach) (wall : WallTime) :
    r.start process reach wall = (launch (r.flows.map (r.lane process)) reach wall
      (1000 * r.config.relay.shutdownTimeoutSecs.toNat)).settle := rfl

/-! ### The books of a relay -/

variable {r r' r₀ : Running}

/-- The messages that wait in the queues. -/
def queued (r : Running) : Nat := r.lanes.foldr (fun x n => x.2.middle.queue.size + n) 0

/-- The publishers with a message that has been sent and of which they do not know yet what has
become of it. -/
def inFlight (r : Running) : Nat :=
  r.lanes.countP fun x => x.2.publisher.phase.inFlight?.isSome

/-- The messages on the way in some lanes. -/
def load (lanes : List (Lane × Lane.State)) : Nat := lanes.foldr (fun x n => x.2.load + n) 0

/-- The books balance: what has been received has come to an end or is on the way. -/
structure Balanced (r : Running) : Prop where
  sound : ∀ x ∈ r.lanes, x.2.Sound
  received_eq : r.metrics.total .messagesReceived = r.metrics.outcomes + load r.lanes

theorem load_set {lanes : List (Lane × Lane.State)} {k : Nat} {x y : Lane × Lane.State}
    (h : lanes[k]? = some x) : load (lanes.set k y) + x.2.load = load lanes + y.2.load := by
  induction lanes generalizing k with
  | nil => simp at h
  | cons z lanes ih =>
      cases k with
      | zero =>
          obtain rfl := Option.some.inj h
          simp only [load, List.set_cons_zero, List.foldr_cons]
          omega
      | succ k =>
          have hrest := ih h
          simp only [load, List.set_cons_succ, List.foldr_cons] at hrest ⊢
          omega

theorem load_map {lanes : List (Lane × Lane.State)} {f : Lane × Lane.State → Lane × Lane.State}
    (hf : ∀ x, (f x).2.load = x.2.load) : load (lanes.map f) = load lanes := by
  induction lanes with
  | nil => rfl
  | cons x lanes ih =>
      simp only [load, List.map_cons, List.foldr_cons, hf] at ih ⊢
      rw [ih]

/-- While no forwarder is in the middle of a message, what is on the way is in a queue or in
flight. -/
theorem load_eq_of_idle {lanes : List (Lane × Lane.State)}
    (h : ∀ x ∈ lanes, x.2.middle.state.blocked = none) :
    load lanes = lanes.foldr (fun x n => x.2.middle.queue.size + n) 0 +
      lanes.countP fun x => x.2.publisher.phase.inFlight?.isSome := by
  induction lanes with
  | nil => rfl
  | cons x lanes ih =>
      obtain ⟨hx, hlanes⟩ := List.forall_mem_cons.1 h
      have hrest := ih hlanes
      have hlane : x.2.load = x.2.middle.queue.size +
          if x.2.publisher.phase.inFlight?.isSome then 1 else 0 := by
        rw [Lane.State.load, Lane.State.line, Forwarder.State.held, hx, Queue.size]
        cases x.2.publisher.phase.inFlight? <;> simp
      simp only [load, List.foldr_cons, List.countP_cons] at hrest ⊢
      omega

theorem balanced_launch (lanes : List Lane) (reach : Reach) (wall : WallTime) (patience : Millis) :
    (launch lanes reach wall patience).Balanced where
  sound x hx := by
    obtain ⟨l, -, rfl⟩ := List.mem_map.1 hx
    exact nofun
  received_eq := by
    have hload : load (lanes.map fun l => (l, l.start)) = 0 := by
      induction lanes with
      | nil => rfl
      | cons l lanes ih =>
          simp only [load, List.map_cons, List.foldr_cons] at ih ⊢
          rw [ih]
          rfl
    have hzero : load (launch lanes reach wall patience).lanes = 0 := hload
    rw [hzero]
    simp [launch, Metrics.outcomes, Metrics.total_eq]

/-- When a lane makes a step, the books of the relay change as those of the lane do. -/
theorem Balanced.set {k : Nat} {l : Lane} {st st' : Lane.State} {label : Lane.Label}
    {report : Lane.Report} (h : r.Balanced) (hk : r.lanes[k]? = some (l, st))
    (hs : l.step? r.surroundings r.wall st label = some (st', report)) :
    Balanced { r with
      lanes := r.lanes.set k (l, st')
      metrics := r.metrics.recordAll report.counts } := by
  -- the lane's own books, as those of a move of the lane
  let mv : Lane.Move := ⟨r.surroundings, r.wall, st, label, st', report⟩
  have hsound : mv.before.Sound := h.sound _ (List.mem_of_getElem? hk)
  have hcase : Lane.Step l mv.world mv.wall mv.before mv.label mv.after mv.report :=
    Lane.step_of_step? hs
  have hline := Lane.line_of_step hsound hcase
  have hbalance := Lane.balance_of_step hsound hcase
  have hload := load_set (y := (l, st')) hk
  refine ⟨fun x hx => ?_, ?_⟩
  · rcases List.mem_or_eq_of_mem_set hx with hx | rfl
    · exact h.sound x hx
    · exact hline.1
  · have hreceived := h.received_eq
    simp only [Metrics.total_recordAll, Metrics.outcomes_recordAll]
    dsimp only [mv] at hbalance hload
    omega

/-- The books balance after a step if they did before. -/
theorem Balanced.step {e : Event} (h : r.Balanced) (hs : r.step? e = some r') : r'.Balanced := by
  cases e with
  | lane k label =>
      simp only [step?] at hs
      split_ifs at hs
      split at hs
      · cases hs
      · rename_i l st hk
        obtain ⟨⟨st', report⟩, hstep, rfl⟩ := Option.map_eq_some_iff.1 hs
        exact h.set hk hstep
  | pass time wall =>
      obtain rfl := Option.some.inj hs
      exact ⟨h.sound, h.received_eq⟩
  | shutdown =>
      simp only [step?] at hs
      split at hs
      · cases hs
      · obtain rfl := Option.some.inj hs
        refine ⟨fun x hx => ?_, ?_⟩
        · obtain ⟨y, hy, rfl⟩ := List.mem_map.1 hx
          exact h.sound y hy
        · have hload : load (r.lanes.map fun (l, st) => (l, st.signal)) = load r.lanes :=
            load_map fun _ => rfl
          exact h.received_eq.trans (congrArg _ hload.symm)
  | stop =>
      simp only [step?] at hs
      split_ifs at hs
      obtain rfl := Option.some.inj hs
      exact ⟨h.sound, h.received_eq⟩

/-- **The books of a relay balance at any time.** -/
theorem Course.balanced {lanes : List Lane} {reach : Reach} {wall : WallTime} {patience : Millis}
    (h : Course (launch lanes reach wall patience) r) : r.Balanced := by
  induction h with
  | nil => exact balanced_launch lanes reach wall patience
  | snoc _ hs ih => exact ih.step hs

/-- **Every message received is counted or on its way**, at every point at which no forwarder is in
the middle of a message. -/
theorem Course.received_eq {lanes : List Lane} {reach : Reach} {wall : WallTime} {patience : Millis}
    (h : Course (launch lanes reach wall patience) r)
    (hidle : ∀ x ∈ r.lanes, x.2.middle.state.blocked = none) :
    r.metrics.total .messagesReceived =
      r.metrics.total .messagesUnmatched + r.metrics.total .messagesFiltered +
        r.metrics.total .topicFailures + r.metrics.total .duplicateCopies +
        r.metrics.total .backpressureDrops + r.metrics.total .messagesForwarded +
        r.metrics.total .publishFailures + r.queued + r.inFlight := by
  have hreceived := h.balanced.received_eq
  rw [load_eq_of_idle hidle, Metrics.outcomes] at hreceived
  rw [queued, inFlight]
  omega

/-- A relay with the lane with a short queue has received three messages: one has been published,
one has been evicted, and one is in flight. -/
theorem received_eq_narrow :
    ∃ r, Course (launch [Lane.narrow] ⟨.ok (), .ok ()⟩ .beforeEpoch 0) r ∧
      (∀ x ∈ r.lanes, x.2.middle.state.blocked = none) ∧
      r.metrics.count .messagesReceived "forward" = 3 ∧
      r.metrics.count .messagesForwarded "forward" = 1 ∧
      r.metrics.count .backpressureDrops "forward" = 1 ∧ r.queued = 0 ∧ r.inFlight = 1 ∧
      r.metrics.total .messagesReceived =
        r.metrics.total .messagesUnmatched + r.metrics.total .messagesFiltered +
          r.metrics.total .topicFailures + r.metrics.total .duplicateCopies +
          r.metrics.total .backpressureDrops + r.metrics.total .messagesForwarded +
          r.metrics.total .publishFailures + r.queued + r.inFlight := by
  have hfacts : (play? (Lane.narrowScript.map (.lane 0))
      (launch [Lane.narrow] ⟨.ok (), .ok ()⟩ .beforeEpoch 0)).map
      (fun r => (r.lanes.all (·.2.middle.state.blocked.isNone),
        r.metrics.count .messagesReceived "forward", r.metrics.count .messagesForwarded "forward",
        r.metrics.count .backpressureDrops "forward", r.queued, r.inFlight)) =
      some (true, 3, 1, 1, 0, 1) := by
    decide +kernel
  obtain ⟨r, hplay, hr⟩ := Option.map_eq_some_iff.1 hfacts
  simp only [Prod.mk.injEq, List.all_eq_true, Option.isNone_iff_eq_none] at hr
  obtain ⟨hidle, hreceived, hforwarded, hdropped, hqueued, hflight⟩ := hr
  have hcourse := Course.nil.of_play? hplay
  exact ⟨r, hcourse, hidle, hreceived, hforwarded, hdropped, hqueued, hflight,
    hcourse.received_eq hidle⟩

end Relay.Running

end TopicBridge
