/-
**What a lane does with its work when it is told to stop.**

The signal to stop reaches the three parts of a lane at once, but each looks at it in its own time,
and none acts on it before his turn.  The subscriber stops, and what it has handed over is still
decided; the forwarder closes the queue only when it has put in what is to be forwarded; and the
publisher takes its leave when it has found the queue empty and then learns that it is closed.  So
if the publisher keeps its connection, and its broker confirms what it is to confirm, each message
that it takes is published, or is too large for the broker and counted as failed, and each one that
has given way to a newer one is counted as dropped.

But the publisher looks for a message before it asks whether the queue is closed.  A message that
comes into the queue in between is overlooked if the queue is closed then: it stays in the queue,
and nobody counts it.  If no message comes in between, the queue is empty at the end.

The lane comes to its end in any order of steps.  As long as it has not, some part of it can go on
by itself, unless the publisher waits for its broker; and it cannot go on for ever.

Main definitions:

* `Publisher.Phase.verdict?` — the code with which the exchange of a message ends;
* `Publisher.Oversized` — a message is larger than the broker allows;
* `Lane.Move.Undisturbed` — the publisher keeps its connection, and its broker takes what it
  confirms;
* `Lane.published`, `Lane.evicted`, `Lane.counts` — what comes of messages in some moves;
* `Lane.Move.isLook`, `Lane.Overlooks` — the publisher finds the queue empty, and what it does not
  see afterwards;
* `Lane.State.Decided`, `Lane.State.Left`, `Lane.State.Finishing` — nothing more will come into the
  queue, the publisher has taken its leave, and the lane is on its way there;
* `Lane.Drains` — what a lane owes that has been told to stop.

Main results:

* `Lane.ledger_of_step`, `Lane.Run.ledger` — what an undisturbed lane counts;
* `Lane.Journey.overlooks` — what is in the line when the publisher asks was held back when it has
  looked, or has been decided on since;
* `Lane.not_step_of_left` — when the publisher has taken its leave nothing more happens;
* `Lane.Journey.drains` — **a lane that is told to stop finishes its work, but for what its
  publisher overlooks**;
* `Lane.leaves_message_behind` — a publisher leaves a message in the queue.
-/

import TopicBridge.Proofs.Relay.Ledger
import TopicBridge.Proofs.Relay.Stopping
import TopicBridge.Proofs.Session.Publications

set_option autoImplicit false

namespace TopicBridge

open Mqtt

/-! ### The publisher -/

namespace Publisher

/-- The code with which the broker ends the exchange of the message in flight. -/
def Phase.verdict? : Phase → Input → Option ReasonCode
  | .settling s f, .link .packet =>
    match s.connection.receive with
    | .ok (some (packet, _)) =>
      match f.progress packet with
      | .settled code => some code
      | _ => none
    | _ => none
  | _, _ => none

/-- A message is larger than the broker allows. -/
def Oversized (p : Publisher) (a : Phase) (m : Message) : Prop :=
  ∃ s bytes, a = .pumping s ∧ (s.packet p m).encode = .ok bytes ∧
    Connection.admits s.connection.limits bytes.length = false

variable {p : Publisher} {w : Surroundings} {a b : Phase} {i : Input} {es : List Effect}

theorem publications_eq_nil (h : p.Step w a i b es) (hi : i.message? = none) :
    Effect.publications es = [] := by
  rcases publications_of_step h with hnone | ⟨m, _, _, rfl, -⟩
  · exact hnone
  · cases hi

theorem length_publications {packet : Packet} {bytes : Bytes} (htype : packet.type = 3)
    (hes : Effect.written es = [bytes]) (h : packet.encode = .ok bytes) :
    (Effect.publications es).length = 1 := by
  rw [publications_of_written hes h, if_pos htype]
  rfl

/-- A message that is taken without loss of the connection is published, or it is too large. -/
theorem attempt_of_step {m : Message} (h : p.Step w a (.next m) b es) (hb : b.held?.isSome) :
    (∃ q bytes, p.Publishes a m b es q bytes) ∨ p.Oversized a m ∧ es = [p.failed] := by
  rcases publications_of_step h with hnone | ⟨m', q, bytes, hi, hp⟩
  · right
    cases h with
    | unsent haway =>
        rw [not_isAway_of_held? hb] at haway
        cases haway
    | oversized hs hfit => exact ⟨⟨_, _, rfl, hs, hfit⟩, rfl⟩
    | published _ hs | sent _ _ hs =>
        rw [← List.length_eq_zero_iff, length_publications rfl rfl hs] at hnone
        cases hnone
  · obtain rfl := Input.next.inj hi
    exact .inl ⟨q, bytes, hp⟩

theorem verdict?_of_settled {s : Pumping} {f : InFlight} {c : Connection} {packet : Packet}
    {code : ReasonCode} (hr : s.connection.receive = .ok (some (packet, c)))
    (hp : f.progress packet = .settled code) :
    (Phase.settling s f).verdict? (.link .packet) = some code := by
  simp only [Phase.verdict?, hr, hp]

/-- **What a publisher counts that keeps its connection**, or takes its leave, if its broker takes
what it confirms: each message that is published counts as forwarded, at once or when it has been
confirmed, and each that is taken but not published counts as failed. -/
theorem ledger_of_step (h : p.Step w a i b es) (ha : a.held?.isSome)
    (hb : b.held?.isSome ∨ i = .drained) (hv : ∀ code, a.verdict? i = some code → code.isSuccess) :
    (Effect.counted es).countP (Metric.isOf .messagesForwarded) + b.inFlight?.toList.length =
        a.inFlight?.toList.length + (Effect.publications es).length ∧
      (Effect.counted es).countP (Metric.isOf .publishFailures) +
        (Effect.publications es).length = i.message?.toList.length ∧
      (Effect.counted es).countP (Metric.isOf .backpressureDrops) = 0 := by
  have hnone := publications_eq_nil h
  cases h with
  | away haway =>
      rw [not_isAway_of_held? ha] at haway
      cases haway
  | opened | unwelcome | accepted => cases ha
  | lost haway | failed haway | unsent haway =>
      rw [not_isAway_of_held? (hb.resolve_right (by simp))] at haway
      cases haway
  | heard _ _ hup =>
      rw [hnone rfl, inFlight?_of_update? hup]
      exact ⟨Nat.zero_add _, rfl, rfl⟩
  | ignored | pinged | waited | released =>
      rw [hnone rfl]
      exact ⟨rfl, rfl, rfl⟩
  | @left s =>
      rw [hnone rfl]
      cases s.connection.farewell <;> exact ⟨rfl, rfl, rfl⟩
  | oversized => exact ⟨rfl, rfl, rfl⟩
  | published _ hs =>
      rw [length_publications rfl rfl hs]
      exact ⟨rfl, rfl, rfl⟩
  | sent _ _ hs =>
      rw [length_publications rfl rfl hs]
      exact ⟨rfl, rfl, rfl⟩
  | settled hr hp =>
      rw [hnone rfl, if_pos (hv _ (verdict?_of_settled hr hp))]
      exact ⟨rfl, rfl, rfl⟩

theorem held?_of_status (h : a.status = .connected) : a.held?.isSome := by
  cases a with
  | pumping | settling => rfl
  | _ => cases h

/-- A publisher that has come to its end does nothing more. -/
theorem not_step_of_isClosed {st : State} {o : Outcome} {drained : Bool}
    (hc : st.isClosed = true) : p.step? w drained st i ≠ some o := by
  obtain ⟨phase, backoff⟩ := st
  cases phase with
  | closed =>
      intro h
      cases i with
      | next | drained => cases h
      | link i => cases i <;> cases h
  | _ => cases hc

end Publisher

/-- What is counted as no outcome is counted in no family of outcomes. -/
theorem Metric.countP_isOf_eq_zero {cs : List Metric} (family : Family)
    (hf : family.isOutcome = true) (h : cs.countP Metric.isOutcome = 0) :
    cs.countP (Metric.isOf family) = 0 := by
  refine List.countP_eq_zero.2 fun c hc hof => List.countP_eq_zero.1 h c hc ?_
  cases hc : c.family? with
  | none => simp [Metric.isOf, hc] at hof
  | some other =>
      have hsame : other = family := by simpa [Metric.isOf, hc] using hof
      simp [Metric.isOutcome, hc, hsame, hf]

namespace Lane

variable {l : Lane} {w : Surroundings} {wall : WallTime} {st st' st₀ st₁ : State} {label : Label}
  {report : Report} {ms ms₁ ms₂ : List Move} {mv : Move}

/-! ### The books of a move -/

/-- What the publisher publishes in some moves, as it is written. -/
def published (ms : List Move) : List Bytes :=
  ms.flatMap fun mv => Effect.publications mv.report.sink

/-- The messages that give way to newer ones in some moves, in order. -/
def evicted (ms : List Move) : List Message :=
  ((exits ms).filter fun e => e.1 = .evicted).map Prod.snd

/-- Everything that is counted in some moves. -/
def counts (ms : List Move) : List Metric := ms.flatMap fun mv => mv.report.counts

theorem published_concat :
    published (ms ++ [mv]) = published ms ++ Effect.publications mv.report.sink := by
  simp [published]

theorem counts_concat : counts (ms ++ [mv]) = counts ms ++ mv.report.counts := by simp [counts]

theorem attempted_concat : attempted (ms ++ [mv]) = attempted ms ++ mv.attempt?.toList := by
  simp [attempted, exits_concat, Move.exits, List.filter_map, Function.comp_def]

theorem evicted_concat : evicted (ms ++ [mv]) = evicted ms ++ mv.evictions := by
  simp [evicted, exits_concat, Move.exits, List.filter_map, Function.comp_def]

/-- A move does not disturb a lane that has been told to stop: the publisher keeps its connection
until it takes its leave, and its broker takes what it confirms. -/
structure Move.Undisturbed (mv : Move) : Prop where
  told : mv.world.shutdown = true
  up (h : mv.before.publisher.phase.held?.isSome) :
    mv.after.publisher.phase.held?.isSome ∨ mv.sinkInput? = some .drained
  confirmed (i : Publisher.Input) (hi : mv.sinkInput? = some i) (code : ReasonCode)
    (h : mv.before.publisher.phase.verdict? i = some code) : code.isSuccess

theorem Move.undisturbed_iff : mv.Undisturbed ↔ mv.world.shutdown = true ∧
    (mv.before.publisher.phase.held?.isSome →
      mv.after.publisher.phase.held?.isSome ∨ mv.sinkInput? = some .drained) ∧
    (mv.sinkInput?.bind mv.before.publisher.phase.verdict?).all ReasonCode.isSuccess = true := by
  constructor
  · intro hu
    refine ⟨hu.told, hu.up, ?_⟩
    rw [Option.all_eq_true]
    intro code hcode
    obtain ⟨i, hi, hcode⟩ := Option.bind_eq_some_iff.1 hcode
    exact hu.confirmed i hi code hcode
  · rintro ⟨htold, hup, hconfirmed⟩
    refine ⟨htold, hup, fun i hi code hcode => ?_⟩
    simpa [hi, hcode] using hconfirmed

instance (mv : Move) : Decidable mv.Undisturbed := decidable_of_iff' _ Move.undisturbed_iff

/-- The forwarder counts as dropped what it evicts, and leaves it to the publisher to count what is
forwarded or has failed. -/
theorem forwarder_drops_of_step (hsound : mv.before.Sound)
    (h : Step l mv.world mv.wall mv.before mv.label mv.after mv.report) :
    mv.report.forwarder.countP (Metric.isOf .messagesForwarded) = 0 ∧
      mv.report.forwarder.countP (Metric.isOf .publishFailures) = 0 ∧
      mv.report.forwarder.countP (Metric.isOf .backpressureDrops) = mv.evictions.length := by
  obtain ⟨w, wall, before, label, after, report⟩ := mv
  dsimp only at h hsound ⊢
  cases h with
  | @forward i state queue counts hi hf =>
      obtain ⟨evicted, hp⟩ := Forwarder.exists_passes_of_step? hsound hf
      have hnone {family : Family}
          (hfamily : ∀ d, (l.forwarder.counted .messagesReceived ::
            l.forwarder.tally d).countP (Metric.isOf family) = 0)
          (hdrop : (l.forwarder.counted .backpressureDrops).isOf family = false) :
          counts.countP (Metric.isOf family) = 0 := by
        rw [hp.counts_eq, List.countP_append, countP_judgements_eq_zero hfamily, List.countP_map]
        simp [Function.comp_def, hdrop]
      refine ⟨hnone (fun d => by cases d <;> rfl) rfl, hnone (fun d => by cases d <;> rfl) rfl, ?_⟩
      simp only [Move.evictions, take_countP_drops hp]
      rw [hp.counts_eq, List.countP_append, countP_judgements_eq_zero (fun d => by cases d <;> rfl),
        List.countP_map, Nat.zero_add]
      exact List.countP_eq_length.2 fun _ _ => rfl
  | _ => exact ⟨rfl, rfl, rfl⟩

/-- **What a move counts** of the messages that are to be forwarded. -/
theorem ledger_of_step (hsound : mv.before.Sound) (hu : mv.Undisturbed)
    (ha : mv.before.publisher.phase.held?.isSome)
    (h : Step l mv.world mv.wall mv.before mv.label mv.after mv.report) :
    mv.report.counts.countP (Metric.isOf .messagesForwarded) +
        mv.after.publisher.phase.inFlight?.toList.length =
      mv.before.publisher.phase.inFlight?.toList.length +
        (Effect.publications mv.report.sink).length ∧
    mv.report.counts.countP (Metric.isOf .publishFailures) +
        (Effect.publications mv.report.sink).length = mv.attempt?.toList.length ∧
    mv.report.counts.countP (Metric.isOf .backpressureDrops) = mv.evictions.length := by
  obtain ⟨hfforwarded, hffailed, hfdropped⟩ := forwarder_drops_of_step hsound h
  have hsource := (source_counts_of_step h).2
  simp only [Report.counts, List.countP_append, hfforwarded, hffailed, hfdropped,
    Metric.countP_isOf_eq_zero .messagesForwarded rfl hsource,
    Metric.countP_isOf_eq_zero .publishFailures rfl hsource,
    Metric.countP_isOf_eq_zero .backpressureDrops rfl hsource, Nat.zero_add]
  rcases sink_of_step h with ⟨i, hi, hstep⟩ | ⟨hi, hnone, hsame⟩
  · obtain ⟨hforwarded, hfailed, hdropped⟩ := Publisher.ledger_of_step hstep ha
      ((hu.up ha).imp_right fun hlast => Option.some.inj (hi.symm.trans hlast))
      (hu.confirmed i hi)
    rw [Move.attempt?, hi, hdropped]
    exact ⟨hforwarded, hfailed, rfl⟩
  · rw [Move.attempt?, hi, hnone, hsame]
    exact ⟨Nat.zero_add _, rfl, rfl⟩

/-! ### What the publisher overlooks -/

/-- Whether the publisher finds the queue empty. -/
def Move.isLook (mv : Move) : Bool :=
  decide (mv.label = .take) && mv.before.middle.queue.items.isEmpty

/-- What the publisher does not see that has found the queue empty in the move `look`, and has still
to ask whether the queue is closed, or has just done so: the moves `ms` have been made since. -/
structure Overlooks (l : Lane) (look : Move) (ms : List Move) (st : State) : Prop where
  found : look.isLook = true
  /-- It has not looked again, -/
  last : ∀ mv ∈ ms, mv.isLook = false
  /-- and has taken nothing. -/
  attempted_eq : attempted ms = []
  /-- What has given way or is in the line was held back when it looked, or has been decided on
  since. -/
  balanced : evicted ms ++ st.line = look.before.middle.state.held ++ forwards l ms
  /-- So the line is empty exactly if nothing was held back, and nothing has been decided on. -/
  line_eq_nil_iff : st.line = [] ↔ look.before.middle.state.held = [] ∧ forwards l ms = []

theorem isLook_eq_false (h : mv.label ≠ .take) : mv.isLook = false := by simp [Move.isLook, h]

/-- A message gives way only to another one, which is in the queue then. -/
theorem items_ne_nil_of_evictions (hsound : mv.before.Sound)
    (h : Step l mv.world mv.wall mv.before mv.label mv.after mv.report) (he : mv.evictions ≠ []) :
    mv.after.middle.queue.items ≠ [] := by
  obtain ⟨w, wall, before, label, after, report⟩ := mv
  dsimp only at h hsound
  cases h with
  | forward hi hf =>
      obtain ⟨evicted, hp⟩ := Forwarder.exists_passes_of_step? hsound hf
      simp only [Move.evictions, take_countP_drops hp] at he
      exact hp.replaced he
  | _ => exact absurd rfl he

/-- Unless the publisher takes a message, one leaves the line only by giving way. -/
theorem evictions_append_line (hsound : mv.before.Sound)
    (h : Step l mv.world mv.wall mv.before mv.label mv.after mv.report) (ha : mv.attempt? = none) :
    mv.evictions ++ mv.after.line =
      mv.before.line ++ (mv.judgements l).filterMap (·.2.forwarded?) := by
  have hline := (line_of_step hsound h).2
  rwa [map_snd_exits, ha, Option.toList_none, List.nil_append] at hline

/-- So a line that is not empty stays so. -/
theorem line_eq_nil_iff_of_step (hsound : mv.before.Sound)
    (h : Step l mv.world mv.wall mv.before mv.label mv.after mv.report) (ha : mv.attempt? = none) :
    mv.after.line = [] ↔
      mv.before.line = [] ∧ (mv.judgements l).filterMap (·.2.forwarded?) = [] := by
  rw [← List.append_eq_nil_iff, ← evictions_append_line hsound h ha, List.append_eq_nil_iff]
  refine ⟨fun hnil => ⟨?_, hnil⟩, And.right⟩
  by_contra he
  exact items_ne_nil_of_evictions hsound h he (List.append_eq_nil_iff.1 hnil).1

/-- A publisher that has looked has done so before, or in this move. -/
theorem looked_of_step (h : Step l mv.world mv.wall mv.before mv.label mv.after mv.report)
    (hl : mv.after.looked = true) :
    (mv.before.looked = true ∧ mv.isLook = false ∧ mv.attempt? = none) ∨
    (mv.isLook = true ∧ mv.after.line = mv.before.middle.state.held) := by
  obtain ⟨w, wall, before, label, after, report⟩ := mv
  dsimp only at h hl ⊢
  cases h with
  | sink hl' => exact absurd (hl'.symm.trans hl) Bool.false_ne_true
  | take hl' _ _ hpop =>
      subst hpop
      exact absurd (hl'.symm.trans hl) Bool.false_ne_true
  | waits => cases hl
  | looked _ he =>
      refine .inr ⟨by simp [Move.isLook, he], ?_⟩
      rw [State.line, he, List.nil_append]
  | drained hl' hc =>
      refine .inl ⟨hl', isLook_eq_false (by simp), ?_⟩
      simp [Move.attempt?, Move.sinkInput?, hc, Publisher.Input.message?]
  | handOver _ _ _ _ hput =>
      subst hput
      exact .inl ⟨hl, isLook_eq_false (by simp), rfl⟩
  | source | abandon | forward => exact .inl ⟨hl, isLook_eq_false (by simp), rfl⟩

/-- **What is in the line of a publisher that has looked**, and has still to ask or has just asked:
it does not know what has come in since. -/
theorem Journey.overlooks (h : Journey l l.start ms st) (hl : st.looked = true) :
    ∃ front look back, ms = front ++ look :: back ∧ Overlooks l look back st := by
  induction h with
  | nil => cases hl
  | @snoc ms mv h hs ih =>
      have hstep := step_of_step? hs
      have hsound := h.line_eq.1
      rcases looked_of_step hstep hl with ⟨hbefore, hno, hnone⟩ | ⟨hyes, hline⟩
      · -- it has looked before: the move adds to what has happened since
        obtain ⟨front, look, back, rfl, hq⟩ := ih hbefore
        refine ⟨front, look, back ++ [mv], by simp, hq.found, ?_, ?_, ?_, ?_⟩
        · rw [List.forall_mem_append, List.forall_mem_singleton]
          exact ⟨hq.last, hno⟩
        · rw [attempted_concat, hq.attempted_eq, hnone]
          rfl
        · rw [evicted_concat, forwards_concat, List.append_assoc,
            evictions_append_line hsound hstep hnone, ← List.append_assoc, hq.balanced,
            List.append_assoc]
        · rw [line_eq_nil_iff_of_step hsound hstep hnone, hq.line_eq_nil_iff, forwards_concat,
            List.append_eq_nil_iff, and_assoc]
      · -- it has looked just now
        refine ⟨ms, mv, [], rfl, hyes, List.forall_mem_nil _, rfl, ?_, ?_⟩
        · exact hline.trans (List.append_nil _).symm
        · rw [hline]
          exact (and_iff_left rfl).symm
  | signal _ ih =>
      obtain ⟨front, look, back, hms, hq⟩ := ih hl
      exact ⟨front, look, back, hms, hq.found, hq.last, hq.attempted_eq, hq.balanced,
        hq.line_eq_nil_iff⟩

/-! ### The publisher comes last -/

/-- Everything has been decided on, and nothing more comes into the queue. -/
structure State.Decided (st : State) : Prop where
  stopped : st.subscriber.isStopped = true
  events : st.middle.inbox.events = []
  done : st.middle.state.done = true
  line : st.line = st.middle.queue.items
  closed : st.middle.queue.closed = true

/-- When the queue is closed everything has been decided on. -/
theorem State.Coherent.decided (hc : st.Coherent) (hq : st.middle.queue.closed = true) :
    st.Decided := by
  have hd := hc.sound hq
  obtain ⟨hevents, hstopped, hfree, -⟩ := hc.done hd
  refine ⟨hstopped, hevents, hd, ?_, hq⟩
  rw [line, Forwarder.State.held, hfree]
  exact List.append_nil _

/-- The publisher has taken its leave: it has looked for a message, and the queue is closed. -/
structure State.Left (st : State) : Prop where
  looked : st.looked = true
  closed : st.middle.queue.closed = true
  gone : st.publisher.isClosed = true

/-- When the publisher has taken its leave nothing more happens. -/
theorem not_step_of_left (hc : st.Coherent) (hq : st.Left) :
    ¬Step l w wall st label st' report := by
  have hd := hc.decided hq.closed
  intro h
  cases h with
  | source h | handOver _ _ _ h | abandon _ h =>
      exact absurd hd.stopped (by simp [isStopped_eq_false h])
  | forward _ hf => exact absurd hd.done (by simp [(Forwarder.closes_of_step? hf).running])
  | looked hl => exact absurd hq.looked (by simp [hl])
  | waits _ ho => exact absurd hq.closed (by simp [ho])
  | sink _ h | take _ _ h | drained _ _ h => exact Publisher.not_step_of_isClosed hq.gone h

/-- The publisher takes its leave after it has looked for a message, when the queue is closed and no
message is in flight. -/
structure Leaves (a b : State) : Prop where
  looked : a.looked = true
  closed : a.middle.queue.closed = true
  settled : a.publisher.phase.inFlight? = none
  left : b.Left

theorem leaves_of_drained (hi : mv.sinkInput? = some .drained)
    (h : Step l mv.world mv.wall mv.before mv.label mv.after mv.report) :
    Leaves mv.before mv.after := by
  obtain ⟨w, wall, before, label, after, report⟩ := mv
  dsimp only at h hi ⊢
  cases h with
  | drained hl hc h =>
      obtain ⟨hsettled, hclosed⟩ := Publisher.isClosed_of_drained h
      exact ⟨hl, hc, hsettled, hl, hc, hclosed⟩
  | waits _ ho => simp [Move.sinkInput?, ho] at hi
  | _ => simp [Move.sinkInput?] at hi

/-- A lane that finishes its work: the publisher is connected, or it has taken its leave. -/
structure State.Finishing (st : State) : Prop where
  coherent : st.Coherent
  serves : st.publisher.phase.held?.isSome ∨ st.Left

/-- The publisher is connected as long as there is something to do. -/
theorem State.Finishing.held (hf : st.Finishing) (h : Step l w wall st label st' report) :
    st.publisher.phase.held?.isSome :=
  hf.serves.resolve_right fun hq => not_step_of_left hf.coherent hq h

theorem finishing_of_step (hf : mv.before.Finishing) (hu : mv.Undisturbed)
    (h : Step l mv.world mv.wall mv.before mv.label mv.after mv.report) : mv.after.Finishing where
  coherent := coherent_of_step h hf.coherent
  serves := (hu.up (hf.held h)).imp_right fun hi => (leaves_of_drained hi h).left

/-- A publisher that is at its end has taken its leave. -/
theorem State.Finishing.left (hf : st.Finishing) (hp : st.publisher.isClosed = true) : st.Left := by
  refine hf.serves.resolve_left fun hheld => ?_
  simp [Publisher.State.isClosed, status_of_held? hheld] at hp

/-- Then the other parts are at their end too. -/
theorem State.Finishing.ended (hf : st.Finishing) (hp : st.publisher.isClosed = true) :
    st.Decided ∧ st.isDone = true := by
  have hd := hf.coherent.decided (hf.left hp).closed
  refine ⟨hd, ?_⟩
  rw [State.isDone, hd.stopped, hd.done, hp]
  rfl

/-- Until then some part can go on, unless the publisher waits for its broker. -/
theorem State.Finishing.goesOn (hf : st.Finishing) (hw : w.shutdown = true)
    (ht : st.subscriber.phase.limit ≤ w.now) :
    st.publisher.isClosed = true ∨ st.isAwaiting = true ∨ CanGoOn l w wall st := by
  rcases hf.serves with hheld | hq
  · cases ha : st.isAwaiting with
    | true => exact .inr (.inl rfl)
    | false => exact .inr (.inr (canGoOn_of_held? hf.coherent hheld hw ht ha))
  · exact .inl hq.gone

/-- A message that the publisher takes is published, unless it is too large for the broker. -/
theorem attempt_of_step {m : Message} (hf : mv.before.Finishing) (hu : mv.Undisturbed)
    (h : Step l mv.world mv.wall mv.before mv.label mv.after mv.report)
    (hm : mv.attempt? = some m) :
    (∃ q bytes, l.publisher.Publishes mv.before.publisher.phase m mv.after.publisher.phase
      mv.report.sink q bytes) ∨
    l.publisher.Oversized mv.before.publisher.phase m ∧ mv.report.sink = [l.publisher.failed] := by
  rcases sink_of_step h with ⟨i, hi, hsink⟩ | ⟨hi, -, -⟩
  · rw [Move.attempt?, hi] at hm
    cases i with
    | next m' =>
        obtain rfl := Option.some.inj hm
        exact Publisher.attempt_of_step hsink ((hu.up (hf.held h)).resolve_right (by simp [hi]))
    | _ => cases hm
  · rw [Move.attempt?, hi] at hm
    cases hm

/-- On an undisturbed run a lane finishes its work all the time. -/
theorem Run.finishing (h : Run l st₀ ms st) (hf : st₀.Finishing)
    (hu : ∀ mv ∈ ms, mv.Undisturbed) : st.Finishing ∧ ∀ mv ∈ ms, mv.before.Finishing ∧
      Step l mv.world mv.wall mv.before mv.label mv.after mv.report := by
  induction h with
  | nil => exact ⟨hf, List.forall_mem_nil _⟩
  | snoc _ hs ih =>
      rw [List.forall_mem_append, List.forall_mem_singleton] at hu
      obtain ⟨hbefore, hall⟩ := ih hu.1
      refine ⟨finishing_of_step hbefore hu.2 (step_of_step? hs), ?_⟩
      rw [List.forall_mem_append, List.forall_mem_singleton]
      exact ⟨hall, hbefore, step_of_step? hs⟩

/-- The leave of the publisher is the last thing that happens. -/
theorem Run.eq_nil_of_leave {front back : List Move} (h : Run l st₀ (front ++ mv :: back) st)
    (hf : st₀.Finishing) (hu : ∀ x ∈ front ++ mv :: back, x.Undisturbed)
    (hi : mv.sinkInput? = some .drained) : back = [] ∧ st.Left := by
  generalize hms : front ++ mv :: back = ms at h hu
  induction h generalizing back with
  | nil => simp at hms
  | @snoc ms last h hs ih =>
      rcases List.eq_nil_or_concat back with rfl | ⟨back, last', rfl⟩
      · obtain ⟨rfl, hlast⟩ := List.append_inj' hms rfl
        obtain rfl := List.singleton_inj.1 hlast
        exact ⟨rfl, (leaves_of_drained hi (step_of_step? hs)).left⟩
      · -- the leave would have been before, and then there is no further step
        have hcut : (front ++ mv :: back) ++ [last'] = ms ++ [last] := by
          rw [← hms, List.concat_eq_append, List.append_assoc, List.cons_append]
        rw [List.forall_mem_append] at hu
        have hleft := (ih (List.append_inj' hcut rfl).1 hu.1).2
        have hcoherent := (h.finishing hf hu.1).1.coherent
        exact absurd (step_of_step? hs) (not_step_of_left hcoherent hleft)

/-! ### The books of a run -/

/-- **What an undisturbed run counts**: each message that is published counts as forwarded, each
other one that the publisher takes as failed, and each one that gives way as dropped. -/
theorem Run.ledger (h : Run l st₀ ms st) (hf : st₀.Finishing) (hu : ∀ mv ∈ ms, mv.Undisturbed) :
    (counts ms).countP (Metric.isOf .messagesForwarded) +
        st.publisher.phase.inFlight?.toList.length =
      st₀.publisher.phase.inFlight?.toList.length + (published ms).length ∧
    (counts ms).countP (Metric.isOf .publishFailures) + (published ms).length =
      (attempted ms).length ∧
    (counts ms).countP (Metric.isOf .backpressureDrops) = (evicted ms).length := by
  induction h with
  | nil => exact ⟨Nat.add_comm _ _, rfl, rfl⟩
  | @snoc ms mv h hs ih =>
      rw [List.forall_mem_append, List.forall_mem_singleton] at hu
      have hbefore := (h.finishing hf hu.1).1
      have hstep := step_of_step? hs
      obtain ⟨hforwarded, hfailed, hdropped⟩ := ih hu.1
      obtain ⟨hf₁, hf₂, hf₃⟩ :=
        ledger_of_step hbefore.coherent.sound hu.2 (hbefore.held hstep) hstep
      simp only [counts_concat, published_concat, attempted_concat, evicted_concat,
        List.countP_append, List.length_append]
      omega

/-- Whether a move is more than to listen, or to ask in vain. -/
def Move.advances (mv : Move) : Bool := mv.before.advances mv.world.now mv.label

/-- How far the bytes that come in put the end off in some moves. -/
def arrived (ms : List Move) : Nat := ms.foldl (fun n mv => n + mv.label.arrival) 0

/-- **An undisturbed run comes to its end**: it is not longer than the way to it, up to the bytes
that come in. -/
theorem Run.bounded (h : Run l st₀ ms st) (hf : st₀.Finishing) (hu : ∀ mv ∈ ms, mv.Undisturbed) :
    ms.countP Move.advances + st.toGo ≤ st₀.toGo + arrived ms := by
  induction h with
  | nil => simp [arrived]
  | @snoc ms mv h hs ih =>
      rw [List.forall_mem_append, List.forall_mem_singleton] at hu
      have hbefore := (h.finishing hf hu.1).1
      have hstep := step_of_step? hs
      have hle := ih hu.1
      have hone := toGo_of_step hstep hu.2.told hbefore.coherent.sound (hbefore.held hstep)
        (hu.2.up (hbefore.held hstep))
      have hcount : [mv].countP Move.advances = mv.advances.toNat := by
        rw [List.countP_singleton]
        cases mv.advances <;> rfl
      have harrived : arrived (ms ++ [mv]) = arrived ms + mv.label.arrival := by simp [arrived]
      rw [List.countP_append, hcount, harrived, Move.advances]
      omega

/-! ### A lane that is told to stop -/

/-- What a lane owes that has been told to stop when it was in the state `st₀`, after the moves
`ms₀`, and has made the moves `ms` since. -/
structure Drains (l : Lane) (ms₀ : List Move) (st₀ : State) (ms : List Move) (st : State) :
    Prop where
  /-- Every message that has been handed over is decided on, or waits for that. -/
  decided : (Subscriber.handed (sources (ms₀ ++ ms))).filterMap SessionEvent.message? =
    (judged l (ms₀ ++ ms)).map Prod.fst ++ st.middle.inbox.events.filterMap SessionEvent.message?
  /-- Every message that is to be forwarded has been taken or has given way, or is in the line. -/
  lined : (exits (ms₀ ++ ms)).map Prod.snd ++ st.line = forwards l (ms₀ ++ ms)
  /-- The publisher publishes what it takes, unless it is too large for the broker. -/
  attempt : ∀ mv ∈ ms, ∀ m, mv.attempt? = some m →
    (∃ q bytes, l.publisher.Publishes mv.before.publisher.phase m mv.after.publisher.phase
      mv.report.sink q bytes) ∨
    l.publisher.Oversized mv.before.publisher.phase m ∧ mv.report.sink = [l.publisher.failed]
  /-- Every message that is published is forwarded, or in flight. -/
  forwarded : (counts ms).countP (Metric.isOf .messagesForwarded) +
      st.publisher.phase.inFlight?.toList.length =
    st₀.publisher.phase.inFlight?.toList.length + (published ms).length
  failed : (counts ms).countP (Metric.isOf .publishFailures) + (published ms).length =
    (attempted ms).length
  dropped : (counts ms).countP (Metric.isOf .backpressureDrops) = (evicted ms).length
  /-- When the publisher takes its leave all is decided and nothing is in flight, and it is the last
  to go.  The queue is empty if nothing has come in since the publisher has found it so, and only
  then. -/
  leave : ∀ front mv back, ms = front ++ mv :: back → mv.sinkInput? = some .drained →
    mv.before.Decided ∧ mv.before.publisher.phase.inFlight? = none ∧ back = [] ∧
      ∃ early look late, ms₀ ++ front = early ++ look :: late ∧
        Overlooks l look late mv.before
  ended : st.publisher.isClosed = true → st.Decided ∧ st.isDone = true ∧
    ∃ early look late, ms₀ ++ ms = early ++ look :: late ∧ Overlooks l look late st
  /-- Until then some part can go on, unless the publisher waits for its broker. -/
  goesOn : ∀ w wall, w.shutdown = true → st.subscriber.phase.limit ≤ w.now →
    st.publisher.isClosed = true ∨ st.isAwaiting = true ∨ CanGoOn l w wall st
  /-- The lane cannot go on for ever. -/
  bounded : ms.countP Move.advances + st.toGo ≤ st₀.toGo + arrived ms

/-- **A lane that is told to stop finishes its work**, in whatever order its parts make their steps,
if its publisher is connected at that time and is not disturbed afterwards.  Only what comes into
the queue after the publisher has looked for the last time is left there. -/
theorem Journey.drains (h₁ : Journey l l.start ms₁ st₁)
    (hp : st₁.publisher.phase.status = .connected) (h₂ : Run l st₁.signal ms₂ st)
    (hu : ∀ mv ∈ ms₂, mv.Undisturbed) : Drains l ms₁ st₁.signal ms₂ st := by
  have h := h₁.signal.append h₂.journey
  have hf₀ : st₁.signal.Finishing := ⟨h₁.signal.coherent, .inl (Publisher.held?_of_status hp)⟩
  obtain ⟨hf, hall⟩ := h₂.finishing hf₀ hu
  obtain ⟨hforwarded, hfailed, hdropped⟩ := h₂.ledger hf₀ hu
  refine
    { decided := h.handed_eq, lined := h.line_eq.2, forwarded := hforwarded, failed := hfailed
      dropped := hdropped, attempt := fun mv hmv m => ?_, leave := ?_, ended := fun hclosed => ?_
      goesOn := fun w wall => hf.goesOn, bounded := h₂.bounded hf₀ hu }
  · exact attempt_of_step (hall mv hmv).1 (hu mv hmv) (hall mv hmv).2
  · rintro front mv back rfl hi
    obtain ⟨hbefore, hstep⟩ := hall mv (by simp)
    have hleaves := leaves_of_drained hi hstep
    rw [← List.append_assoc] at h
    exact ⟨hbefore.coherent.decided hleaves.closed, hleaves.settled,
      (h₂.eq_nil_of_leave hf₀ hu hi).1, h.before.1.overlooks hleaves.looked⟩
  · obtain ⟨hdecided, hdone⟩ := hf.ended hclosed
    exact ⟨hdecided, hdone, h.overlooks (hf.left hclosed).looked⟩

/-! ### A lane with a short queue -/

/-- The lane with the short queue publishes the first of its messages; the other two wait for the
forwarder. -/
def narrowWork : List Label :=
  narrowStart ++
    [.forward (.event .connecting), .forward (.event (.connected false)),
      .forward (.event (.subscribed [])), .forward (.event (.message (narrowMessage "a/1"))), .take]

/-- Then it is told to stop.  The subscriber goes first; the second message is evicted by the third,
which is published when the first has been confirmed.  The publisher goes last, when it has found
nothing more and the queue is closed. -/
def narrowEnd : List Label :=
  [.source .shutdown, .forward (.event (.message (narrowMessage "a/2"))), .forward (.signal true),
    .forward (.event (.message (narrowMessage "a/3"))), .sink (.arrived [0x40, 2, 0, 1]),
    .sink .packet, .take, .sink (.arrived [0x40, 2, 0, 2]), .forward .eventsEnded, .sink .packet,
    .take, .ask]

/-- The messages that wait when the lane is told to stop are evicted or published before its end. -/
theorem drains_narrow :
    ∃ ms₁ st₁ ms₂ st, Journey narrow narrow.start ms₁ st₁ ∧
      st₁.publisher.phase.status = .connected ∧ Run narrow st₁.signal ms₂ st ∧
      (∀ mv ∈ ms₂, mv.Undisturbed) ∧ (evicted ms₂).map Message.topic = ["x/2"] ∧
      (attempted ms₂).map Message.topic = ["x/3"] ∧ (published ms₂).length = 1 ∧
      st.isDone = true ∧ Drains narrow ms₁ st₁.signal ms₂ st := by
  have hfacts : ((narrow.play? ⟨0, false⟩ .beforeEpoch narrowWork [] narrow.start).bind
      fun a => (narrow.play? ⟨0, true⟩ .beforeEpoch narrowEnd [] a.2.signal).map
        fun b => (a.2.publisher.phase.status, (b.1.all fun mv => mv.Undisturbed) && b.2.isDone,
          (evicted b.1).map Message.topic, (attempted b.1).map Message.topic,
          (published b.1).length)) =
      some (.connected, true, ["x/2"], ["x/3"], 1) := by
    decide +kernel
  obtain ⟨⟨ms₁, st₁⟩, hwork, hrest⟩ := Option.bind_eq_some_iff.1 hfacts
  obtain ⟨⟨ms₂, st⟩, hend, hms⟩ := Option.map_eq_some_iff.1 hrest
  simp only [Prod.mk.injEq, Bool.and_eq_true, List.all_eq_true, decide_eq_true_eq] at hms
  obtain ⟨hconnected, ⟨hu, hdone⟩, hevicted, hattempted, hpublished⟩ := hms
  have h₁ := (Run.nil.of_play? hwork).journey
  have h₂ := Run.nil.of_play? hend
  exact ⟨ms₁, st₁, ms₂, st, h₁, hconnected, h₂, hu, hevicted, hattempted, hpublished, hdone,
    h₁.drains hconnected h₂ hu⟩

/-- Or the publisher is quicker: when the second message has been confirmed, it finds no other.
Then the forwarder puts in the third and closes the queue, before the publisher asks whether it
is. -/
def hastyEnd : List Label :=
  [.source .shutdown, .sink (.arrived [0x40, 2, 0, 1]), .sink .packet,
    .forward (.event (.message (narrowMessage "a/2"))), .take, .sink (.arrived [0x40, 2, 0, 2]),
    .sink .packet, .take, .forward (.event (.message (narrowMessage "a/3"))),
    .forward .eventsEnded, .ask]

/-- The third message has been decided on, but the publisher leaves without it. -/
theorem leaves_message_behind :
    ∃ ms₁ st₁ ms₂ st, Journey narrow narrow.start ms₁ st₁ ∧
      st₁.publisher.phase.status = .connected ∧ Run narrow st₁.signal ms₂ st ∧
      (∀ mv ∈ ms₂, mv.Undisturbed) ∧ st.isDone = true ∧
      (forwards narrow (ms₁ ++ ms₂)).map Message.topic = ["x/1", "x/2", "x/3"] ∧
      (attempted (ms₁ ++ ms₂)).map Message.topic = ["x/1", "x/2"] ∧ evicted (ms₁ ++ ms₂) = [] ∧
      st.middle.queue.items.map Message.topic = ["x/3"] := by
  have hfacts : ((narrow.play? ⟨0, false⟩ .beforeEpoch narrowWork [] narrow.start).bind
      fun a => (narrow.play? ⟨0, true⟩ .beforeEpoch hastyEnd [] a.2.signal).map
        fun b => (a.2.publisher.phase.status, (b.1.all fun mv => mv.Undisturbed) && b.2.isDone &&
          (evicted (a.1 ++ b.1)).isEmpty, (forwards narrow (a.1 ++ b.1)).map Message.topic,
          (attempted (a.1 ++ b.1)).map Message.topic,
          b.2.middle.queue.items.map Message.topic)) =
      some (.connected, true, ["x/1", "x/2", "x/3"], ["x/1", "x/2"], ["x/3"]) := by
    decide +kernel
  obtain ⟨⟨ms₁, st₁⟩, hwork, hrest⟩ := Option.bind_eq_some_iff.1 hfacts
  obtain ⟨⟨ms₂, st⟩, hend, hms⟩ := Option.map_eq_some_iff.1 hrest
  simp only [Prod.mk.injEq, Bool.and_eq_true, List.all_eq_true, decide_eq_true_eq,
    List.isEmpty_iff] at hms
  obtain ⟨hconnected, ⟨⟨hu, hdone⟩, hevicted⟩, hforwards, hattempted, hitems⟩ := hms
  have h₁ := (Run.nil.of_play? hwork).journey
  have h₂ := Run.nil.of_play? hend
  exact ⟨ms₁, st₁, ms₂, st, h₁, hconnected, h₂, hu, hdone, hforwards, hattempted, hevicted, hitems⟩

end Lane

end TopicBridge
