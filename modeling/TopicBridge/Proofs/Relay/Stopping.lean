/-
**How a lane comes to its end.**

The parts of a lane end one after the other.  The subscriber stops; then there will be no more
events, and when the forwarder has taken those that wait it closes the queue and ends; and when the
publisher has found no message, and the queue is closed, it takes its leave.  Nobody ends before his
turn, so whatever is closed or done tells what else is.

As long as the publisher keeps its connection every step brings the lane nearer to this end, unless
somebody only listens, or looks in vain for room or for a message.  And until then there are always
steps to be made, except that the publisher may have to wait for its broker.

Main definitions:

* `Forwarder.Running.toGo`, `Lane.State.toGo` — how far it is to the end, at most;
* `Lane.State.Coherent` — how far the subscriber, the forwarder and the queue are agrees;
* `Lane.State.advances` — whether a step is more than to listen or to ask in vain;
* `Lane.CanGoOn` — there is such a step ahead, and none on the way needs a broker or the network.

Main results:

* `Lane.Journey.coherent` — nobody ends before his turn;
* `Lane.toGo_of_step` — **every step brings the end nearer**;
* `Lane.canGoOn_of_held?` — **until then there are steps to be made**.
-/

import TopicBridge.Proofs.Relay.Journey
import TopicBridge.Proofs.Session.Stopping

set_option autoImplicit false

namespace TopicBridge

/-! ### The forwarder -/

namespace Forwarder

/-- What waits for a forwarder. -/
inductive Inbox.Waits (b : Inbox) (st : State) : Input → Prop where
  | retry (hb : st.blocked.isSome) : b.Waits st .retry
  | event {e : SessionEvent} {rest : List SessionEvent} (hb : st.blocked = none)
      (he : b.events = e :: rest) : b.Waits st (.event e)
  | eventsEnded (hb : st.blocked = none) (he : b.events = []) (hn : b.eventsEnded = true) :
      b.Waits st .eventsEnded
  | status (hb : st.blocked = none) (ho : st.statusOpen = true) (hn : b.statusNew = true) :
      b.Waits st (.status b.status)
  | statusEnded (hb : st.blocked = none) (ho : st.statusOpen = true) (hn : b.statusNew = false)
      (he : b.statusEnded = true) : b.Waits st .statusEnded
  | signal (hb : st.blocked = none) (ho : st.signalOpen = true) (hn : b.shutdownNew = true) :
      b.Waits st (.signal b.shutdown)
  | signalEnded (hb : st.blocked = none) (ho : st.signalOpen = true) (hn : b.shutdownNew = false)
      (he : b.shutdownEnded = true) : b.Waits st .signalEnded

theorem mem_waiting_iff {b : Inbox} {st : State} {i : Input} :
    i ∈ b.waiting st ↔ b.Waits st i := by
  constructor
  · intro h
    unfold Inbox.waiting at h
    split at h
    · rename_i hb
      obtain rfl := List.mem_singleton.1 h
      exact .retry hb
    · rename_i hb
      have hfree : st.blocked = none := by simpa using hb
      simp only [List.mem_append, List.mem_ite_nil_right, List.mem_singleton, Bool.and_eq_true,
        Bool.not_eq_true', Option.mem_toList, Option.map_eq_some_iff, List.isEmpty_iff] at h
      rcases h with ((((⟨e, he, rfl⟩ | ⟨⟨he, hn⟩, rfl⟩) | ⟨⟨ho, hn⟩, rfl⟩) |
        ⟨⟨⟨ho, hn⟩, he⟩, rfl⟩) | ⟨⟨ho, hn⟩, rfl⟩) | ⟨⟨⟨ho, hn⟩, he⟩, rfl⟩
      · obtain ⟨rest, hevents⟩ := List.head?_eq_some_iff.1 he
        exact .event hfree hevents
      · exact .eventsEnded hfree he hn
      · exact .status hfree ho hn
      · exact .statusEnded hfree ho hn he
      · exact .signal hfree ho hn
      · exact .signalEnded hfree ho hn he
  · intro h
    cases h with
    | retry hb => simp [Inbox.waiting, hb]
    | _ => simp_all [Inbox.waiting]

/-- What a step makes of that which a forwarder no longer waits for; only a message that comes in,
or that is tried again, can wait for room afterwards. -/
structure Closes (st : State) (i : Input) (st' : State) : Prop where
  running : st.done = false
  done : st'.done = decide (i = .eventsEnded)
  statusOpen : st'.statusOpen = (st.statusOpen && decide (i ≠ .statusEnded))
  signalOpen : st'.signalOpen = true → st.signalOpen = true ∧ i ≠ .signalEnded
  blocked : i ≠ .retry → i.message? = none → st'.blocked = st.blocked

variable {f : Forwarder} {now : Millis} {wall : WallTime} {q q' : Queue Message} {st st' : State}
  {counts : List Metric} {i : Input}

theorem closes_of_onEvent {e : SessionEvent} (hd : st.done = false)
    (h : f.onEvent now wall q st e = (st', q', counts)) : Closes st (.event e) st' := by
  cases e with
  | message m =>
      obtain ⟨blocked, rfl⟩ := exists_blocked_of_handle h
      exact ⟨hd, hd, (Bool.and_true _).symm, fun h => ⟨h, by simp⟩, fun _ hm => by cases hm⟩
  | _ =>
      obtain ⟨rfl, -⟩ := Prod.mk.inj h
      exact ⟨hd, hd, (Bool.and_true _).symm, fun h => ⟨h, by simp⟩, fun _ _ => rfl⟩

theorem closes_of_free? (hd : st.done = false)
    (h : f.free? now wall q st i = some (st', q', counts)) : Closes st i st' := by
  cases i with
  | event e => exact closes_of_onEvent hd (Option.some.inj h)
  | retry => cases h
  | eventsEnded =>
      obtain ⟨rfl, -⟩ := Prod.mk.inj (Option.some.inj h)
      exact ⟨hd, rfl, (Bool.and_true _).symm, fun h => ⟨h, by simp⟩, fun _ _ => rfl⟩
  | signal shutdown =>
      simp only [free?] at h
      split_ifs at h
      · obtain ⟨rfl, -⟩ := Prod.mk.inj (Option.some.inj h)
        exact ⟨hd, hd, (Bool.and_true _).symm, fun ho => absurd ho Bool.false_ne_true,
          fun _ _ => rfl⟩
      · obtain ⟨rfl, -⟩ := Prod.mk.inj (Option.some.inj h)
        exact ⟨hd, hd, (Bool.and_true _).symm, fun h => ⟨h, by simp⟩, fun _ _ => rfl⟩
  | status s =>
      simp only [free?] at h
      split_ifs at h
      obtain ⟨rfl, -⟩ := Prod.mk.inj (Option.some.inj h)
      exact ⟨hd, hd, (Bool.and_true _).symm, fun h => ⟨h, by simp⟩, fun _ _ => rfl⟩
  | statusEnded =>
      simp only [free?] at h
      split_ifs at h
      obtain ⟨rfl, -⟩ := Prod.mk.inj (Option.some.inj h)
      exact ⟨hd, hd, (Bool.and_false _).symm, fun h => ⟨h, by simp⟩, fun _ _ => rfl⟩
  | signalEnded =>
      simp only [free?] at h
      split_ifs at h
      obtain ⟨rfl, -⟩ := Prod.mk.inj (Option.some.inj h)
      exact ⟨hd, hd, (Bool.and_true _).symm, fun ho => absurd ho Bool.false_ne_true, fun _ _ => rfl⟩

theorem closes_of_step? (h : f.step? now wall q st i = some (st', q', counts)) :
    Closes st i st' := by
  unfold step? at h
  split at h
  · cases h
  · rename_i hd
    rw [Bool.not_eq_true] at hd
    split at h
    · exact closes_of_free? hd h
    · split_ifs at h with hi
      subst hi
      obtain ⟨blocked, rfl⟩ := exists_blocked_of_enqueue (Option.some.inj h)
      exact ⟨hd, hd, (Bool.and_true _).symm, fun h => ⟨h, by simp⟩, fun hi => absurd rfl hi⟩

/-- Whether an input has to do with messages or events, rather than with what the forwarder is told
besides. -/
def Input.isWork : Input → Bool
  | .event _ | .retry => true
  | _ => false

/-- What there is still to do with events and messages, counted in steps: a message has two before
it while it waits for room, and one in the queue. -/
def Running.work (r : Running) : Nat :=
  3 * r.inbox.events.length + 2 * r.state.held.length + r.queue.items.length

/-- What a forwarder may still be told besides. -/
def Running.notices (r : Running) : Nat :=
  r.inbox.statusNew.toNat + r.state.statusOpen.toNat + r.inbox.shutdownNew.toNat +
    r.state.signalOpen.toNat + (!r.state.done).toNat

/-- How far it is to the end of a forwarder, at most, and until its queue is empty. -/
def Running.toGo (r : Running) : Nat := r.work + r.notices

/-- A message that can be put in does not wait any longer. -/
theorem held_of_enqueue {deadline : Millis} {m : Message}
    (hp : (q.push? m (deadline ≤ now)).isNone = false)
    (h : f.enqueue now deadline q st m = (st', q', counts)) : st'.held = [] := by
  unfold enqueue at h
  split at h
  · rename_i hnone
    rw [hnone] at hp
    cases hp
  · obtain ⟨rfl, -⟩ := Prod.mk.inj h
    rfl

theorem length_held_le (st : State) : st.held.length ≤ 1 := by
  unfold State.held
  cases st.blocked <;> simp

theorem toNat_le_of_imp {a b : Bool} (h : a = true → b = true) : a.toNat ≤ b.toNat := by
  cases a with
  | false => exact Nat.zero_le _
  | true => rw [h rfl]

/-- What a forwarder is told besides is told once. -/
theorem notices_of_step? {b : Inbox} (hw : b.Waits st i)
    (h : f.step? now wall q st i = some (st', q', counts)) :
    (⟨st', b.without i, q'⟩ : Running).notices + (!i.isWork).toNat ≤
      (⟨st, b, q⟩ : Running).notices := by
  obtain ⟨hrunning, hdone, hopen, hsignal, -⟩ := closes_of_step? h
  have hle := toNat_le_of_imp fun h => (hsignal h).1
  simp only [Running.notices, hrunning, hdone, hopen]
  cases hw with
  | retry | event => simpa [Input.isWork, Inbox.without] using hle
  | eventsEnded => simpa [Input.isWork, Inbox.without] using hle
  | status _ _ hn | signal _ _ hn =>
      simp only [Input.isWork, Inbox.without, hn, ne_eq, reduceCtorEq, not_false_eq_true,
        decide_true, decide_false, Bool.and_true, Bool.not_false, Bool.toNat_true,
        Bool.toNat_false]
      omega
  | statusEnded _ ho =>
      simp only [Input.isWork, Inbox.without, ho, ne_eq, reduceCtorEq, not_true_eq_false,
        decide_false, Bool.and_false, Bool.not_false, Bool.toNat_true, Bool.toNat_false]
      omega
  | signalEnded _ ho =>
      have hclosed : st'.signalOpen = false := by
        cases hs : st'.signalOpen with
        | false => rfl
        | true => exact absurd rfl (hsignal hs).2
      simp [Input.isWork, Inbox.without, ho, hclosed]

/-- Whatever is told besides leaves the message that waits as it is. -/
theorem held_of_quiet (h : f.step? now wall q st i = some (st', q', counts)) (hr : i ≠ .retry)
    (hm : i.message? = none) : st'.held = st.held := by
  rw [State.held, State.held, (closes_of_step? h).blocked hr hm]

/-- A message that is tried again when there is room does not wait any longer. -/
theorem held_of_retry {m : Message} {deadline : Millis} (hb : st.blocked = some (m, deadline))
    (hp : (q.push? m (deadline ≤ now)).isNone = false)
    (h : f.step? now wall q st .retry = some (st', q', counts)) : st'.held = [] := by
  rw [step?, if_neg (by simp [(closes_of_step? h).running])] at h
  simp only [hb, if_true] at h
  exact held_of_enqueue hp (Option.some.inj h)

/-- What a step does to the number of messages in the line. -/
theorem line_le_of_step? (hdone : q.closed → st.done)
    (h : f.step? now wall q st i = some (st', q', counts)) :
    q'.items.length + st'.held.length ≤
      q.items.length + st.held.length + i.message?.toList.length := by
  obtain ⟨evicted, hpasses⟩ := exists_passes_of_step? hdone h
  have hline := congrArg List.length hpasses.line
  have hforwards : ((f.judgements wall st.refused i).filterMap (·.2.forwarded?)).length ≤
      i.message?.toList.length :=
    Nat.le_trans (List.length_filterMap_le _ _) (by simp [judgements])
  simp only [List.length_append] at hline
  omega

/-- An event, or a message that is put in, leaves less to do. -/
theorem work_of_step? {b : Inbox} (hdone : q.closed → st.done) (hw : b.Waits st i)
    (h : f.step? now wall q st i = some (st', q', counts)) :
    (⟨st', b.without i, q'⟩ : Running).work +
        (i.isWork && !(decide (i = .retry) && (⟨st, b, q⟩ : Running).isStuck now)).toNat ≤
      (⟨st, b, q⟩ : Running).work := by
  have hline := line_le_of_step? hdone h
  have hone := length_held_le st'
  cases hw with
  | retry hb =>
      obtain ⟨⟨m, deadline⟩, hblocked⟩ := Option.isSome_iff_exists.1 hb
      have hheld : st.held.length = 1 := by
        rw [State.held, hblocked]
        rfl
      simp only [Input.message?, Option.toList_none, List.length_nil] at hline
      simp only [Running.work, Running.isStuck, Input.isWork, Inbox.without, hblocked]
      cases hp : (q.push? m (deadline ≤ now)).isNone with
      | true =>
          simp only [decide_true, Bool.and_self, Bool.not_true, Bool.and_false, Bool.toNat_false]
          omega
      | false =>
          have hzero := congrArg List.length (held_of_retry hblocked hp h)
          rw [List.length_nil] at hzero
          simp only [decide_true, Bool.and_false, Bool.not_false, Bool.and_self, Bool.toNat_true]
          omega
  | @event e rest hb he =>
      have hheld : st.held.length = 0 := by
        rw [State.held, hb]
        rfl
      have hmost : (Input.event e).message?.toList.length ≤ 1 := Option.length_toList_le
      simp only [Running.work, Input.isWork, Inbox.without, he, List.tail_cons, List.length_cons,
        reduceCtorEq, decide_false, Bool.false_and, Bool.not_false, Bool.and_self, Bool.toNat_true]
      omega
  | _ =>
      have hsame := held_of_quiet h (by simp) rfl
      simp only [Input.message?, Option.toList_none, List.length_nil, hsame] at hline
      simp only [Running.work, Inbox.without, Input.isWork, Bool.false_and, Bool.toNat_false, hsame]
      omega

/-- **Every step brings a forwarder nearer to its end**, unless it asks for room that there still is
not. -/
theorem toGo_of_step? {b : Inbox} (hdone : q.closed → st.done) (hw : b.Waits st i)
    (h : f.step? now wall q st i = some (st', q', counts)) :
    (⟨st', b.without i, q'⟩ : Running).toGo +
        (!(decide (i = .retry) && (⟨st, b, q⟩ : Running).isStuck now)).toNat ≤
      (⟨st, b, q⟩ : Running).toGo := by
  have hwork := work_of_step? hdone hw h
  have hnotices := notices_of_step? hw h
  have hboth : (!(decide (i = .retry) && (⟨st, b, q⟩ : Running).isStuck now)).toNat ≤
      (i.isWork && !(decide (i = .retry) && (⟨st, b, q⟩ : Running).isStuck now)).toNat +
        (!i.isWork).toNat := by
    cases i.isWork with
    | true => simp
    | false => exact Bool.toNat_le _
  simp only [Running.toGo]
  omega

end Forwarder

namespace Lane

variable {l : Lane} {w : Surroundings} {wall : WallTime} {st st' : State} {label : Label}
  {report : Report} {ms : List Move} {mv : Move}

/-! ### Nobody ends before his turn -/

/-- There are no more events if and only if the subscriber has stopped; and the forwarder has ended,
and has closed the queue, only when it has taken all events and put in all messages.  A publisher
that has looked for a message goes on from there, or has left. -/
structure State.Coherent (st : State) : Prop where
  eventsEnded : st.middle.inbox.eventsEnded = st.subscriber.isStopped
  looked (hl : st.looked = true) : st.publisher.isIdle = true ∨ st.publisher.isClosed = true
  sound : st.Sound
  done (hd : st.middle.state.done = true) : st.middle.inbox.events = [] ∧
    st.subscriber.isStopped = true ∧ st.middle.state.blocked = none ∧ st.middle.queue.closed = true

theorem isStopped_eq_false {s s' : Subscriber.State} {i : Subscriber.Input} {es : List Effect}
    {p : Subscriber} (h : p.step? w s i = some (s', es)) : s.isStopped = false := by
  have hne := Subscriber.ne_stopped_of_step? h
  obtain ⟨phase, backoff⟩ := s
  cases phase with
  | stopped => exact absurd rfl hne
  | _ => rfl

/-- As long as the subscriber makes steps the forwarder has not ended. -/
theorem State.Coherent.running (hc : st.Coherent) (hs : st.subscriber.isStopped = false) :
    st.middle.state.done = false := by
  cases hd : st.middle.state.done with
  | false => rfl
  | true =>
      rw [(hc.done hd).2.1] at hs
      cases hs

theorem coherent_afterSource (hc : st.Coherent) (hs : st.subscriber.isStopped = false)
    {o : Subscriber.Outcome} : (st.afterSource o).1.Coherent where
  eventsEnded := by
    change (st.middle.inbox.eventsEnded || o.1.isStopped) = o.1.isStopped
    rw [hc.eventsEnded, hs, Bool.false_or]
  looked := hc.looked
  sound := hc.sound
  done hd := by
    rw [State.afterSource] at hd
    rw [hc.running hs] at hd
    cases hd

theorem afterSink_eventsEnded (st : State) (o : Publisher.Outcome) :
    (st.afterSink o).1.middle.inbox.eventsEnded = st.middle.inbox.eventsEnded := by
  unfold State.afterSink
  dsimp only
  split_ifs <;> rfl

theorem coherent_afterSink (hc : st.Coherent) {o : Publisher.Outcome}
    (ho : st.looked = false ∨ o.1.isClosed = true) : (st.afterSink o).1.Coherent where
  eventsEnded := (afterSink_eventsEnded st o).trans hc.eventsEnded
  looked hl := by
    change st.looked = true at hl
    exact .inr (ho.resolve_left (by simp [hl]))
  sound := hc.sound
  done hd := by
    rw [afterSink_events]
    exact hc.done hd

/-- Every step keeps the parts in agreement. -/
theorem coherent_of_step (h : Step l w wall st label st' report) (hc : st.Coherent) :
    st'.Coherent := by
  cases h with
  | source h => exact coherent_afterSource hc (isStopped_eq_false h)
  | abandon _ h => exact coherent_afterSource hc (isStopped_eq_false h)
  | @handOver e sub es st₁ he hd hroom h hput =>
      have hs := isStopped_eq_false h
      have hc₁ : st₁.Coherent := by
        subst hput
        exact ⟨hc.eventsEnded, hc.looked, hc.sound, fun h => by rw [hd] at h; cases h⟩
      refine coherent_afterSource hc₁ ?_
      subst hput
      exact hs
  | sink hl => exact coherent_afterSink hc (.inl hl)
  | looked _ _ hi => exact ⟨hc.eventsEnded, fun _ => .inl hi, hc.sound, hc.done⟩
  | waits =>
      exact ⟨hc.eventsEnded, fun hl => absurd hl Bool.false_ne_true, hc.sound, hc.done⟩
  | drained _ _ h => exact coherent_afterSink hc (.inr (Publisher.isClosed_of_drained h).2)
  | @take m queue pub es st₁ hl hq h hpop =>
      have hclosed := (Queue.tryPop?_eq_some_iff.1 hq).2.2
      have hc₁ : st₁.Coherent ∧ st₁.looked = false := by
        subst hpop
        refine ⟨⟨hc.eventsEnded, hc.looked, fun h => hc.sound (hclosed ▸ h), fun hd => ?_⟩, hl⟩
        obtain ⟨hevents, hstopped, hfree, hshut⟩ := hc.done hd
        exact ⟨hevents, hstopped, hfree, hclosed.trans hshut⟩
      exact coherent_afterSink hc₁.1 (.inl hc₁.2)
  | @forward i state queue counts hi hf =>
      have hcloses := Forwarder.closes_of_step? hf
      obtain ⟨evicted, hpasses⟩ := Forwarder.exists_passes_of_step? hc.sound hf
      refine ⟨?_, hc.looked, hpasses.done_of_closed, fun hd => ?_⟩
      · rw [← hc.eventsEnded]
        cases i <;> rfl
      · -- the forwarder ends when it learns that there will be no more events
        have hlast : i = .eventsEnded := by simpa [hcloses.done] using hd
        subst hlast
        cases Forwarder.mem_waiting_iff.1 hi with
        | eventsEnded hb he hn =>
            refine ⟨he, hc.eventsEnded ▸ hn, (hcloses.blocked (by simp) rfl).trans hb, ?_⟩
            rw [Forwarder.step?, if_neg (by simp [hcloses.running]), hb] at hf
            obtain ⟨-, hpair⟩ := Prod.mk.inj (Option.some.inj hf)
            obtain ⟨rfl, -⟩ := Prod.mk.inj hpair
            rfl

/-- **Nobody ends before his turn.** -/
theorem Journey.coherent (h : Journey l l.start ms st) : st.Coherent := by
  induction h with
  | nil => exact ⟨rfl, nofun, nofun, nofun⟩
  | snoc _ hs ih => exact coherent_of_step (step_of_step? hs) ih
  | signal _ ih => exact ⟨ih.eventsEnded, ih.looked, ih.sound, ih.done⟩

/-! ### How far it is to the end -/

/-- How far it is to the end of a lane that has been told to stop, at most. -/
def State.toGo (st : State) : Nat :=
  st.subscriber.phase.toGo + st.middle.toGo + st.publisher.phase.toGo

/-- Whether a step is more than to listen, to ask a broker whether it is there, to ask for room that
there still is not, or to look for a message that there is not yet. -/
def State.advances (st : State) (now : Millis) : Label → Bool
  | .source i | .sink i => i.isProgress
  | .forward i => !(decide (i = .retry) && st.middle.isStuck now)
  | .handOver | .abandon => true
  | .take => !st.middle.queue.items.isEmpty
  | .ask => st.middle.queue.closed

/-- How far the bytes that come in put the end off. -/
def Label.arrival : Label → Nat
  | .source i => 3 * i.arrival
  | .sink i => i.arrival
  | _ => 0

theorem afterSource_toGo (st : State) (o : Subscriber.Outcome) : (st.afterSource o).1.toGo =
    o.1.phase.toGo + st.middle.toGo + st.publisher.phase.toGo := rfl

theorem status_of_held? {a : Publisher.Phase} (h : a.held?.isSome) : a.status = .connected := by
  obtain ⟨s, rfl⟩ | ⟨s, f, rfl⟩ := Publisher.exists_phase_of_held? h <;> rfl

/-- A publisher that stays connected tells nothing new. -/
theorem afterSink_toGo_of_held? {o : Publisher.Outcome} (ha : st.publisher.phase.held?.isSome)
    (hb : o.1.phase.held?.isSome) : (st.afterSink o).1.toGo =
      st.subscriber.phase.toGo + st.middle.toGo + o.1.phase.toGo := by
  unfold State.afterSink State.toGo
  dsimp only
  rw [if_pos ((status_of_held? hb).trans (status_of_held? ha).symm)]
  rfl

theorem afterSink_toGo_le (o : Publisher.Outcome) : (st.afterSink o).1.toGo ≤
    st.subscriber.phase.toGo + (st.middle.toGo + 1) + o.1.phase.toGo := by
  have hnew := Bool.toNat_le st.middle.inbox.statusNew
  unfold State.afterSink State.toGo
  dsimp only
  split_ifs
  · simp only [Forwarder.Running.toGo, Forwarder.Running.work, Forwarder.Running.notices]
    omega
  · simp only [Forwarder.Running.toGo, Forwarder.Running.work, Forwarder.Running.notices,
      Forwarder.Inbox.tell, Bool.toNat_true]
    omega

/-- **Every step brings a lane that has been told to stop nearer to its end**, up to the bytes that
come in, as long as the publisher keeps its connection until it takes its leave. -/
theorem toGo_of_step (h : Step l mv.world mv.wall mv.before mv.label mv.after mv.report)
    (hw : mv.world.shutdown = true) (hsound : mv.before.Sound)
    (ha : mv.before.publisher.phase.held?.isSome)
    (hb : mv.after.publisher.phase.held?.isSome ∨ mv.sinkInput? = some .drained) :
    mv.after.toGo + (mv.before.advances mv.world.now mv.label).toNat ≤
      mv.before.toGo + mv.label.arrival := by
  obtain ⟨w, wall, before, label, after, report⟩ := mv
  dsimp only at h hw hsound ha hb ⊢
  cases h with
  | source h =>
      have hle := Subscriber.toGo_of_step? h hw
      rw [afterSource_toGo, State.toGo]
      simp only [State.advances, Label.arrival, Subscriber.Input.worth,
        Subscriber.Input.arrival] at hle ⊢
      omega
  | abandon _ h =>
      have hle := Subscriber.toGo_of_step? h hw
      rw [afterSource_toGo, State.toGo]
      simp only [State.advances, Label.arrival, Subscriber.Input.worth,
        Subscriber.Input.arrival, Bool.toNat_true] at hle ⊢
      omega
  | handOver _ _ _ h hput =>
      have hle := Subscriber.toGo_of_step? h hw
      subst hput
      rw [afterSource_toGo, State.toGo]
      simp only [State.advances, Label.arrival, Subscriber.Input.worth,
        Subscriber.Input.arrival, Bool.toNat_true, Forwarder.Running.toGo, Forwarder.Running.work,
        Forwarder.Running.notices, Forwarder.Inbox.put, List.length_append, List.length_singleton]
        at hle ⊢
      omega
  | forward hi hf =>
      have hle := Forwarder.toGo_of_step? hsound (Forwarder.mem_waiting_iff.1 hi) hf
      have hmiddle : (⟨before.middle.state, before.middle.inbox, before.middle.queue⟩ :
          Forwarder.Running) = before.middle := rfl
      rw [hmiddle] at hle
      simp only [State.advances, Label.arrival, State.toGo]
      omega
  | sink _ h =>
      have hheld := hb.resolve_right (by simp [Move.sinkInput?])
      have hle := Publisher.toGo_of_step? h ha (.inl hheld)
      rw [afterSink_toGo_of_held? ha hheld, State.toGo]
      simp only [State.advances, Label.arrival, Publisher.Input.worth,
        Publisher.Input.arrival] at hle ⊢
      omega
  | looked _ he =>
      simp only [State.advances, he, List.isEmpty_nil, Bool.not_true, Bool.toNat_false]
      exact Nat.le_refl _
  | waits _ ho =>
      simp only [State.advances, ho, Bool.toNat_false]
      exact Nat.le_refl _
  | @take m queue pub es st₁ _ hq h hpop =>
      have hitems := (Queue.tryPop?_eq_some_iff.1 hq).1
      have hheld := hb.resolve_right (by simp [Move.sinkInput?, hitems])
      have hle := Publisher.toGo_of_step? h ha (.inl hheld)
      have ha₁ : st₁.publisher.phase.held?.isSome := by rwa [hpop]
      rw [afterSink_toGo_of_held? (o := (pub, es)) ha₁ hheld, State.toGo]
      subst hpop
      simp only [State.advances, Label.arrival, Publisher.Input.worth, Publisher.Input.arrival,
        List.isEmpty_cons, Bool.not_false, Bool.toNat_true, Forwarder.Running.toGo,
        Forwarder.Running.work, Forwarder.Running.notices, hitems, List.length_cons] at hle ⊢
      omega
  | drained _ hc h =>
      have hle := Publisher.toGo_of_step? h ha (.inr rfl)
      refine Nat.le_trans (Nat.add_le_add_right (afterSink_toGo_le _) _) ?_
      simp only [State.advances, hc, Label.arrival, Publisher.Input.worth,
        Publisher.Input.arrival, Bool.toNat_true, State.toGo] at hle ⊢
      omega

/-! ### There are steps to be made -/

/-- Whether a step needs neither a broker nor the network. -/
def Label.isOwn : Label → Bool
  | .source i => Subscriber.ownInputs.contains i
  | .sink i => Publisher.ownInputs.contains i
  | _ => true

/-- Whether the publisher has to wait for its broker to confirm a message. -/
def State.isAwaiting (st : State) : Bool :=
  match st.publisher.phase with
  | .settling s _ => s.connection.isWaiting
  | _ => false

/-- Some steps that need nobody else lead to one that brings the end nearer. -/
inductive CanGoOn (l : Lane) (w : Surroundings) (wall : WallTime) : State → Prop where
  | now {st : State} (label : Label) (hown : label.isOwn = true)
      (ha : st.advances w.now label = true) (hs : (l.step? w wall st label).isSome = true) :
      CanGoOn l w wall st
  | later {st st' : State} {report : Report} (label : Label) (hown : label.isOwn = true)
      (hs : l.step? w wall st label = some (st', report)) (h : CanGoOn l w wall st') :
      CanGoOn l w wall st

theorem canGoOn_of_forward {i : Forwarder.Input}
    (hi : st.middle.inbox.Waits st.middle.state i)
    (hs : (l.forwarder.step? w.now wall st.middle.queue st.middle.state i).isSome)
    (ha : st.advances w.now (.forward i) = true) : CanGoOn l w wall st := by
  refine .now (.forward i) rfl ha ?_
  obtain ⟨o, ho⟩ := Option.isSome_iff_exists.1 hs
  simp [step?, Forwarder.Running.take?, Forwarder.mem_waiting_iff.2 hi, ho]

/-- A forwarder that has something to do can do it, if there is room in the queue. -/
theorem canGoOn_of_waits (hd : st.middle.state.done = false) (he : st.middle.queue.items = [])
    (hwork : st.middle.state.blocked.isSome ∨ st.middle.inbox.events ≠ [] ∨
      st.middle.inbox.eventsEnded = true) : CanGoOn l w wall st := by
  cases hb : st.middle.state.blocked with
  | some b =>
      obtain ⟨m, deadline⟩ := b
      have hroom : (st.middle.queue.push? m (deadline ≤ w.now)).isNone = false := by
        have hlt : st.middle.queue.items.length < st.middle.queue.capacity := by
          rw [he]
          exact st.middle.queue.capacity_pos
        rw [Queue.push?, dif_pos hlt]
        split <;> rfl
      refine canGoOn_of_forward (.retry (by rw [hb]; rfl)) ?_ ?_
      · simp [Forwarder.step?, hd, hb]
      · simp [State.advances, Forwarder.Running.isStuck, hb, hroom]
  | none =>
      have hfree : (st.middle.state.blocked.isSome : Bool) = false := by rw [hb]; rfl
      cases hevents : st.middle.inbox.events with
      | cons e rest =>
          refine canGoOn_of_forward (.event hb hevents) ?_ rfl
          simp [Forwarder.step?, hd, hb, Forwarder.free?]
      | nil =>
          have hended := (hwork.resolve_left (by simp [hfree])).resolve_left (by simp [hevents])
          refine canGoOn_of_forward (.eventsEnded hb hevents hended) ?_ rfl
          simp [Forwarder.step?, hd, hb, Forwarder.free?]

/-- A subscriber that has not stopped can go on, if the forwarder has taken what it has been
given. -/
theorem canGoOn_of_subscriber (hd : st.middle.state.done = false)
    (he : st.middle.inbox.events = []) (hn : st.subscriber.isStopped = false)
    (hw : w.shutdown = true) (ht : st.subscriber.phase.limit ≤ w.now) : CanGoOn l w wall st := by
  rcases l.subscriber.exists_step? hn hw ht with ⟨hoffer, hs⟩ | ⟨i, hi, hprogress, hs⟩
  · obtain ⟨e, hoffer⟩ := Option.isSome_iff_exists.1 hoffer
    obtain ⟨o, ho⟩ := Option.isSome_iff_exists.1 hs
    refine .now .handOver rfl rfl ?_
    simp [step?, handOver?, hoffer, hd, he, ho, channelCapacity]
  · obtain ⟨o, ho⟩ := Option.isSome_iff_exists.1 hs
    refine .now (.source i) (List.contains_iff_mem.2 hi) hprogress ?_
    simp [step?, ho]

/-- An idle publisher takes what it finds in the queue. -/
theorem canGoOn_of_items {s : Publisher.Pumping} (hs : st.publisher.phase = .pumping s)
    (hl : st.looked = false) (hne : st.middle.queue.items ≠ []) : CanGoOn l w wall st := by
  refine .now .take rfl (by simpa [State.advances] using hne) ?_
  obtain ⟨⟨m, queue⟩, hq⟩ := Option.ne_none_iff_exists'.1 (mt Queue.tryPop?_eq_none_iff.1 hne)
  simp [step?, take?, hl, hq, Publisher.step?, hs]

/-- It takes its leave when it has found nothing and the queue is closed. -/
theorem canGoOn_of_closed {s : Publisher.Pumping} (hs : st.publisher.phase = .pumping s)
    (hl : st.looked = true) (hc : st.middle.queue.closed = true) : CanGoOn l w wall st := by
  refine .now .ask rfl hc ?_
  simp [step?, ask?, hl, hc, Publisher.step?, hs]

/-- It can do one of these, perhaps after it has looked, or asked in vain. -/
theorem canGoOn_of_idle {s : Publisher.Pumping} (hs : st.publisher.phase = .pumping s)
    (hq : st.middle.queue.items ≠ [] ∨ st.middle.queue.closed = true) : CanGoOn l w wall st := by
  cases hl : st.looked with
  | true =>
      cases hc : st.middle.queue.closed with
      | true => exact canGoOn_of_closed hs hl hc
      | false =>
          have hask : l.step? w wall st .ask = some ({ st with looked := false }, {}) := by
            simp [step?, ask?, hl, hc]
          refine .later .ask rfl hask (canGoOn_of_items hs rfl ?_)
          exact hq.resolve_right (by simp [hc])
  | false =>
      by_cases hitems : st.middle.queue.items = []
      · have hlook : l.step? w wall st .take = some ({ st with looked := true }, {}) := by
          simp [step?, take?, hl, Queue.tryPop?_eq_none_iff.2 hitems, Publisher.State.isIdle, hs]
        exact .later .take rfl hlook (canGoOn_of_closed hs rfl (hq.resolve_left (not_not.2 hitems)))
      · exact canGoOn_of_items hs hl hitems

theorem canGoOn_of_settling {s : Publisher.Pumping} {f : Publisher.InFlight}
    (hs : st.publisher.phase = .settling s f) (hl : st.looked = false)
    (hr : s.connection.isWaiting = false) : CanGoOn l w wall st := by
  refine .now (.sink .packet) rfl rfl ?_
  simp only [step?, hl, Publisher.step?, Publisher.link?, hs, Option.isSome_map,
    Bool.false_eq_true, if_false]
  unfold Publisher.ackPacket?
  split
  · rfl
  · rename_i hnone
    simp [Connection.isWaiting, hnone] at hr
  · dsimp only
    split
    · rfl
    · rfl
    · rfl
    · split <;> rfl

/-- **There are steps to be made** that need nobody else, at the latest when the subscriber need not
wait for its broker any more, as long as the publisher is connected and need not wait for its
own. -/
theorem canGoOn_of_held? (hc : st.Coherent) (hp : st.publisher.phase.held?.isSome)
    (hw : w.shutdown = true) (ht : st.subscriber.phase.limit ≤ w.now)
    (ha : st.isAwaiting = false) : CanGoOn l w wall st := by
  obtain ⟨s, hs⟩ | ⟨s, f, hs⟩ := Publisher.exists_phase_of_held? hp
  · by_cases hq : st.middle.queue.items ≠ [] ∨ st.middle.queue.closed = true
    · exact canGoOn_of_idle hs hq
    · obtain ⟨hitems, hopen⟩ := not_or.1 hq
      have hd : st.middle.state.done = false := by
        cases hd : st.middle.state.done with
        | false => rfl
        | true => exact absurd (hc.done hd).2.2.2 hopen
      by_cases hwork : st.middle.state.blocked.isSome ∨ st.middle.inbox.events ≠ [] ∨
          st.middle.inbox.eventsEnded = true
      · exact canGoOn_of_waits hd (not_not.1 hitems) hwork
      · simp only [not_or, not_not, Bool.not_eq_true] at hwork
        exact canGoOn_of_subscriber hd hwork.2.1 (hc.eventsEnded ▸ hwork.2.2) hw ht
  · -- a publisher that has looked does not wait for a confirmation
    have hl : st.looked = false := by
      cases hl : st.looked with
      | false => rfl
      | true => simpa [Publisher.State.isIdle, Publisher.State.isClosed, hs,
          Publisher.Phase.status] using hc.looked hl
    refine canGoOn_of_settling hs hl ?_
    simpa [State.isAwaiting, hs] using ha

end Lane

end TopicBridge
