/-
**The life cycle of a flow.**

The state of a flow that is made known follows from three things that change by themselves: how far
the subscriber is, what the publisher has told last, and whether the flow is to stop.  So it is a
function of what the forwarder has taken, and what it tells about a connection is a matter of the
order of the events.  A subscriber reports once on a connection, after all its subscriptions have
been answered; but the broker may send messages of an old session before that, and a message is
taken for a sign that the flow relays.  Until the report is there the flow is then shown as
relaying, and after the report as subscribed.

Main definitions:

* `SourcePhase.after` — how far the subscriber is, as some events tell;
* `TopicBridge.recent` — the events of the current connection;
* `TopicBridge.IsEarly` — a message has come without a report;
* `Lane.lastStatus`, `Lane.toldToStop` — what the forwarder knows of the publisher and of the end;
* `Lane.Lifecycle` — what is shown at some time and at any later time.

Main results:

* `Lane.Journey.shown_eq` — what is shown, as a function of what has been taken;
* `Subscriber.Run.orderly` — a subscriber reports at most once on a connection;
* `Lane.Journey.lifecycle` — **every flow has this life cycle**;
* `Lane.relapse_unanswered` — a message before the report.
-/

import TopicBridge.Proofs.Relay.Journey
import TopicBridge.Proofs.Session.Reports

set_option autoImplicit false

namespace TopicBridge

/-! ### Events -/

/-- How far the subscriber is after an event. -/
def SessionEvent.phaseAfter (source : SourcePhase) : SessionEvent → SourcePhase
  | .connecting => .connecting
  | .connected _ => source
  | .subscribed _ => .subscribed
  | .message _ => .relaying
  | .connectionLost _ => .down

/-- How far the subscriber is, as some events tell. -/
def SourcePhase.after (es : List SessionEvent) : SourcePhase :=
  es.foldl SessionEvent.phaseAfter .down

/-- A message of the current connection has come, and no report. -/
def IsEarly (es : List SessionEvent) : Prop :=
  (∃ e ∈ recent es, e.message?.isSome) ∧ ∀ e ∈ recent es, e.isReport = false

variable {es rest : List SessionEvent} {e : SessionEvent}

theorem SourcePhase.after_concat :
    SourcePhase.after (es ++ [e]) = e.phaseAfter (SourcePhase.after es) := by
  simp [SourcePhase.after, List.foldl_append]

theorem exists_isReport_of_after (h : SourcePhase.after es = .subscribed) :
    ∃ e ∈ recent es, e.isReport := by
  induction es using List.reverseRecOn with
  | nil => cases h
  | append_singleton es e ih =>
      rw [SourcePhase.after_concat] at h
      cases e with
      | connected present =>
          obtain ⟨r, hr, hreport⟩ := ih h
          refine ⟨r, ?_, hreport⟩
          rw [recent, since_concat_of_neg rfl]
          exact List.mem_append_left _ hr
      | subscribed refused =>
          refine ⟨.subscribed refused, ?_, rfl⟩
          rw [recent, since_concat_of_neg rfl]
          exact List.mem_append_right _ (List.mem_singleton_self _)
      | _ => cases h

/-- Without a report the flow seems to relay if and only if a message has come. -/
theorem after_eq_relaying_iff (h : ∀ e ∈ recent es, e.isReport = false) :
    SourcePhase.after es = .relaying ↔ ∃ e ∈ recent es, e.message?.isSome := by
  induction es using List.reverseRecOn with
  | nil => simp [SourcePhase.after, recent]
  | append_singleton es e ih =>
      rw [SourcePhase.after_concat]
      cases hb : e.isBreak with
      | true =>
          rw [recent, since_concat_of_pos hb]
          cases e with
          | connecting | connectionLost => simp [SessionEvent.phaseAfter]
          | _ => cases hb
      | false =>
          have hrecent : recent (es ++ [e]) = recent es ++ [e] := since_concat_of_neg hb
          rw [hrecent] at h ⊢
          have hbefore := ih fun e he => h e (List.mem_append_left _ he)
          cases e with
          | connecting | connectionLost => cases hb
          | subscribed refused => simpa [SessionEvent.isReport] using h (.subscribed refused)
          | connected present =>
              simpa [SessionEvent.phaseAfter, SessionEvent.message?] using hbefore
          | message m => simp [SessionEvent.phaseAfter, SessionEvent.message?]

/-- Only a report makes a flow subscribed that has been relaying. -/
theorem exists_isReport_of_relapse (h : SourcePhase.after es = .relaying)
    (h' : SourcePhase.after (es ++ rest) = .subscribed) : ∃ e ∈ rest, e.isReport := by
  induction rest using List.reverseRecOn with
  | nil =>
      rw [List.append_nil, h] at h'
      cases h'
  | append_singleton rest e ih =>
      rw [← List.append_assoc, SourcePhase.after_concat] at h'
      cases e with
      | connected present =>
          obtain ⟨r, hr, hreport⟩ := ih h'
          exact ⟨r, List.mem_append_left _ hr, hreport⟩
      | subscribed refused => exact ⟨.subscribed refused, by simp, rfl⟩
      | _ => cases h'

/-- In the course of a connection a flow that has been relaying is subscribed again only if the
first messages came without a report. -/
theorem isEarly_of_relapse (horder : IsOrderly (es ++ rest))
    (hbreak : ∀ e ∈ rest, e.isBreak = false) (h : SourcePhase.after es = .relaying)
    (h' : SourcePhase.after (es ++ rest) = .subscribed) : IsEarly es := by
  have hnone : ∀ e ∈ recent es, e.isReport = false := by
    have hcount := horder _ (List.prefix_refl _)
    rw [recent_append hbreak, List.countP_append] at hcount
    have hlater := List.countP_pos_iff.2 (exists_isReport_of_relapse h h')
    have hzero : (recent es).countP SessionEvent.isReport = 0 := by omega
    simpa using List.countP_eq_zero.1 hzero
  exact ⟨(after_eq_relaying_iff hnone).1 h, hnone⟩

/-! ### The forwarder -/

namespace Forwarder

/-- What the publisher tells, if an input is that. -/
def Input.status? : Input → Option SessionStatus
  | .status s => some s
  | _ => none

/-- Whether an input tells that the flow is to stop. -/
def Input.stops : Input → Bool
  | .eventsEnded | .signal true => true
  | _ => false

/-- What is shown has been derived from what is known. -/
def State.IsShown (st : State) : Prop :=
  st.shown = .derive st.source st.destination st.stopping

/-- What a forwarder knows after an input, and that it is shown. -/
structure Learns (st : State) (i : Input) (st' : State) : Prop where
  source : st'.source = i.event?.toList.foldl SessionEvent.phaseAfter st.source
  destination : st'.destination = i.status?.getD st.destination
  stopping : st'.stopping = (st.stopping || i.stops)
  shown : st.IsShown → st'.IsShown

variable {f : Forwarder} {now : Millis} {wall : WallTime} {q q' : Queue Message} {st st' : State}
  {counts : List Metric}

theorem learns_of_onEvent {e : SessionEvent} (h : f.onEvent now wall q st e = (st', q', counts)) :
    Learns st (.event e) st' := by
  cases e with
  | message m =>
      obtain ⟨blocked, rfl⟩ := exists_blocked_of_handle h
      exact ⟨rfl, rfl, (Bool.or_false _).symm, fun _ => rfl⟩
  | _ =>
      obtain ⟨rfl, -⟩ := Prod.mk.inj h
      exact ⟨rfl, rfl, (Bool.or_false _).symm, fun _ => rfl⟩

theorem learns_of_free? {i : Input} (h : f.free? now wall q st i = some (st', q', counts)) :
    Learns st i st' := by
  cases i with
  | event e => exact learns_of_onEvent (Option.some.inj h)
  | eventsEnded =>
      obtain ⟨rfl, -⟩ := Prod.mk.inj (Option.some.inj h)
      exact ⟨rfl, rfl, (Bool.or_true _).symm, fun _ => rfl⟩
  | retry => cases h
  | signal shutdown =>
      simp only [free?] at h
      split_ifs at h with hopen hshutdown
      · obtain ⟨rfl, -⟩ := Prod.mk.inj (Option.some.inj h)
        obtain rfl := hshutdown
        exact ⟨rfl, rfl, (Bool.or_true _).symm, fun _ => rfl⟩
      · -- the signal has been withdrawn before it was seen
        obtain ⟨rfl, -⟩ := Prod.mk.inj (Option.some.inj h)
        rw [Bool.not_eq_true] at hshutdown
        subst hshutdown
        exact ⟨rfl, rfl, (Bool.or_false _).symm, id⟩
  | status s =>
      simp only [free?] at h
      split_ifs at h
      obtain ⟨rfl, -⟩ := Prod.mk.inj (Option.some.inj h)
      exact ⟨rfl, rfl, (Bool.or_false _).symm, fun _ => rfl⟩
  | statusEnded =>
      simp only [free?] at h
      split_ifs at h
      obtain ⟨rfl, -⟩ := Prod.mk.inj (Option.some.inj h)
      exact ⟨rfl, rfl, (Bool.or_false _).symm, fun _ => rfl⟩
  | signalEnded =>
      simp only [free?] at h
      split_ifs at h
      obtain ⟨rfl, -⟩ := Prod.mk.inj (Option.some.inj h)
      exact ⟨rfl, rfl, (Bool.or_false _).symm, id⟩

/-- **What a forwarder knows after a step, and that it is shown.** -/
theorem learns_of_step? {i : Input} (h : f.step? now wall q st i = some (st', q', counts)) :
    Learns st i st' := by
  unfold step? at h
  split at h
  · cases h
  · split at h
    · exact learns_of_free? h
    · split_ifs at h with hi
      subst hi
      obtain ⟨blocked, rfl⟩ := exists_blocked_of_enqueue (Option.some.inj h)
      exact ⟨rfl, rfl, (Bool.or_false _).symm, id⟩

end Forwarder

/-! ### What is shown -/

namespace FlowState

variable {source : SourcePhase} {destination : SessionStatus} {stopping : Bool}

theorem derive_eq_subscribed_iff : derive source destination stopping = .subscribed ↔
    source = .subscribed ∧ destination = .connected ∧ stopping = false := by
  cases source <;> cases destination <;> cases stopping <;> decide

theorem derive_eq_relaying_iff : derive source destination stopping = .relaying ↔
    source = .relaying ∧ destination = .connected ∧ stopping = false := by
  cases source <;> cases destination <;> cases stopping <;> decide

theorem derive_eq_shuttingDown_iff :
    derive source destination stopping = .shuttingDown ↔ stopping = true := by
  cases source <;> cases destination <;> cases stopping <;> decide

end FlowState

namespace Lane

variable {l : Lane} {st st₀ st₁ st₂ : State} {ms ms₁ ms₂ : List Move} {mv : Move}

/-- What the forwarder is told by the publisher in a move. -/
def Move.status? (mv : Move) : Option SessionStatus :=
  match mv.label with
  | .forward i => i.status?
  | _ => none

/-- Whether the forwarder is told to stop in a move. -/
def Move.stops (mv : Move) : Bool :=
  match mv.label with
  | .forward i => i.stops
  | _ => false

/-- What the forwarder has been told last by the publisher. -/
def lastStatus (ms : List Move) : SessionStatus :=
  (ms.filterMap Move.status?).getLast?.getD .disconnected

/-- Whether the forwarder has been told to stop. -/
def toldToStop (ms : List Move) : Bool := ms.any Move.stops

theorem lastStatus_concat : lastStatus (ms ++ [mv]) = mv.status?.getD (lastStatus ms) := by
  rw [lastStatus, filterMap_concat]
  cases mv.status? <;> simp [lastStatus]

theorem toldToStop_append : toldToStop (ms₁ ++ ms₂) = (toldToStop ms₁ || toldToStop ms₂) :=
  List.any_append

/-- What the forwarder of a lane knows, and that it is shown. -/
structure State.Tells (ms : List Move) (st : State) : Prop where
  source : st.middle.state.source = SourcePhase.after (taken ms)
  destination : st.middle.state.destination = lastStatus ms
  stopping : st.middle.state.stopping = toldToStop ms
  shown : st.middle.state.IsShown

theorem tells_of_step (h : Step l mv.world mv.wall mv.before mv.label mv.after mv.report)
    (ht : mv.before.Tells ms) : mv.after.Tells (ms ++ [mv]) := by
  -- a move in which the forwarder takes nothing
  have hquiet (hsame : mv.after.middle.state = mv.before.middle.state)
      (hevent : mv.event? = none) (hstatus : mv.status? = none) (hstops : mv.stops = false) :
      mv.after.Tells (ms ++ [mv]) := by
    refine ⟨?_, ?_, ?_, ?_⟩
    · rw [hsame, taken_concat, hevent, ht.source]
      simp
    · rw [hsame, lastStatus_concat, hstatus, ht.destination]
      rfl
    · rw [hsame, toldToStop_append, ht.stopping]
      simp [toldToStop, hstops]
    · rw [hsame]
      exact ht.shown
  obtain ⟨w, wall, before, label, after, report⟩ := mv
  dsimp only at h hquiet
  cases h with
  | @forward i state queue counts hi hf =>
      have hl := Forwarder.learns_of_step? hf
      refine ⟨?_, ?_, ?_, hl.shown ht.shown⟩
      · rw [taken_concat, SourcePhase.after, List.foldl_append, ← SourcePhase.after, ← ht.source]
        exact hl.source
      · rw [lastStatus_concat, ← ht.destination]
        exact hl.destination
      · rw [toldToStop_append, ← ht.stopping]
        simpa [toldToStop, Move.stops] using hl.stopping
  | handOver _ _ _ _ hput =>
      subst hput
      exact hquiet rfl rfl rfl rfl
  | take _ _ _ hpop =>
      subst hpop
      exact hquiet rfl rfl rfl rfl
  | source | abandon | sink | looked | waits | drained => exact hquiet rfl rfl rfl rfl

theorem Journey.tells (h : Journey l l.start ms st) : st.Tells ms := by
  induction h with
  | nil => exact ⟨rfl, rfl, rfl, rfl⟩
  | snoc _ hs ih => exact tells_of_step (step_of_step? hs) ih
  | signal _ ih => exact ⟨ih.source, ih.destination, ih.stopping, ih.shown⟩

/-- **What is shown, as a function of what has been taken.** -/
theorem Journey.shown_eq (h : Journey l l.start ms st) :
    st.middle.state.shown =
      .derive (SourcePhase.after (taken ms)) (lastStatus ms) (toldToStop ms) := by
  have ht := h.tells
  rw [← ht.source, ← ht.destination, ← ht.stopping]
  exact ht.shown

/-! ### What the publisher has told -/

/-- What waits for the forwarder is what the publisher is, and it has been seen unless it is new. -/
structure State.Informed (st : State) : Prop where
  status : st.middle.inbox.status = st.publisher.phase.status
  seen : st.middle.inbox.statusNew = false →
    st.middle.state.destination = st.middle.inbox.status

theorem eq_of_status_mem_waiting {b : Forwarder.Inbox} {s : Forwarder.State} {t : SessionStatus}
    (h : .status t ∈ b.waiting s) : t = b.status := by
  unfold Forwarder.Inbox.waiting at h
  split_ifs at h
  all_goals simp_all

theorem informed_afterSink (h : st.Informed) (o : Publisher.Outcome) :
    (st.afterSink o).1.Informed := by
  obtain ⟨pub, es⟩ := o
  unfold State.afterSink
  dsimp only
  split_ifs with hsame
  · exact ⟨h.status.trans hsame.symm, h.seen⟩
  · exact ⟨rfl, nofun⟩

theorem informed_of_step (h : Step l mv.world mv.wall mv.before mv.label mv.after mv.report)
    (hinf : mv.before.Informed) : mv.after.Informed := by
  obtain ⟨w, wall, before, label, after, report⟩ := mv
  dsimp only at h hinf ⊢
  cases h with
  | @forward i state queue counts hi hf =>
      have hl := Forwarder.learns_of_step? hf
      cases i with
      | status t =>
          refine ⟨hinf.status, fun _ => ?_⟩
          have ht := eq_of_status_mem_waiting hi
          exact hl.destination.trans ht
      | _ =>
          refine ⟨hinf.status, fun hnew => ?_⟩
          rw [hl.destination]
          exact hinf.seen hnew
  | handOver _ _ _ _ hput =>
      subst hput
      exact ⟨hinf.status, hinf.seen⟩
  | source | abandon | looked | waits => exact ⟨hinf.status, hinf.seen⟩
  | sink | drained => exact informed_afterSink hinf _
  | @take m queue pub es st₁ _ _ _ hpop =>
      have hst₁ : st₁.Informed := by
        subst hpop
        exact ⟨hinf.status, hinf.seen⟩
      exact informed_afterSink hst₁ (pub, es)

theorem Journey.informed (h : Journey l l.start ms st) : st.Informed := by
  induction h with
  | nil => exact ⟨rfl, fun _ => rfl⟩
  | snoc _ hs ih => exact informed_of_step (step_of_step? hs) ih
  | signal _ ih => exact ⟨ih.status, ih.seen⟩

/-! ### The life cycle -/

/-- What is shown after some moves, and after any that follow. -/
structure Lifecycle (ms₁ : List Move) (st₁ : State) (ms₂ : List Move) (st₂ : State) : Prop where
  /-- The publisher was connected when the forwarder looked last. -/
  connected : st₁.middle.state.shown = .subscribed ∨ st₁.middle.state.shown = .relaying →
    lastStatus ms₁ = .connected
  /-- The forwarder has seen what the publisher is, unless there is news. -/
  seen : st₁.middle.inbox.statusNew = false → lastStatus ms₁ = st₁.publisher.phase.status
  /-- The subscriber has reported on its connection. -/
  reported : st₁.middle.state.shown = .subscribed → ∃ e ∈ recent (taken ms₁), e.isReport
  /-- The flow is shown as relaying without a report if and only if messages come early. -/
  early : st₁.middle.state.shown = .relaying ∧ (∀ e ∈ recent (taken ms₁), e.isReport = false) ↔
    IsEarly (taken ms₁) ∧ lastStatus ms₁ = .connected ∧ toldToStop ms₁ = false
  /-- From relaying a flow goes back to subscribed on the same connection only if it was early. -/
  relapse : st₁.middle.state.shown = .relaying → st₂.middle.state.shown = .subscribed →
    (∀ e ∈ taken ms₂, e.isBreak = false) → IsEarly (taken ms₁)
  /-- The end is never left. -/
  final : st₁.middle.state.shown = .shuttingDown → st₂.middle.state.shown = .shuttingDown

/-- The events that the forwarder takes are orderly. -/
theorem Journey.orderly (h : Journey l l.start ms st) : IsOrderly (taken ms) := by
  have hhanded : IsOrderly (Subscriber.handed (sources ms)) := h.source.orderly
  rw [h.events_eq] at hhanded
  exact fun front hfront => hhanded front (hfront.trans (List.prefix_append _ _))

/-- **Every flow has this life cycle.** -/
theorem Journey.lifecycle (h₁ : Journey l l.start ms₁ st₁) (h₂ : Journey l st₁ ms₂ st₂) :
    Lifecycle ms₁ st₁ ms₂ st₂ where
  connected h := by
    rw [h₁.shown_eq, FlowState.derive_eq_subscribed_iff, FlowState.derive_eq_relaying_iff] at h
    rcases h with ⟨-, hconnected, -⟩ | ⟨-, hconnected, -⟩ <;> exact hconnected
  seen hnew := by
    rw [← h₁.tells.destination, h₁.informed.seen hnew, h₁.informed.status]
  reported h := by
    rw [h₁.shown_eq, FlowState.derive_eq_subscribed_iff] at h
    exact exists_isReport_of_after h.1
  early := by
    rw [h₁.shown_eq, FlowState.derive_eq_relaying_iff]
    constructor
    · rintro ⟨⟨hphase, hconnected, hstop⟩, hnone⟩
      exact ⟨⟨(after_eq_relaying_iff hnone).1 hphase, hnone⟩, hconnected, hstop⟩
    · rintro ⟨⟨hmessage, hnone⟩, hconnected, hstop⟩
      exact ⟨⟨(after_eq_relaying_iff hnone).2 hmessage, hconnected, hstop⟩, hnone⟩
  relapse h h' hbreak := by
    have hboth := h₁.append h₂
    rw [h₁.shown_eq, FlowState.derive_eq_relaying_iff] at h
    rw [hboth.shown_eq, FlowState.derive_eq_subscribed_iff, taken, List.filterMap_append] at h'
    have horder := hboth.orderly
    rw [taken, List.filterMap_append] at horder
    exact isEarly_of_relapse horder hbreak h.1 h'.1
  final h := by
    rw [h₁.shown_eq, FlowState.derive_eq_shuttingDown_iff] at h
    rw [(h₁.append h₂).shown_eq, FlowState.derive_eq_shuttingDown_iff, toldToStop_append, h,
      Bool.true_or]

/-- The publisher connects. -/
def sinkUp : List Label :=
  [.sink .timeUp, .sink .opened, .sink (.arrived [0x20, 3, 0, 0, 0]), .sink .packet]

/-- The forwarder takes what it is told until it knows that both sessions are connected. -/
def bothUp : List Label :=
  [.forward (.event .connecting), .forward (.status .connected),
    .forward (.event (.connected false))]

/-- The report comes before the message: the flow is shown as subscribed, and then as relaying. -/
theorem lifecycle_answered :
    ∃ ms₁ st₁ ms₂ st₂, Journey Relay.overlapLane Relay.overlapLane.start ms₁ st₁ ∧
      Journey Relay.overlapLane st₁ ms₂ st₂ ∧ Lifecycle ms₁ st₁ ms₂ st₂ ∧
      st₁.middle.state.shown = .subscribed ∧ st₂.middle.state.shown = .relaying := by
  have hfacts : (Relay.playOverlap? (sinkUp ++
      Relay.accepting (fun refusal grant copy => refusal ++ grant ++ copy) ++
      [.source .packet, .source .packet, .handOver] ++ bothUp ++
      [.forward (.event (.subscribed [1]))])).bind (fun (_, st) =>
        (Relay.overlapLane.play? ⟨0, false⟩ .beforeEpoch
          [.source .packet, .handOver, .forward (.event (.message Relay.secondCopy))] [] st).map
          fun (_, st') => (st.middle.state.shown, st'.middle.state.shown)) =
      some (.subscribed, .relaying) := by decide +kernel
  obtain ⟨⟨ms₁, st₁⟩, hplay₁, hrest⟩ := Option.bind_eq_some_iff.1 hfacts
  obtain ⟨⟨ms₂, st₂⟩, hplay₂, hshown⟩ := Option.map_eq_some_iff.1 hrest
  obtain ⟨hfirst, hsecond⟩ := Prod.mk.inj hshown
  have h₁ := (Run.nil.of_play? hplay₁).journey
  have h₂ := (Run.nil.of_play? hplay₂).journey
  exact ⟨ms₁, st₁, ms₂, st₂, h₁, h₂, h₁.lifecycle h₂, hfirst, hsecond⟩

/-- The message comes before the report: the flow is shown as relaying although nothing has been
reported, and then, on the same connection, as subscribed. -/
theorem relapse_unanswered :
    ∃ ms₁ st₁ ms₂ st₂, Journey Relay.overlapLane Relay.overlapLane.start ms₁ st₁ ∧
      Journey Relay.overlapLane st₁ ms₂ st₂ ∧ st₁.middle.state.shown = .relaying ∧
      (∀ e ∈ taken ms₁, e.isReport = false) ∧ st₂.middle.state.shown = .subscribed ∧
      ∀ e ∈ taken ms₂, e.isBreak = false := by
  have hfacts : (Relay.playOverlap? (sinkUp ++
      Relay.accepting (fun refusal grant copy => copy ++ refusal ++ grant) ++
      [.source .packet, .handOver] ++ bothUp ++
      [.forward (.event (.message Relay.secondCopy))])).bind (fun (ms, st) =>
        (Relay.overlapLane.play? ⟨0, false⟩ .beforeEpoch
          [.source .packet, .source .packet, .handOver, .forward (.event (.subscribed [1]))] []
          st).map fun (ms', st') => (st.middle.state.shown, (taken ms).any SessionEvent.isReport,
            st'.middle.state.shown, (taken ms').any SessionEvent.isBreak)) =
      some (.relaying, false, .subscribed, false) := by decide +kernel
  obtain ⟨⟨ms₁, st₁⟩, hplay₁, hrest⟩ := Option.bind_eq_some_iff.1 hfacts
  obtain ⟨⟨ms₂, st₂⟩, hplay₂, hshown⟩ := Option.map_eq_some_iff.1 hrest
  simp only [Prod.mk.injEq, List.any_eq_false, Bool.not_eq_true] at hshown
  obtain ⟨hfirst, hnone, hsecond, hbreak⟩ := hshown
  exact ⟨ms₁, st₁, ms₂, st₂, (Run.nil.of_play? hplay₁).journey, (Run.nil.of_play? hplay₂).journey,
    hfirst, hnone, hsecond, hbreak⟩

end Lane

end TopicBridge
