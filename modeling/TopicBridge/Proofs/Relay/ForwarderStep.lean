/-
**What a step of a forwarder does with messages.**

A message that comes in is counted as received and then decided on.  Either it is counted again, as
what has become of it, or it joins the queue: at once, or as the message that is held until there is
room.  When the time for holding it is over the oldest message of the queue gives way, and is
counted in its place.  Nothing else changes the queue or what is held.

Main definitions:

* `Decision.forwarded?` — the message that is to be forwarded;
* `Forwarder.judgements` — the decisions that an input asks for;
* `Forwarder.State.held` — the message that waits for room;
* `Forwarder.Passes` — what a step does with messages.

Main results:

* `Forwarder.exists_passes_of_step?` — **every step does that**.
-/

import Mathlib.Tactic.SplitIfs
import TopicBridge.Proofs.Metrics.Totals
import TopicBridge.Relay.Forwarder

set_option autoImplicit false

namespace TopicBridge

/-- The message that is to be forwarded. -/
def Decision.forwarded? : Decision → Option Message
  | .forward _ m => some m
  | _ => none

namespace Forwarder

/-! ### Messages and decisions -/

/-- The message that an input brings. -/
def Input.message? : Input → Option Message
  | .event (.message m) => some m
  | _ => none

/-- The message that an input brings with the decision on it. -/
def judgements (f : Forwarder) (wall : WallTime) (refused : List UInt32) (i : Input) :
    List (Message × Decision) :=
  i.message?.toList.map fun m => (m, f.registry.decide f.flow refused m wall)

/-- What is counted as soon as a message has been decided on, besides that it has come in. -/
def tally (f : Forwarder) : Decision → List Metric
  | .unmatched => [f.counted .messagesUnmatched]
  | .rejected _ reason => [.counted .messagesFiltered reason.text]
  | .noTopic _ _ => [f.counted .topicFailures]
  | .duplicate => [f.counted .duplicateCopies]
  | .forward _ _ => []

/-- The message that waits for room. -/
def State.held (st : State) : List Message := (st.blocked.map Prod.fst).toList

/-- What a step does with messages: the input brings some in, those to be forwarded line up behind
the queue and the message that is held, and the oldest are evicted, in whose place another one comes
into the queue. -/
structure Passes (f : Forwarder) (wall : WallTime) (q : Queue Message) (st : State) (i : Input)
    (st' : State) (q' : Queue Message) (counts : List Metric) (evicted : List Message) : Prop where
  done_of_closed : q'.closed → st'.done
  evicted_prefix : evicted <+: q.items
  replaced : evicted ≠ [] → q'.items ≠ []
  line : evicted ++ q'.items ++ st'.held =
    q.items ++ st.held ++ (f.judgements wall st.refused i).filterMap (·.2.forwarded?)
  counts_eq : counts =
    (f.judgements wall st.refused i).flatMap
      (fun d => f.counted .messagesReceived :: f.tally d.2) ++
    evicted.map fun _ => f.counted .backpressureDrops

variable {f : Forwarder} {now : Millis} {wall : WallTime} {q q' : Queue Message} {st st' : State}
  {counts : List Metric}

/-! ### The queue -/

theorem closed_of_push? {m : Message} {expired : Bool} {outcome : PushOutcome}
    (h : q.push? m expired = some (outcome, q')) : q'.closed = q.closed := by
  unfold Queue.push? at h
  split_ifs at h
  all_goals
    obtain ⟨-, rfl⟩ := Prod.mk.inj (Option.some.inj h)
    rfl

/-- Nothing is discarded at an open queue, and only a full queue drops its oldest message. -/
theorem outcome_of_push? {m : Message} {expired : Bool} {outcome : PushOutcome}
    (h : q.push? m expired = some (outcome, q')) (hopen : q.closed = false) :
    outcome = .queued ∨ outcome = .droppedOldest ∧ q.items ≠ [] := by
  unfold Queue.push? at h
  simp only [hopen, Bool.false_eq_true, if_false] at h
  split_ifs at h with hroom
  · exact .inl (Prod.mk.inj (Option.some.inj h)).1.symm
  · obtain ⟨rfl, -⟩ := Prod.mk.inj (Option.some.inj h)
    refine .inr ⟨rfl, fun hnil => ?_⟩
    rw [hnil] at hroom
    exact hroom q.capacity_pos

theorem enqueue_cases {deadline : Millis} {m : Message} (hopen : q.closed = false)
    (h : f.enqueue now deadline q st m = (st', q', counts)) :
    q'.closed = false ∧ ∃ evicted : List Message, evicted <+: q.items ∧
      (evicted ≠ [] → q'.items ≠ []) ∧ evicted ++ q'.items ++ st'.held = q.items ++ [m] ∧
      counts = evicted.map fun _ => f.counted .backpressureDrops := by
  unfold enqueue at h
  split at h
  · obtain ⟨rfl, hrest⟩ := Prod.mk.inj h
    obtain ⟨rfl, rfl⟩ := Prod.mk.inj hrest
    exact ⟨hopen, [], List.nil_prefix, fun h => absurd rfl h, rfl, rfl⟩
  · rename_i outcome q₁ hpush
    obtain ⟨rfl, hrest⟩ := Prod.mk.inj h
    obtain ⟨rfl, rfl⟩ := Prod.mk.inj hrest
    have hitems := Queue.items_push? hpush
    refine ⟨(closed_of_push? hpush).trans hopen, ?_⟩
    rcases outcome_of_push? hpush hopen with rfl | ⟨rfl, hne⟩
    · exact ⟨[], List.nil_prefix, fun h => absurd rfl h, by simp [hitems, State.held], rfl⟩
    · -- the queue was full, so there is an oldest message
      obtain ⟨oldest, rest, hq⟩ := List.exists_cons_of_ne_nil hne
      refine ⟨[oldest], by simp [hq], fun _ => by simp [hitems], ?_, rfl⟩
      simp [hitems, hq, State.held]

/-- A message that joins the queue, or waits for room, changes nothing else of the state. -/
theorem exists_blocked_of_enqueue {deadline : Millis} {m : Message}
    (h : f.enqueue now deadline q st m = (st', q', counts)) :
    ∃ blocked, st' = { st with blocked } := by
  unfold enqueue at h
  split at h
  all_goals
    obtain ⟨rfl, -⟩ := Prod.mk.inj h
    exact ⟨_, rfl⟩

theorem exists_blocked_of_handle {m : Message} (h : f.handle now wall q st m = (st', q', counts)) :
    ∃ blocked, st' = { st with blocked } := by
  unfold handle at h
  split at h
  case h_5 =>
    obtain ⟨rfl, -⟩ := Prod.mk.inj h
    exact exists_blocked_of_enqueue rfl
  all_goals
    obtain ⟨rfl, -⟩ := Prod.mk.inj h
    exact ⟨st.blocked, rfl⟩

/-! ### Events and other inputs -/

theorem passes_of_quiet {i : Input} (hm : i.message? = none) (hitems : q'.items = q.items)
    (hheld : st'.held = st.held) (hdone : q'.closed → st'.done) :
    Passes f wall q st i st' q' [] [] := by
  have hnone : f.judgements wall st.refused i = [] := by rw [judgements, hm]; rfl
  refine ⟨hdone, List.nil_prefix, fun h => absurd rfl h, ?_, ?_⟩
  · simp [hnone, hitems, hheld]
  · simp [hnone]

theorem passes_of_handle {m : Message} (hopen : q.closed = false) (hfree : st.blocked = none)
    (h : f.handle now wall q st m = (st', q', counts)) :
    ∃ evicted, Passes f wall q st (.event (.message m)) st' q' counts evicted := by
  have hheld : st.held = [] := by rw [State.held, hfree]; rfl
  have hjudged : f.judgements wall st.refused (.event (.message m)) =
      [(m, f.registry.decide f.flow st.refused m wall)] := rfl
  unfold handle at h
  split at h
  case h_5 rule m' hd =>
    -- the message is to be forwarded
    rcases henqueue : f.enqueue now (now + f.queueTimeout) q st m' with ⟨st₁, q₁, drops⟩
    rw [henqueue] at h
    obtain ⟨rfl, hrest⟩ := Prod.mk.inj h
    obtain ⟨rfl, rfl⟩ := Prod.mk.inj hrest
    obtain ⟨hclosed, evicted, hprefix, hreplaced, hline, hcounts⟩ := enqueue_cases hopen henqueue
    refine ⟨evicted, ⟨fun hc => ?_, hprefix, hreplaced, ?_, ?_⟩⟩
    · rw [hclosed] at hc
      cases hc
    · simp [hline, hheld, hjudged, hd, Decision.forwarded?]
    · simp [hcounts, hjudged, hd, tally]
  all_goals
    rename_i hd
    obtain ⟨rfl, hrest⟩ := Prod.mk.inj h
    obtain ⟨rfl, rfl⟩ := Prod.mk.inj hrest
    refine ⟨[], ⟨fun hc => ?_, List.nil_prefix, fun h => absurd rfl h, ?_, ?_⟩⟩
    · rw [hopen] at hc
      cases hc
    · simp [hheld, hjudged, hd, Decision.forwarded?]
    · simp [hjudged, hd, tally]

theorem passes_of_onEvent {e : SessionEvent} (hopen : q.closed = false) (hfree : st.blocked = none)
    (h : f.onEvent now wall q st e = (st', q', counts)) :
    ∃ evicted, Passes f wall q st (.event e) st' q' counts evicted := by
  cases e with
  | message m =>
      -- the message is decided on after the state of the flow has been made known
      have hsame : { st with source := .relaying }.announced.blocked = none := hfree
      obtain ⟨evicted, hp⟩ := passes_of_handle hopen hsame h
      exact ⟨evicted, hp.done_of_closed, hp.evicted_prefix, hp.replaced, hp.line, hp.counts_eq⟩
  | _ =>
      obtain ⟨rfl, hrest⟩ := Prod.mk.inj h
      obtain ⟨rfl, rfl⟩ := Prod.mk.inj hrest
      exact ⟨[], passes_of_quiet rfl rfl rfl (by simp [hopen])⟩

theorem passes_of_free? {i : Input} (hopen : q.closed = false) (hfree : st.blocked = none)
    (h : f.free? now wall q st i = some (st', q', counts)) :
    ∃ evicted, Passes f wall q st i st' q' counts evicted := by
  cases i with
  | event e => exact passes_of_onEvent hopen hfree (Option.some.inj h)
  | eventsEnded =>
      -- only here the queue is closed, and the forwarder comes to its end
      obtain ⟨rfl, hrest⟩ := Prod.mk.inj (Option.some.inj h)
      obtain ⟨rfl, rfl⟩ := Prod.mk.inj hrest
      exact ⟨[], passes_of_quiet rfl rfl rfl fun _ => rfl⟩
  | retry => cases h
  | signal shutdown =>
      simp only [free?] at h
      split_ifs at h
      all_goals
        obtain ⟨rfl, hrest⟩ := Prod.mk.inj (Option.some.inj h)
        obtain ⟨rfl, rfl⟩ := Prod.mk.inj hrest
        exact ⟨[], passes_of_quiet rfl rfl rfl (by simp [hopen])⟩
  | _ =>
      simp only [free?] at h
      split_ifs at h
      obtain ⟨rfl, hrest⟩ := Prod.mk.inj (Option.some.inj h)
      obtain ⟨rfl, rfl⟩ := Prod.mk.inj hrest
      exact ⟨[], passes_of_quiet rfl rfl rfl (by simp [hopen])⟩

theorem passes_of_retry {m : Message} {deadline : Millis} (hopen : q.closed = false)
    (hblocked : st.blocked = some (m, deadline))
    (h : f.enqueue now deadline q st m = (st', q', counts)) :
    ∃ evicted, Passes f wall q st .retry st' q' counts evicted := by
  have hheld : st.held = [m] := by rw [State.held, hblocked]; rfl
  obtain ⟨hclosed, evicted, hprefix, hreplaced, hline, hcounts⟩ := enqueue_cases hopen h
  refine ⟨evicted, ⟨fun hc => ?_, hprefix, hreplaced, ?_, ?_⟩⟩
  · rw [hclosed] at hc
    cases hc
  · simp [hline, hheld, judgements, Input.message?]
  · simp [hcounts, judgements, Input.message?]

/-- **What a step of a forwarder does with messages**, if the queue is only closed at its end. -/
theorem exists_passes_of_step? {i : Input} (hdone : q.closed → st.done)
    (h : f.step? now wall q st i = some (st', q', counts)) :
    ∃ evicted, Passes f wall q st i st' q' counts evicted := by
  unfold step? at h
  split at h
  · cases h
  · rename_i hd
    have hopen : q.closed = false := by
      cases hc : q.closed with
      | false => rfl
      | true => exact absurd (hdone hc) hd
    split at h
    · rename_i hfree
      exact passes_of_free? hopen hfree h
    · rename_i m deadline hblocked
      split_ifs at h with hi
      subst hi
      exact passes_of_retry hopen hblocked (Option.some.inj h)

end Forwarder

end TopicBridge
