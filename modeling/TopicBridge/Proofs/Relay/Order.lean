/-
**Messages are published in order, and one at a time.**

A relay keeps the order of the messages of a flow, from the subscriber that hands them over to the
stream on which they are published, and it never publishes the same hand-over twice: what fails is
counted and given up.  The order would be of little use if a message could be on the stream while
another that was sent before still awaits its acknowledgement, so the publisher writes nothing else
until the exchange is over: by the final acknowledgement, or with the connection.

Main definitions:

* `Publisher.Ends` — what ends the exchange of a message;
* `Lane.Ordered` — the order and the exclusion, of some moves of a lane.

Main results:

* `Publisher.inFlight?_of_step` — until its exchange ends a message stays in flight;
* `Lane.Journey.ordered` — **every journey of a lane is in order**.
-/

import TopicBridge.Proofs.Relay.Journey
import TopicBridge.Proofs.Session.Publications

set_option autoImplicit false

namespace TopicBridge

open Mqtt

namespace Publisher

variable {p : Publisher} {w : Surroundings} {a b : Phase} {i : Input} {es : List Effect}
  {f : InFlight}

/-! ### The exchange of a message -/

/-- The exchange of a message comes to its end: its final acknowledgement is read, or the stream is
given up. -/
def Ends (f : InFlight) (a : Phase) (i : Input) (es : List Effect) : Prop :=
  .hangUp ∈ es ∨ ∃ c packet c' code, i = .link .packet ∧ a.connection? = some c ∧
    c.receive = .ok (some (packet, c')) ∧ f.progress packet = .settled code

/-- Until its exchange ends a message stays in flight. -/
theorem inFlight?_of_step (h : p.Step w a i b es) (hf : a.inFlight? = some f) :
    b.inFlight? = some f ∨ Ends f a i es := by
  cases h with
  | away ha =>
      rw [inFlight?_of_isAway ha] at hf
      cases hf
  | heard _ _ hb => exact .inl ((inFlight?_of_update? hb).trans hf)
  | waited => exact .inl hf
  | released => exact .inl hf
  | settled hr hp =>
      cases hf
      exact .inr (.inr ⟨_, _, _, _, rfl, rfl, hr, hp⟩)
  | failed => exact .inr (.inl (by simp [hangingUp]))
  | _ => cases hf

end Publisher

namespace Lane

/-! ### The order of a lane -/

/-- The exchange of a message ends in a move. -/
def Move.Ends (mv : Move) (f : Publisher.InFlight) : Prop :=
  ∃ i, mv.sinkInput? = some i ∧
    Publisher.Ends f mv.before.publisher.phase i mv.report.sink

/-- Some moves of a lane, and the state that they lead to, keep the order of the messages and
publish one at a time. -/
structure Ordered (l : Lane) (ms : List Move) (st : State) : Prop where
  /-- The decisions are on the messages handed over, in that order; the others wait. -/
  handed : (Subscriber.handed (sources ms)).filterMap SessionEvent.message? =
    (judged l ms).map Prod.fst ++ st.middle.inbox.events.filterMap SessionEvent.message?
  /-- What has left the line, each message once, and what is in it are the decisions to forward. -/
  line : (exits ms).map Prod.snd ++ st.line = forwards l ms
  /-- The publisher takes what is to be forwarded in order. -/
  attempted_sublist : (attempted ms).Sublist (forwards l ms)
  /-- What is taken is published or has failed. -/
  attempt : ∀ mv ∈ ms, ∀ m, mv.attempt? = some m →
    Effect.publications mv.report.sink ≠ [] ∨ l.publisher.failed ∈ mv.report.sink
  /-- Nothing is published but what is taken. -/
  publication : ∀ mv ∈ ms, Effect.publications mv.report.sink ≠ [] →
    ∃ m q bytes, mv.attempt? = some m ∧ l.publisher.Publishes mv.before.publisher.phase m
      mv.after.publisher.phase mv.report.sink q bytes
  /-- Before the exchange of a message ends, no other message is published. -/
  exclusive : ∀ front a mid b back, ms = front ++ a :: mid ++ b :: back →
    ∀ f, a.after.publisher.phase.inFlight? = some f →
      Effect.publications b.report.sink ≠ [] → ∃ c ∈ mid, c.Ends f

variable {l : Lane} {st st₀ : State} {ms : List Move} {mv : Move} {f : Publisher.InFlight}

theorem publishes_of_step (h : Step l mv.world mv.wall mv.before mv.label mv.after mv.report)
    (hne : Effect.publications mv.report.sink ≠ []) :
    ∃ m q bytes, mv.attempt? = some m ∧ l.publisher.Publishes mv.before.publisher.phase m
      mv.after.publisher.phase mv.report.sink q bytes := by
  rcases sink_of_step h with ⟨i, hi, hstep⟩ | ⟨-, hnone, -⟩
  · rcases Publisher.publications_of_step hstep with hnil | ⟨m, q, bytes, rfl, hq⟩
    · exact absurd hnil hne
    · refine ⟨m, q, bytes, ?_, hq⟩
      rw [Move.attempt?, hi]
      rfl
  · rw [hnone] at hne
    exact absurd rfl hne

/-- A message in flight stays so until its exchange ends, whatever moves follow. -/
theorem Journey.inFlight?_eq {front mid : List Move} {a : Move}
    (h : Journey l st₀ (front ++ a :: mid) st) (ha : a.after.publisher.phase.inFlight? = some f) :
    (∃ c ∈ mid, c.Ends f) ∨ st.publisher.phase.inFlight? = some f := by
  generalize hms : front ++ a :: mid = ms at h
  induction h generalizing mid with
  | nil => simp at hms
  | @snoc ms mv h hs ih =>
      rcases List.eq_nil_or_concat mid with rfl | ⟨mid, last, rfl⟩
      · obtain rfl := List.singleton_inj.1 (List.append_inj' hms rfl).2
        exact .inr ha
      · have hcut : (front ++ a :: mid) ++ [last] = ms ++ [mv] := by
          rw [← hms, List.concat_eq_append, List.append_assoc, List.cons_append]
        obtain ⟨hfront, hlast⟩ := List.append_inj' hcut rfl
        obtain rfl := List.singleton_inj.1 hlast
        -- the message is in flight before the last move, or its exchange has ended
        rcases ih hfront with ⟨c, hc, hends⟩ | hbefore
        · exact .inl ⟨c, by simp [hc], hends⟩
        · rcases sink_of_step (step_of_step? hs) with ⟨i, hi, hstep⟩ | ⟨-, -, hsame⟩
          · rcases Publisher.inFlight?_of_step hstep hbefore with hafter | hends
            · exact .inr hafter
            · exact .inl ⟨last, by simp, i, hi, hends⟩
          · rw [hsame]
            exact .inr hbefore
  | signal _ ih => exact ih hms

/-- **Every journey of a lane is in order.** -/
theorem Journey.ordered (h : Journey l l.start ms st) : Ordered l ms st where
  handed := h.handed_eq
  line := h.line_eq.2
  attempted_sublist := h.attempted_sublist
  attempt mv hmv m hm := by
    rcases sink_of_step (h.step_of_mem hmv) with ⟨i, hi, hstep⟩ | ⟨hnone, -, -⟩
    · rw [Move.attempt?, hi] at hm
      cases i with
      | next m' => exact Publisher.publications_or_failed_of_step hstep
      | _ => cases hm
    · rw [Move.attempt?, hnone] at hm
      cases hm
  publication mv hmv hne := publishes_of_step (h.step_of_mem hmv) hne
  exclusive front a mid b back hms f hf hne := by
    rw [hms] at h
    obtain ⟨hbefore, hstep⟩ := h.before
    rcases hbefore.inFlight?_eq hf with hends | hflight
    · exact hends
    · -- a publisher that publishes has no message in flight
      obtain ⟨m, q, bytes, -, hq⟩ := publishes_of_step hstep hne
      obtain ⟨s, id, hphase, -⟩ := hq.packet
      rw [hphase] at hflight
      cases hflight

/-- Of three messages the second is evicted while the first awaits its acknowledgement; the first
and the third are published in this order, and the third not before the exchange of the first has
ended. -/
theorem ordered_narrow :
    ∃ ms st, Journey narrow narrow.start ms st ∧ Ordered narrow ms st ∧
      (forwards narrow ms).map Message.topic = ["x/1", "x/2", "x/3"] ∧
      (exits ms).map (fun e => (e.1, e.2.topic)) =
        [(.attempted, "x/1"), (.evicted, "x/2"), (.attempted, "x/3")] ∧
      (Effect.publications (ms.flatMap fun mv => mv.report.sink)).length = 2 := by
  have hfacts : (narrow.play? ⟨0, false⟩ .beforeEpoch narrowScript [] narrow.start).map
      (fun (ms, _) => ((forwards narrow ms).map Message.topic,
        (exits ms).map fun e => (e.1, e.2.topic),
        (Effect.publications (ms.flatMap fun mv => mv.report.sink)).length)) =
      some (["x/1", "x/2", "x/3"],
        [(.attempted, "x/1"), (.evicted, "x/2"), (.attempted, "x/3")], 2) := by
    decide +kernel
  obtain ⟨⟨ms, st⟩, hplay, hms⟩ := Option.map_eq_some_iff.1 hfacts
  simp only [Prod.mk.injEq] at hms
  obtain ⟨hforwards, hexits, hpublished⟩ := hms
  have hjourney := (Run.nil.of_play? hplay).journey
  exact ⟨ms, st, hjourney, hjourney.ordered, hforwards, hexits, hpublished⟩

end Lane

end TopicBridge
