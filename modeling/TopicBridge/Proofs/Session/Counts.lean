/-
**What sessions count.**

A subscriber counts the connections that it opens and loses, and the messages of its own relay that
come back to it; what becomes of the others is not its concern.  A publisher counts besides what
becomes of each message that it is given, once: at the latest when it is no longer in flight.

Main definitions:

* `Effect.IsSession` — what is done without counting what becomes of a message.

Main results:

* `Subscriber.isSession_of_step` — a subscriber does nothing else;
* `Publisher.outcomes_of_step` — **a publisher counts each message once**.
-/

import TopicBridge.Proofs.Metrics.Totals
import TopicBridge.Proofs.Session.PublisherStep
import TopicBridge.Proofs.Session.SubscriberStep

set_option autoImplicit false

namespace TopicBridge

/-- Something that is done without counting what becomes of a message of the relay. -/
def Effect.IsSession : Effect → Prop
  | .count c => c.family? = none ∨ c.family? = some .sessionReconnects
  | _ => True

namespace Subscriber

variable {p : Subscriber} {a b : Phase} {i : Input} {es : List Effect}

theorem isSession_map_write (frames : List Bytes) :
    ∀ e ∈ frames.map Effect.write, e.IsSession := by
  intro e he
  obtain ⟨frame, -, rfl⟩ := List.mem_map.1 he
  trivial

theorem Transit.isSession {e : Effect} (h : Transit p e) : e.IsSession := by
  cases h with
  | dial | hangUp | subscription | farewell => trivial
  | lost | loopDropped => exact .inl rfl
  | again => exact .inr rfl

/-- **A subscriber counts nothing but its sessions**, and its own messages that come back. -/
theorem isSession_of_step (h : Step p a i b es) : ∀ e ∈ es, e.IsSession := by
  cases h with
  | stop _ hes | away _ _ _ hes => exact fun e he => (hes e he).isSession
  | subscribed => exact isSession_map_write _
  | own _ _ _ ha =>
      obtain ⟨-, -, frames, rfl, -⟩ := receipt_of_acknowledge ha
      exact List.forall_mem_cons.2 ⟨.inl rfl, isSession_map_write frames⟩
  | handed ha =>
      obtain ⟨-, -, frames, rfl, -⟩ := receipt_of_acknowledge ha
      exact isSession_map_write frames
  | accepted => simp [Effect.IsSession, Metric.family?]
  | opened | repeated | released | pinged => simp [Effect.IsSession]
  | heard | offered | answered | ignored | reported => simp

end Subscriber

/-! ### Publishers -/

/-- What sessions count are neither messages received nor what becomes of them. -/
theorem Effect.countP_counted_of_isSession {es : List Effect} (h : ∀ e ∈ es, e.IsSession) :
    (counted es).countP (Metric.isOf .messagesReceived) = 0 ∧
      (counted es).countP Metric.isOutcome = 0 := by
  induction es with
  | nil => exact ⟨rfl, rfl⟩
  | cons e es ih =>
      obtain ⟨he, hes⟩ := List.forall_mem_cons.1 h
      cases e with
      | count c =>
          have hc : Metric.isOf .messagesReceived c = false ∧ c.isOutcome = false := by
            rcases he with hnone | hsome
            · simp [Metric.isOf, Metric.isOutcome, hnone]
            · simp [Metric.isOf, Metric.isOutcome, hsome, Family.isOutcome]
          simpa [counted, List.countP_cons, hc.1, hc.2] using ih hes
      | _ => exact ih hes

namespace Publisher

variable {p : Publisher} {w : Surroundings} {a b : Phase} {i : Input} {es : List Effect}

/-- **A publisher counts each message once**: when it is given the message, or when the message is
no longer in flight. -/
theorem outcomes_of_step (h : p.Step w a i b es) :
    (Effect.counted es).countP (Metric.isOf .messagesReceived) = 0 ∧
      (Effect.counted es).countP Metric.isOutcome + b.inFlight?.toList.length =
        a.inFlight?.toList.length + i.message?.toList.length := by
  cases h with
  | away ha hb hes =>
      have hsession : ∀ e ∈ es, e.IsSession := by
        intro e he
        rcases hes e he with rfl | rfl | rfl
        · trivial
        · trivial
        · exact .inr rfl
      obtain ⟨hreceived, houtcome⟩ := Effect.countP_counted_of_isSession hsession
      rw [hreceived, houtcome, inFlight?_of_isAway ha, inFlight?_of_isAway hb]
      exact ⟨rfl, rfl⟩
  | heard _ _ hb =>
      rw [inFlight?_of_update? hb]
      exact ⟨rfl, Nat.zero_add _⟩
  | unwelcome hb | lost hb | unsent hb | failed hb =>
      rw [inFlight?_of_isAway hb]
      exact ⟨rfl, rfl⟩
  | @left s => cases s.connection.farewell <;> exact ⟨rfl, rfl⟩
  | settled => split <;> exact ⟨rfl, rfl⟩
  | _ => exact ⟨rfl, rfl⟩

end Publisher

end TopicBridge
