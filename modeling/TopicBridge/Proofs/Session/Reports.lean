/-
**One report on a connection.**

The events of a subscriber fall into connections: each begins with the news that the subscriber is
connecting, and ends with the news that the connection is lost.  In between, when the last answer
to the subscriptions has come in, the subscriber reports what has been refused, and it does so only
once.  Messages may come before the report, if the broker knows the session.

Main definitions:

* `TopicBridge.recent` — the events of the current connection;
* `TopicBridge.IsOrderly` — on no connection there are two reports;
* `Phase.Reports` — how many reports there have been, as far as a subscriber is.

Main results:

* `Subscriber.Run.orderly` — **the events of a subscriber are orderly**.
-/

import TopicBridge.Proofs.Session.Departures
import TopicBridge.Proofs.Session.SubscriptionRound

set_option autoImplicit false

namespace TopicBridge

/-! ### Events -/

namespace SessionEvent

/-- Whether an event reports that all subscriptions have been answered. -/
def isReport : SessionEvent → Bool
  | .subscribed _ => true
  | _ => false

/-- Whether an event lies between two connections. -/
def isBreak : SessionEvent → Bool
  | .connecting | .connectionLost _ => true
  | _ => false

end SessionEvent

/-- The events of the current connection. -/
def recent (es : List SessionEvent) : List SessionEvent := since SessionEvent.isBreak es

/-- On no connection there are two reports. -/
def IsOrderly (es : List SessionEvent) : Prop :=
  ∀ front, front <+: es → (recent front).countP SessionEvent.isReport ≤ 1

variable {es rest : List SessionEvent} {e : SessionEvent}

theorem recent_append (h : ∀ e ∈ rest, e.isBreak = false) :
    recent (es ++ rest) = recent es ++ rest := by
  induction rest using List.reverseRecOn with
  | nil => simp
  | append_singleton rest e ih =>
      rw [← List.append_assoc, recent, since_concat_of_neg (h e (by simp)), ← recent,
        ih fun e he => h e (by simp [he]), List.append_assoc]

theorem isOrderly_nil : IsOrderly [] := by
  rintro front hfront
  obtain rfl := List.prefix_nil.1 hfront
  exact Nat.zero_le 1

theorem isOrderly_concat (h : IsOrderly es)
    (hlast : (recent (es ++ [e])).countP SessionEvent.isReport ≤ 1) : IsOrderly (es ++ [e]) := by
  intro front hfront
  rcases List.prefix_concat_iff.1 hfront with rfl | hfront
  · exact hlast
  · exact h front hfront

/-! ### Reports of a subscriber -/

namespace Subscriber

/-- How often the subscriber has reported on its connection. -/
def reports (ms : List Move) : Nat := (recent (handed ms)).countP SessionEvent.isReport

/-- On a connection the report is still to come as long as an answer is missing. -/
def Serving.Reports (s : Serving) (n : Nat) : Prop :=
  n = 0 ∧ s.pending ≠ [] ∨ n = 1 ∧ s.pending = []

/-- The number of reports on the current connection agrees with how far the subscriber is. -/
def Phase.Reports (n : Nat) : Phase → Prop
  | .opening _ | .greeting _ _ | .welcoming _ _ _ => n = 0
  | .serving s | .delivering s _ _ => s.Reports n
  | .reporting s _ => n = 0 ∧ s.pending = []
  | _ => n ≤ 1

variable {p : Subscriber} {ms : List Move} {mv : Move} {st : State} {n : Nat}

theorem Phase.Reports.le_one {a : Phase} (h : a.Reports n) : n ≤ 1 := by
  cases a with
  | serving | delivering =>
      rcases h with ⟨rfl, -⟩ | ⟨rfl, -⟩
      · exact Nat.zero_le 1
      · exact Nat.le_refl 1
  | reporting => exact h.1 ▸ Nat.zero_le 1
  | opening | greeting | welcoming =>
      obtain rfl := h
      exact Nat.zero_le 1
  | _ => exact h

theorem Phase.reports_of_afterAnswer {s : Serving} {b : Phase} (h : p.afterAnswer s = .ok b) :
    b.Reports 0 := by
  rcases afterAnswer_eq_ok h with ⟨hp, rfl⟩ | ⟨hp, rfl⟩
  · exact .inl ⟨rfl, hp⟩
  · exact ⟨rfl, hp⟩

theorem Phase.reports_of_update? {a b : Phase} {f : Connection → Connection}
    (h : a.update? f = some b) (hn : a.Reports n) : b.Reports n := by
  cases a <;> cases h <;> exact hn

theorem reports_concat_of_none (h : mv.handed? = none) : reports (ms ++ [mv]) = reports ms := by
  rw [reports, handed_concat, h, Option.toList_none, List.append_nil, reports]

theorem reports_concat_of_isBreak {e : SessionEvent} (h : mv.handed? = some e) (he : e.isBreak) :
    reports (ms ++ [mv]) = 0 := by
  rw [reports, handed_concat, h, Option.toList_some, recent, since_concat_of_pos he,
    List.countP_nil]

theorem reports_concat_of_isBreak_eq_false {e : SessionEvent} (h : mv.handed? = some e)
    (he : e.isBreak = false) :
    reports (ms ++ [mv]) = reports ms + if e.isReport then 1 else 0 := by
  rw [reports, handed_concat, h, Option.toList_some, recent, since_concat_of_neg he,
    List.countP_append, List.countP_singleton, reports, recent]

theorem handed?_of_link {i : LinkInput} (h : mv.input = .link i) : mv.handed? = none := by
  rw [Move.handed?, h]

theorem handed?_of_taken (h : mv.input = .taken) : mv.handed? = mv.before.offer? := by
  rw [Move.handed?, h]

/-- Whatever is handed over, there is at most one report on the connection. -/
theorem reports_concat_le_one (h : mv.before.phase.Reports (reports ms)) :
    reports (ms ++ [mv]) ≤ 1 := by
  cases he : mv.handed? with
  | none =>
      rw [reports_concat_of_none he]
      exact h.le_one
  | some e =>
      cases hb : e.isBreak with
      | true =>
          rw [reports_concat_of_isBreak he hb]
          exact Nat.zero_le 1
      | false =>
          rw [reports_concat_of_isBreak_eq_false he hb]
          cases hr : e.isReport with
          | false => exact h.le_one
          | true =>
              -- a report is only on offer while there has been none
              have hoffer : mv.before.offer? = some e := by
                unfold Move.handed? at he
                split at he
                · exact he
                · cases he
              cases hphase : mv.before.phase with
              | reporting s refused =>
                  rw [hphase] at h
                  rw [h.1]
                  exact Nat.le_refl 1
              | _ =>
                  simp only [State.offer?, hphase] at hoffer
                  cases hoffer <;> cases hr

theorem Serving.reports_of_pending {s s' : Serving} (h : s.Reports n)
    (hp : s'.pending = s.pending) : s'.Reports n := by
  rw [Serving.Reports, hp]
  exact h

/-- Every step keeps the number of reports in agreement with how far the subscriber is. -/
theorem Phase.Reports.step {w : Surroundings}
    (h : p.step? w mv.before mv.input = some (mv.after, mv.effects))
    (hn : mv.before.phase.Reports (reports ms)) :
    mv.after.phase.Reports (reports (ms ++ [mv])) := by
  have hle := reports_concat_le_one hn
  have hstep := step_of_step? h
  have hdeparts := departs_of_step? h
  generalize ha : mv.before.phase = a, hi : mv.input = i, hb : mv.after.phase = b,
    he : mv.effects = es at hstep hn hdeparts
  have hlink {j : LinkInput} (hj : i = .link j) : reports (ms ++ [mv]) = reports ms :=
    reports_concat_of_none (handed?_of_link (hi.trans hj))
  have htaken (hj : i = .taken) : mv.handed? = mv.before.offer? := handed?_of_taken (hi.trans hj)
  cases hstep with
  | stop => exact hle
  | away hb' =>
      cases hdeparts hb' with
      | asks =>
          exact reports_concat_of_isBreak
            ((htaken rfl).trans (by rw [State.offer?, ha])) rfl
      | _ => exact hle
  | opened | accepted =>
      rw [hlink rfl]
      exact hn
  | heard _ _ hup =>
      rw [hlink rfl]
      exact reports_of_update? hup hn
  | subscribed _ hans =>
      have hoffer := (htaken rfl).trans (by rw [State.offer?, ha])
      rw [reports_concat_of_isBreak_eq_false hoffer rfl, hn]
      exact reports_of_afterAnswer hans
  | repeated | offered | released | ignored | pinged =>
      rw [hlink rfl]
      exact hn
  | own _ _ _ hack =>
      rw [hlink rfl]
      exact Serving.reports_of_pending hn (acknowledge_eq_ok hack).1
  | answered _ hl hans =>
      rw [hlink rfl]
      rcases hn with ⟨hzero, -⟩ | ⟨-, hnil⟩
      · rw [hzero]
        exact reports_of_afterAnswer hans
      · -- an answer that is awaited comes before the report
        rw [hnil] at hl
        cases hl
  | handed hack =>
      have hoffer := (htaken rfl).trans (by rw [State.offer?, ha])
      rw [reports_concat_of_isBreak_eq_false hoffer rfl]
      exact Serving.reports_of_pending hn (acknowledge_eq_ok hack).1
  | reported =>
      have hoffer := (htaken rfl).trans (by rw [State.offer?, ha])
      rw [reports_concat_of_isBreak_eq_false hoffer rfl, hn.1]
      exact .inr ⟨rfl, hn.2⟩

/-- **The events of a subscriber are orderly.** -/
theorem Run.orderly {shutdown : Bool} (h : Run p (p.start shutdown) ms st) :
    IsOrderly (handed ms) := by
  suffices hboth : IsOrderly (handed ms) ∧ st.phase.Reports (reports ms) from hboth.1
  induction h with
  | nil =>
      refine ⟨isOrderly_nil, ?_⟩
      cases shutdown <;> exact Nat.zero_le 1
  | @snoc ms mv _ hs ih =>
      refine ⟨?_, ih.2.step hs⟩
      have hle := reports_concat_le_one ih.2
      rw [reports, handed_concat] at hle
      rw [handed_concat]
      cases he : mv.handed? with
      | none => rw [Option.toList_none, List.append_nil]; exact ih.1
      | some e =>
          rw [he] at hle
          exact isOrderly_concat ih.1 hle

end Subscriber

end TopicBridge
