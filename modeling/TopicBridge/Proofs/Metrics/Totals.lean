/-
**The totals of what is counted.**

The total of a family grows by one with each thing of that family that is counted, under whatever
label, and by nothing else.  So a total says how many things have been counted.

Main definitions:

* `Metric.family?` — the family whose total something counts in;
* `Family.isOutcome`, `Metric.isOutcome` — what becomes of a message in the end;
* `Metrics.outcomes` — how many messages have come to an end.

Main results:

* `Metrics.total_recordAll` — **a total is the number of things counted**;
* `Metrics.outcomes_recordAll` — so is the number of outcomes.
-/

import TopicBridge.Metrics.Counters

set_option autoImplicit false

namespace TopicBridge

/-! ### Families -/

/-- The family in whose total something is counted. -/
def Metric.family? : Metric → Option Family
  | .counted family _ => some family
  | .forwarded _ _ => some .messagesForwarded
  | _ => none

/-- Whether a family counts what becomes of messages in the end. -/
def Family.isOutcome : Family → Bool
  | .messagesUnmatched | .messagesFiltered | .topicFailures | .duplicateCopies
  | .backpressureDrops | .messagesForwarded | .publishFailures => true
  | .messagesReceived | .sessionReconnects => false

/-- Whether something counts what becomes of a message in the end. -/
def Metric.isOutcome (c : Metric) : Bool := c.family?.any Family.isOutcome

/-- Whether something is counted in a family. -/
def Metric.isOf (family : Family) (c : Metric) : Bool := c.family?.any (· = family)

namespace Metrics

variable {m : Metrics} {family : Family}

/-! ### Totals -/

/-- The order of the labels does not matter to a total. -/
theorem total_eq (m : Metrics) (family : Family) :
    m.total family = m.labelled.foldr (fun e n => if e.1.1 = family then e.2 + n else n) 0 := by
  unfold total ofFamily
  rw [(List.mergeSort_perm _ _).foldr_eq' fun x _ y _ z => Nat.add_left_comm y.2 x.2 z,
    List.foldr_map, List.foldr_filter]
  simp

theorem foldr_addTo (key : Family × String) (n : Nat) (entries : List ((Family × String) × Nat)) :
    (addTo key n entries).foldr (fun e k => if e.1.1 = family then e.2 + k else k) 0 =
      entries.foldr (fun e k => if e.1.1 = family then e.2 + k else k) 0 +
        if key.1 = family then n else 0 := by
  induction entries with
  | nil =>
      simp only [addTo, List.foldr_cons, List.foldr_nil]
      split <;> omega
  | cons e rest ih =>
      obtain ⟨k, count⟩ := e
      by_cases hkey : k = key
      · subst hkey
        simp only [addTo, if_true, List.foldr_cons]
        split <;> omega
      · simp only [addTo, if_neg hkey, List.foldr_cons, ih]
        split <;> omega

theorem total_bump (m : Metrics) (family counted : Family) (label : String) :
    (m.bump counted label).total family = m.total family + if counted = family then 1 else 0 := by
  rw [total_eq, total_eq, bump, foldr_addTo]

theorem total_record (m : Metrics) (c : Metric) :
    (m.record c).total family = m.total family + if c.isOf family then 1 else 0 := by
  cases c with
  | counted counted label =>
      have hbump := total_bump m family counted label
      simpa [record, Metric.isOf, Metric.family?] using hbump
  | forwarded flow latency =>
      have hbump := total_bump m family .messagesForwarded flow
      have hsame : (m.record (.forwarded flow latency)).total family =
          (m.bump .messagesForwarded flow).total family := rfl
      simpa [hsame, Metric.isOf, Metric.family?] using hbump
  | _ => rfl

/-- **A total is the number of things counted.** -/
theorem total_recordAll (m : Metrics) (cs : List Metric) :
    (m.recordAll cs).total family = m.total family + cs.countP (Metric.isOf family) := by
  induction cs generalizing m with
  | nil => rfl
  | cons c cs ih =>
      have hrest := ih (m.record c)
      rw [total_record] at hrest
      rw [List.countP_cons, recordAll, List.foldl_cons]
      rw [recordAll] at hrest
      omega

/-! ### Outcomes -/

/-- The number of messages of which it is known what has become of them. -/
def outcomes (m : Metrics) : Nat :=
  m.total .messagesUnmatched + m.total .messagesFiltered + m.total .topicFailures +
    m.total .duplicateCopies + m.total .backpressureDrops + m.total .messagesForwarded +
    m.total .publishFailures

theorem outcomes_record (m : Metrics) (c : Metric) :
    (m.record c).outcomes = m.outcomes + if c.isOutcome then 1 else 0 := by
  -- an outcome is counted in just one of the families
  have hone : (if c.isOutcome then 1 else 0) =
      (if c.isOf .messagesUnmatched then 1 else 0) + (if c.isOf .messagesFiltered then 1 else 0) +
      (if c.isOf .topicFailures then 1 else 0) + (if c.isOf .duplicateCopies then 1 else 0) +
      (if c.isOf .backpressureDrops then 1 else 0) + (if c.isOf .messagesForwarded then 1 else 0) +
      if c.isOf .publishFailures then 1 else 0 := by
    cases c with
    | counted family label => cases family <;> rfl
    | _ => rfl
  simp only [outcomes, total_record]
  omega

/-- The number of outcomes is that of the outcomes counted. -/
theorem outcomes_recordAll (m : Metrics) (cs : List Metric) :
    (m.recordAll cs).outcomes = m.outcomes + cs.countP Metric.isOutcome := by
  induction cs generalizing m with
  | nil => rfl
  | cons c cs ih =>
      have hrest := ih (m.record c)
      rw [outcomes_record] at hrest
      rw [List.countP_cons, recordAll, List.foldl_cons]
      rw [recordAll] at hrest
      omega

end Metrics

end TopicBridge
