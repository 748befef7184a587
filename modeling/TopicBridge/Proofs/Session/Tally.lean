/-
**What a subscriber reports of its subscriptions.**

The answers to the subscriptions of a connection come in any order, more than once, or never, and
between other packets.  Only the first answer to each packet counts.  As long as one is missing the
subscriber reports nothing.  When the last one is read it gives the connection up if everything has
been refused, and otherwise it reports what has been refused, in the order in which the answers have
come in.  After that there is no other report on the connection, whatever the broker sends.

The state of a subscriber does not say this: it has a map that shrinks and a list that grows.  Both
are functions of the answers, and so is the report that is due.  That what has been reported, with
what is on offer, is what is due, is kept by every step.

Main definitions:

* `SubAck.refuses` — an answer refuses: its first code is `0x80` or more;
* `Subscriber.arrivals`, `Subscriber.refusals` — the packets that have been answered, and those that
  have been refused, in the order of their first answers;
* `Subscriber.AllRefused` — each packet has been refused;
* `Subscriber.reportsOn` — the reports of a connection, with the one on offer;
* `Subscriber.Tallies` — what is reported of the subscriptions of a connection.

Main results:

* `Subscriber.outcome_snd_eq` — what answers refuse, packet by packet;
* `Subscriber.exists_afterAnswer_of_answer?` — what the answer to an open packet leads to;
* `Run.told` — what has been reported on a connection is what is due;
* `Run.tallies` — **when a subscriber reports, and what**.
-/

import Mathlib.Data.List.Nodup
import TopicBridge.Proofs.Mqtt.Bodies
import TopicBridge.Proofs.Relay.Overlap
import TopicBridge.Proofs.Session.PacketIds
import TopicBridge.Proofs.Session.Reports

set_option autoImplicit false

namespace TopicBridge

open Mqtt

/-! ### Answers that refuse -/

namespace Mqtt

/-- An answer refuses: its first code is `0x80` or more. -/
def SubAck.refuses (a : SubAck) : Bool := a.reasonCodes.head?.any fun r => 0x80 ≤ r.code

/-- An answer with a code refuses if it does not grant. -/
theorem SubAck.refuses_eq {a : SubAck} (h : a.reasonCodes ≠ []) : a.refuses = !a.isGrant := by
  obtain ⟨code, more, hcodes⟩ := List.exists_cons_of_ne_nil h
  simp only [SubAck.refuses, SubAck.isGrant, hcodes, List.head?_cons, Option.any_some,
    ReasonCode.isSuccess]
  rw [← decide_not, decide_eq_decide]
  exact UInt8.not_lt.symm

end Mqtt

/-- No answer is received without a code. -/
theorem Connection.reasonCodes_ne_nil {c c' : Connection} {a : SubAck}
    (h : c.receive = .ok (some (.subAck a, c'))) : a.reasonCodes ≠ [] := by
  obtain ⟨rest, hdecode, -⟩ := Connection.exists_of_receive h
  obtain ⟨first, size, fields, left, -, haccepts⟩ := Decoder.decode_eq_some_iff.1 hdecode
  obtain ⟨-, -, -, list, -, -, hne⟩ := haccepts.fields
  exact hne

/-- What an event reports to be refused, if it is a report. -/
def SessionEvent.report? : SessionEvent → Option (List UInt32)
  | .subscribed refused => some refused
  | _ => none

namespace Subscriber

variable {sent : List (UInt16 × UInt32)} {as : List SubAck} {a : SubAck} {id : UInt16}

/-- The identifiers of the packets that have been answered, in the order of their first answers. -/
def arrivals (as : List SubAck) : List UInt16 := (as.map SubAck.packetId).eraseDups

/-- The first answer to a packet refuses it. -/
def isRefused (as : List SubAck) (id : UInt16) : Bool :=
  (as.find? fun a => a.packetId = id).any SubAck.refuses

/-- The packets that have been refused, in the order of their first answers, each with its
subscription. -/
def refusals (sent : List (UInt16 × UInt32)) (as : List SubAck) : List (UInt16 × UInt32) :=
  (arrivals as).filterMap fun id =>
    if isRefused as id then (sent.lookup id).map (id, ·) else none

/-- Each packet has been refused. -/
def AllRefused (p : Subscriber) (as : List SubAck) : Prop := ∀ e ∈ p.round, isRefused as e.1

instance (p : Subscriber) (as : List SubAck) : Decidable (p.AllRefused as) :=
  decidable_of_iff (p.round.all fun e => isRefused as e.1) (by simp [AllRefused])

/-! ### In the order of the answers -/

theorem mem_arrivals_iff : id ∈ arrivals as ↔ ∃ a ∈ as, a.packetId = id := by
  rw [arrivals, List.mem_eraseDups, List.mem_map]

theorem arrivals_concat_of_mem (h : a.packetId ∈ arrivals as) :
    arrivals (as ++ [a]) = arrivals as := by
  rw [arrivals, List.mem_eraseDups] at h
  rw [arrivals, List.map_append, List.map_singleton, List.eraseDups_append, List.removeAll,
    List.filter_cons_of_neg (by simpa using h), List.filter_nil, List.eraseDups_nil,
    List.append_nil, arrivals]

theorem arrivals_concat_of_not_mem (h : a.packetId ∉ arrivals as) :
    arrivals (as ++ [a]) = arrivals as ++ [a.packetId] := by
  rw [arrivals, List.mem_eraseDups] at h
  rw [arrivals, List.map_append, List.map_singleton, List.eraseDups_append, List.removeAll,
    List.filter_cons_of_pos (by simpa using h), List.filter_nil, arrivals]
  rfl

theorem nodup_arrivals (as : List SubAck) : (arrivals as).Nodup := by
  induction as using List.reverseRecOn with
  | nil => exact List.nodup_nil
  | append_singleton as a ih =>
      by_cases h : a.packetId ∈ arrivals as
      · rwa [arrivals_concat_of_mem h]
      · rw [arrivals_concat_of_not_mem h]
        exact List.nodup_append.2 ⟨ih, List.pairwise_singleton _ _, by
          intro id hid other hother heq
          obtain rfl := List.mem_singleton.1 hother
          exact h (heq ▸ hid)⟩

/-- A further answer says nothing about a packet that has been answered. -/
theorem isRefused_concat_of_mem (h : id ∈ arrivals as) :
    isRefused (as ++ [a]) id = isRefused as id := by
  obtain ⟨b, hb, hid⟩ := mem_arrivals_iff.1 h
  have hsome : (as.find? fun a => a.packetId = id).isSome := by
    rw [List.find?_isSome]
    exact ⟨b, hb, decide_eq_true hid⟩
  rw [isRefused, List.find?_append, Option.or_of_isSome hsome, isRefused]

theorem isRefused_concat_of_not_mem (h : a.packetId ∉ arrivals as) :
    isRefused (as ++ [a]) a.packetId = a.refuses := by
  have hnone : (as.find? fun b => b.packetId = a.packetId) = none := by
    rw [List.find?_eq_none]
    intro b hb hid
    exact h (mem_arrivals_iff.2 ⟨b, hb, of_decide_eq_true hid⟩)
  rw [isRefused, List.find?_append, hnone, Option.none_or, List.find?_singleton,
    if_pos (decide_eq_true rfl), Option.any_some]

theorem refusals_concat_of_mem (h : a.packetId ∈ arrivals as) :
    refusals sent (as ++ [a]) = refusals sent as := by
  rw [refusals, arrivals_concat_of_mem h]
  refine List.filterMap_congr fun id hid => ?_
  rw [isRefused_concat_of_mem hid]

theorem refusals_concat_of_not_mem (h : a.packetId ∉ arrivals as) :
    refusals sent (as ++ [a]) = refusals sent as ++
      (if a.refuses then (sent.lookup a.packetId).map (a.packetId, ·) else none).toList := by
  have hold : (arrivals as).filterMap (fun id => if isRefused (as ++ [a]) id then
      (sent.lookup id).map (id, ·) else none) = refusals sent as := by
    rw [refusals]
    refine List.filterMap_congr fun id hid => ?_
    rw [isRefused_concat_of_mem hid]
  rw [refusals, arrivals_concat_of_not_mem h, filterMap_concat, hold,
    isRefused_concat_of_not_mem h]

/-- **What answers refuse**: the subscriptions of the packets whose first answers refuse them, in
the order of these answers. -/
theorem outcome_snd_eq (hn : (sent.map Prod.fst).Nodup) (hcodes : ∀ a ∈ as, a.reasonCodes ≠ []) :
    (outcome sent as).2 = (refusals sent as).map Prod.snd := by
  induction as using List.reverseRecOn with
  | nil => rfl
  | append_singleton as a ih =>
      obtain ⟨hbefore, hcode⟩ := List.forall_mem_append.1 hcodes
      have hrefuses := SubAck.refuses_eq (hcode a (List.mem_singleton_self a))
      have hopen {interest : UInt32} : (outcome sent as).1.lookup a.packetId = some interest ↔
          sent.lookup a.packetId = some interest ∧ a.packetId ∉ arrivals as := by
        rw [lookup_outcome_eq_some_iff hn, lookup_eq_some_iff_mem hn, mem_arrivals_iff]
        refine and_congr_right fun _ => ?_
        simp only [not_exists, not_and, ne_eq, eq_comm]
      rw [outcome_concat]
      by_cases hseen : a.packetId ∈ arrivals as
      · -- the packet has been answered, and this answer does not count
        have hnone : (outcome sent as).1.lookup a.packetId = none := by
          rw [Option.eq_none_iff_forall_ne_some]
          intro interest hsome
          exact (hopen.1 hsome).2 hseen
        rw [settle_of_lookup_eq_none hnone, ih hbefore, refusals_concat_of_mem hseen]
      · rw [refusals_concat_of_not_mem hseen, List.map_append, ← ih hbefore, hrefuses]
        cases hsent : sent.lookup a.packetId with
        | none =>
            have hnone : (outcome sent as).1.lookup a.packetId = none := by
              rw [Option.eq_none_iff_forall_ne_some]
              intro interest hsome
              rw [hsent] at hopen
              cases (hopen.1 hsome).1
            rw [settle_of_lookup_eq_none hnone]
            simp
        | some interest =>
            rw [settle_of_lookup_eq_some (hopen.2 ⟨hsent, hseen⟩)]
            cases a.isGrant <;> simp

/-! ### Everything is refused -/

theorem mem_arrivals_of_isRefused (h : isRefused as id) : id ∈ arrivals as := by
  rw [isRefused, Option.any_eq_true] at h
  obtain ⟨a, ha, -⟩ := h
  have hid := List.find?_some ha
  exact mem_arrivals_iff.2 ⟨a, List.mem_of_find?_eq_some ha, of_decide_eq_true hid⟩

theorem mem_refusals_iff (hn : (sent.map Prod.fst).Nodup) {e : UInt16 × UInt32} :
    e ∈ refusals sent as ↔ e ∈ sent ∧ isRefused as e.1 := by
  rw [refusals, List.mem_filterMap]
  constructor
  · rintro ⟨id, -, he⟩
    split_ifs at he with hrefused
    obtain ⟨interest, hlookup, rfl⟩ := Option.map_eq_some_iff.1 he
    exact ⟨(lookup_eq_some_iff_mem hn).1 hlookup, hrefused⟩
  · rintro ⟨he, hrefused⟩
    refine ⟨e.1, mem_arrivals_of_isRefused hrefused, ?_⟩
    rw [if_pos hrefused, (lookup_eq_some_iff_mem hn).2 he]
    rfl

theorem nodup_refusals (sent : List (UInt16 × UInt32)) (as : List SubAck) :
    (refusals sent as).Nodup := by
  refine (nodup_arrivals as).filterMap ?_
  -- an entry has the identifier that it was found under
  have hfst {id : UInt16} {e : UInt16 × UInt32}
      (h : e ∈ if isRefused as id then (sent.lookup id).map (id, ·) else none) : e.1 = id := by
    split_ifs at h
    · obtain ⟨interest, -, rfl⟩ := Option.map_eq_some_iff.1 h
      rfl
    · cases h
  intro id id' e he he'
  rw [← hfst he, ← hfst he']

/-- Everything has been refused if there are as many refusals as packets. -/
theorem length_refusals_eq_iff (hn : (sent.map Prod.fst).Nodup) :
    (refusals sent as).length = sent.length ↔ ∀ e ∈ sent, isRefused as e.1 := by
  have hsub : (refusals sent as).Subperm sent :=
    List.subperm_of_subset (nodup_refusals sent as) fun e he => ((mem_refusals_iff hn).1 he).1
  constructor
  · intro hlen e he
    have hperm := hsub.perm_of_length_le hlen.ge
    exact ((mem_refusals_iff hn).1 (hperm.mem_iff.2 he)).2
  · intro hall
    refine Nat.le_antisymm hsub.length_le (List.Subperm.length_le ?_)
    exact List.subperm_of_subset hn.of_map fun e he => (mem_refusals_iff hn).2 ⟨he, hall e he⟩

/-! ### Reports -/

/-- The report that is on offer in a phase. -/
def Phase.report? : Phase → Option (List UInt32)
  | .reporting _ refused => some refused
  | _ => none

/-- The reports that have been handed over on the current connection. -/
def toldOn (ms : List Move) : List (List UInt32) :=
  (handed (current ms)).filterMap SessionEvent.report?

/-- The reports of the current connection: those that have been handed over, and the one that is on
offer. -/
def reportsOn (ms : List Move) (st : State) : List (List UInt32) :=
  toldOn ms ++ st.phase.report?.toList

/-- The reports that the answers on the current connection call for. -/
def due (p : Subscriber) (ms : List Move) : List (List UInt32) :=
  if (outcome p.round (answers ms)).1 ≠ [] then []
  else if (outcome p.round (answers ms)).2.length = p.interests.length then []
  else [(outcome p.round (answers ms)).2]

variable {p : Subscriber} {ms : List Move} {mv : Move} {st : State}

theorem offer?_report? (st : State) : st.offer?.bind SessionEvent.report? = st.phase.report? := by
  unfold State.offer? Phase.report?
  cases st.phase <;> rfl

/-- A report is told when it is taken. -/
theorem toldOn_concat_of_taken (hw : mv.isWelcome = false) (hi : mv.input = .taken) :
    toldOn (ms ++ [mv]) = toldOn ms ++ mv.before.phase.report?.toList := by
  rw [toldOn, current_concat hw, handed_concat, List.filterMap_append, ← offer?_report?,
    handed?_of_taken hi, toldOn]
  cases mv.before.offer? with
  | none => rfl
  | some e =>
      rw [Option.toList_some, Option.bind_some, List.filterMap_cons]
      cases e.report? <;> rfl

theorem toldOn_concat_of_ne_taken (hw : mv.isWelcome = false) (hi : mv.input ≠ .taken) :
    toldOn (ms ++ [mv]) = toldOn ms := by
  have hnone : mv.handed? = none := by
    unfold Move.handed?
    split
    · exact absurd ‹_› hi
    · rfl
  rw [toldOn, current_concat hw, handed_concat, hnone, Option.toList_none, List.append_nil, toldOn]

theorem due_congr {ms' : List Move}
    (h : outcome p.round (answers ms') = outcome p.round (answers ms)) : p.due ms' = p.due ms := by
  rw [due, h, due]

theorem round_ne_nil (hne : p.interests ≠ []) : p.round ≠ [] := by
  rw [← List.length_pos_iff, length_round]
  exact List.length_pos_iff.2 hne

theorem due_of_answers_eq_nil (hne : p.interests ≠ []) (h : answers ms = []) : p.due ms = [] := by
  rw [due, h, outcome_nil, if_pos (round_ne_nil hne)]

/-- What the subscriber does after an answer is what is due. -/
theorem report?_of_afterAnswer {s : Serving} {b : Phase} (hne : p.interests ≠ [])
    (hp : s.pending = (outcome p.round (answers ms)).1)
    (hr : s.refused = (outcome p.round (answers ms)).2)
    (h : p.afterAnswer s = .ok b ∨ p.afterAnswer s = .error .allRefused ∧ b = .losing .allRefused) :
    b.report?.toList = p.due ms := by
  rw [due, ← hp, ← hr]
  rw [afterAnswer] at h
  by_cases hopen : s.pending = []
  · rw [if_neg (not_not.2 hopen)]
    rw [if_neg (by simp [hopen])] at h
    by_cases hall : s.refused.length = p.interests.length
    · rw [if_pos ⟨hne, hall⟩] at h
      rw [if_pos hall]
      rcases h with h | ⟨-, rfl⟩
      · cases h
      · rfl
    · rw [if_neg fun hboth => hall hboth.2] at h
      rw [if_neg hall]
      rcases h with h | ⟨h, -⟩
      · obtain rfl := Except.ok.inj h
        rfl
      · cases h
  · rw [if_pos hopen]
    rw [if_pos (by simpa using hopen)] at h
    rcases h with h | ⟨h, -⟩
    · obtain rfl := Except.ok.inj h
      rfl
    · cases h

/-- What the answer to an open packet leads to. -/
theorem exists_afterAnswer_of_answer? {interest : UInt32} (hbook : mv.before.phase.Booked p ms)
    (h : p.step? mv.world mv.before mv.input = some (mv.after, mv.effects))
    (ha : mv.answer? = some a)
    (hopen : (outcome p.round (answers ms)).1.lookup a.packetId = some interest) :
    ∃ s : Serving, s.pending = (outcome p.round (answers (ms ++ [mv]))).1 ∧
      s.refused = (outcome p.round (answers (ms ++ [mv]))).2 ∧
        (p.afterAnswer s = .ok mv.after.phase ∨
          p.afterAnswer s = .error .allRefused ∧ mv.after.phase = .losing .allRefused) := by
  obtain ⟨s, hphase⟩ := exists_serving_of_answer? ha
  rw [hphase] at hbook
  have hl : s.pending.lookup a.packetId = some interest := by
    rw [hbook.pending_eq]
    exact hopen
  have hx : outcome p.round (answers (ms ++ [mv])) = _ :=
    outcome_answers_concat (received?_of_answer? ha)
  rw [settle_of_lookup_eq_some hopen] at hx
  obtain ⟨-, s', hp, hr, hafter⟩ := credits_of_step? h hphase ha hl
  rcases hbook with ⟨-, hpending, hrefused⟩ | ⟨hnil, -⟩
  · refine ⟨s', ?_, ?_, hafter⟩
    · rw [hx, hp, hpending]
    · rw [hx, hr, hrefused]
  · rw [hnil] at hopen
    cases hopen

/-- An answer to what is not open changes nothing. -/
theorem serving_of_answer? (hbook : mv.before.phase.Booked p ms)
    (h : p.step? mv.world mv.before mv.input = some (mv.after, mv.effects))
    (ha : mv.answer? = some a)
    (hclosed : (outcome p.round (answers ms)).1.lookup a.packetId = none) :
    mv.after.phase.report? = none := by
  have hrec := received?_of_answer? ha
  obtain ⟨hi, s, c, hphase, hr⟩ := received?_eq_some_iff.1 hrec
  rw [hphase] at hbook
  rw [← hbook.pending_eq] at hclosed
  rw [hi] at h
  simp only [step?, link?, hphase, served?, hr, onPacket, hclosed] at h
  obtain ⟨hafter, -⟩ := Prod.mk.inj (Option.some.inj h)
  rw [← hafter]
  rfl

/-- While a report is on offer nothing else happens to the connection. -/
theorem step_of_reporting {s : Serving} {refused : List UInt32}
    (h : p.step? mv.world mv.before mv.input = some (mv.after, mv.effects))
    (hphase : mv.before.phase = .reporting s refused) :
    mv.input = .taken ∧ (∃ s', mv.after.phase = .serving s') ∨
      mv.input ≠ .taken ∧ (mv.after.phase = .stopped ∨
        ∃ s', mv.after.phase = .reporting s' refused) := by
  cases hi : mv.input with
  | taken =>
      simp only [hi, step?, taken?, hphase] at h
      obtain ⟨hafter, -⟩ := Prod.mk.inj (Option.some.inj h)
      exact .inl ⟨rfl, _, by rw [← hafter]⟩
  | refused =>
      simp only [hi, step?, refused?, hphase] at h
      obtain ⟨hafter, -⟩ := Prod.mk.inj (Option.some.inj h)
      exact .inr ⟨by simp, .inl (by rw [← hafter])⟩
  | link i =>
      right
      refine ⟨by simp, ?_⟩
      cases i with
      | arrived | ended | failed =>
          simp only [hi, step?, link?, hphase, Phase.update?, Option.map_some] at h
          obtain ⟨hafter, -⟩ := Prod.mk.inj (Option.some.inj h)
          exact .inr ⟨_, by rw [← hafter]⟩
      | _ =>
          simp only [hi, step?, link?, hphase] at h
          cases h

/-- Where no report is on offer, only an answer leads to one. -/
theorem report?_of_step (hne : p.interests ≠ []) (hexp : mv.before.phase.Expects p ms)
    (h : Step p mv.before.phase mv.input mv.after.phase mv.effects)
    (hnone : mv.before.phase.report? = none) (hans : mv.answer? = none) :
    mv.after.phase.report? = none := by
  generalize ha : mv.before.phase = a, hi : mv.input = i, hb : mv.after.phase = b,
    he : mv.effects = es at h
  rw [ha] at hexp hnone
  cases h with
  | away hb' => cases b <;> first | rfl | cases hb'
  | heard _ _ hup => cases a <;> cases hup <;> first | rfl | cases hnone
  | @subscribed c c' keepAlive present written pending k b hs hafter =>
      -- there is something to wait for
      have hpending := pending_of_subscribeAll hexp.1 hs
      have hopen : pending ≠ [] := by
        rw [hpending, ← List.length_pos_iff, length_kept]
        have hpos := List.length_pos_iff.2 hne
        omega
      rcases afterAnswer_eq_ok hafter with ⟨-, rfl⟩ | ⟨hnil, -⟩
      · rfl
      · exact absurd hnil hopen
  | answered hr =>
      have hrec := received?_eq_some_iff.2 ⟨hi, _, _, ha, hr⟩
      simp [Move.answer?, hrec] at hans
  | reported => cases hnone
  | _ => rfl

/-- A broker that has just accepted the connection has not been told anything. -/
theorem reportsOn_of_isWelcome (hw : mv.isWelcome) : reportsOn (ms ++ [mv]) mv.after = [] := by
  have hafter : mv.after.phase.report? = none := by
    unfold Move.isWelcome Move.welcomed? at hw
    split at hw
    · rename_i hphase
      rw [hphase]
      rfl
    · cases hw
  rw [reportsOn, toldOn, current_of_isWelcome hw, hafter]
  rfl

/-- A step where no report is on offer keeps what has been reported in agreement with what is
due. -/
theorem reportsOn_step_of_quiet (hne : p.interests ≠ []) (hbook : mv.before.phase.Booked p ms)
    (hexp : mv.before.phase.Expects p ms)
    (h : p.step? mv.world mv.before mv.input = some (mv.after, mv.effects))
    (htold : reportsOn ms mv.before = p.due ms) (hw : mv.isWelcome = false)
    (hnone : mv.before.phase.report? = none) :
    reportsOn (ms ++ [mv]) mv.after = p.due (ms ++ [mv]) := by
  have hsame : toldOn (ms ++ [mv]) = toldOn ms := by
    by_cases hi : mv.input = .taken
    · rw [toldOn_concat_of_taken hw hi, hnone]
      exact List.append_nil _
    · exact toldOn_concat_of_ne_taken hw hi
  have htold' : toldOn ms = p.due ms := by
    rw [← htold, reportsOn, hnone]
    exact (List.append_nil _).symm
  have hquiet (hdue : p.due (ms ++ [mv]) = p.due ms) (hafter : mv.after.phase.report? = none) :
      reportsOn (ms ++ [mv]) mv.after = p.due (ms ++ [mv]) := by
    rw [reportsOn, hsame, hafter, htold', hdue]
    exact List.append_nil _
  cases ha : mv.answer? with
  | none =>
      refine hquiet (due_congr ?_) (report?_of_step hne hexp (step_of_step? h) hnone ha)
      rw [answers_concat_of_answer?_eq_none hw ha]
  | some a =>
      have hx : outcome p.round (answers (ms ++ [mv])) =
          settle (outcome p.round (answers ms)) a :=
        outcome_answers_concat (received?_of_answer? ha)
      cases hopen : (outcome p.round (answers ms)).1.lookup a.packetId with
      | none =>
          refine hquiet (due_congr ?_) (serving_of_answer? hbook h ha hopen)
          rw [hx, settle_of_lookup_eq_none hopen]
      | some interest =>
          -- nothing has been told, since this packet was open
          have hmissing : (outcome p.round (answers ms)).1 ≠ [] := by
            intro hnil
            rw [hnil] at hopen
            cases hopen
          obtain ⟨s, hp, hr, hafter⟩ := exists_afterAnswer_of_answer? hbook h ha hopen
          rw [reportsOn, hsame, htold', due, if_pos hmissing, List.nil_append]
          exact report?_of_afterAnswer hne hp hr hafter

/-- Every step keeps what has been reported in agreement with what is due; only if everything is to
stop the report on offer is given up. -/
theorem reportsOn_step (hne : p.interests ≠ []) (hbook : mv.before.phase.Booked p ms)
    (hexp : mv.before.phase.Expects p ms)
    (h : p.step? mv.world mv.before mv.input = some (mv.after, mv.effects))
    (htold : reportsOn ms mv.before = p.due ms) :
    reportsOn (ms ++ [mv]) mv.after <+: p.due (ms ++ [mv]) ∧
      (mv.after.isStopped = false → reportsOn (ms ++ [mv]) mv.after = p.due (ms ++ [mv])) := by
  have hboth (heq : reportsOn (ms ++ [mv]) mv.after = p.due (ms ++ [mv])) :
      reportsOn (ms ++ [mv]) mv.after <+: p.due (ms ++ [mv]) ∧
        (mv.after.isStopped = false → reportsOn (ms ++ [mv]) mv.after = p.due (ms ++ [mv])) :=
    ⟨heq ▸ List.prefix_rfl, fun _ => heq⟩
  cases hw : mv.isWelcome with
  | true =>
      refine hboth ?_
      rw [reportsOn_of_isWelcome hw, due_of_answers_eq_nil hne (answers_concat_of_isWelcome hw)]
  | false =>
      cases hreport : mv.before.phase.report? with
      | none => exact hboth (reportsOn_step_of_quiet hne hbook hexp h htold hw hreport)
      | some refused =>
          obtain ⟨s, hphase⟩ : ∃ s, mv.before.phase = .reporting s refused := by
            unfold Phase.report? at hreport
            split at hreport
            · rename_i s _ hphase
              obtain rfl := Option.some.inj hreport
              exact ⟨s, hphase⟩
            · cases hreport
          have hans : mv.answer? = none := by
            cases ha : mv.answer? with
            | none => rfl
            | some a =>
                obtain ⟨s', hs'⟩ := exists_serving_of_answer? ha
                rw [hphase] at hs'
                cases hs'
          have hdue : p.due (ms ++ [mv]) = p.due ms :=
            due_congr (by rw [answers_concat_of_answer?_eq_none hw hans])
          rw [reportsOn, hreport, Option.toList_some] at htold
          rcases step_of_reporting h hphase with ⟨hi, s', hs'⟩ | ⟨hi, hs' | ⟨s', hs'⟩⟩
          · -- the report has been handed over
            refine hboth ?_
            rw [reportsOn, toldOn_concat_of_taken hw hi, hreport, hs', hdue, ← htold]
            exact List.append_nil _
          · -- there was nobody to take it
            rw [reportsOn, toldOn_concat_of_ne_taken hw hi, hs', hdue, ← htold]
            refine ⟨?_, ?_⟩
            · exact (List.append_nil (toldOn ms)).symm ▸ List.prefix_append ..
            · intro hlive
              rw [State.isStopped, hs'] at hlive
              cases hlive
          · refine hboth ?_
            rw [reportsOn, toldOn_concat_of_ne_taken hw hi, hs', hdue, ← htold]
            rfl

/-- **What has been reported on a connection is what is due.** -/
theorem Run.told {shutdown : Bool} (h : Run p (p.start shutdown) ms st) (hne : p.interests ≠ [])
    (hlen : p.interests.length ≤ 65535) :
    reportsOn ms st <+: p.due ms ∧ (st.isStopped = false → reportsOn ms st = p.due ms) := by
  induction h with
  | nil =>
      have hnone : reportsOn [] (p.start shutdown) = p.due [] := by
        rw [due_of_answers_eq_nil hne rfl]
        cases shutdown <;> rfl
      exact ⟨hnone ▸ List.prefix_rfl, fun _ => hnone⟩
  | @snoc ms mv hrun hs ih =>
      exact reportsOn_step hne (hrun.booked hlen) hrun.expects hs (ih.2 (isStopped_of_step? hs))

/-! ### What is due -/

/-- Every answer that has been read has a code. -/
theorem reasonCodes_ne_nil_of_mem_answers (ms : List Move) :
    ∀ a ∈ answers ms, a.reasonCodes ≠ [] := by
  intro a ha
  obtain ⟨mv, -, hmv⟩ := List.mem_filterMap.1 ha
  obtain ⟨-, s, c, -, hr⟩ := received?_eq_some_iff.1 (received?_of_answer? hmv)
  exact Connection.reasonCodes_ne_nil hr

theorem outcome_snd_answers (hlen : p.interests.length ≤ 65535) :
    (outcome p.round (answers ms)).2 = (refusals p.round (answers ms)).map Prod.snd :=
  outcome_snd_eq (nodup_round hlen) (reasonCodes_ne_nil_of_mem_answers ms)

theorem length_outcome_snd_eq_iff (hlen : p.interests.length ≤ 65535) :
    (outcome p.round (answers ms)).2.length = p.interests.length ↔ p.AllRefused (answers ms) := by
  rw [outcome_snd_answers hlen, List.length_map, ← length_round,
    length_refusals_eq_iff (nodup_round hlen), AllRefused]

/-- What is reported of the subscriptions of a connection, up to a move and by it. -/
structure Tallies (p : Subscriber) (ms : List Move) (mv : Move) : Prop where
  /-- As long as an answer is missing nothing is reported. -/
  waits : p.IsOpen (ms ++ [mv]) → reportsOn (ms ++ [mv]) mv.after = []
  /-- When the last answer is read and everything has been refused, the connection is given up. -/
  givesUp : p.IsOpen ms → ¬p.IsOpen (ms ++ [mv]) → p.AllRefused (answers (ms ++ [mv])) →
    mv.after.offer? =
      some (.connectionLost "Protocol error: broker refused every subscription")
  /-- When the last answer is read and something has been granted, what has been refused is
  reported, in the order of the answers. -/
  reports : p.IsOpen ms → ¬p.IsOpen (ms ++ [mv]) → ¬p.AllRefused (answers (ms ++ [mv])) →
    mv.after.offer? =
      some (.subscribed ((refusals p.round (answers (ms ++ [mv]))).map Prod.snd))
  /-- From then on nothing is reported if everything has been refused, -/
  never : ¬p.IsOpen (ms ++ [mv]) → p.AllRefused (answers (ms ++ [mv])) →
    reportsOn (ms ++ [mv]) mv.after = []
  /-- and otherwise this one report is all that there is, unless it is given up to stop. -/
  once : ¬p.IsOpen (ms ++ [mv]) → ¬p.AllRefused (answers (ms ++ [mv])) →
    reportsOn (ms ++ [mv]) mv.after =
        [(refusals p.round (answers (ms ++ [mv]))).map Prod.snd] ∨
      mv.after.isStopped ∧ reportsOn (ms ++ [mv]) mv.after = []

/-- The move that reads the last answer goes by what all answers come to. -/
theorem exists_afterAnswer_of_last (hne : p.interests ≠ []) (hbook : mv.before.phase.Booked p ms)
    (h : p.step? mv.world mv.before mv.input = some (mv.after, mv.effects))
    (hopen : p.IsOpen ms) (hlast : ¬p.IsOpen (ms ++ [mv])) :
    ∃ s : Serving, s.pending = [] ∧ s.refused = (outcome p.round (answers (ms ++ [mv]))).2 ∧
      (p.afterAnswer s = .ok mv.after.phase ∨
        p.afterAnswer s = .error .allRefused ∧ mv.after.phase = .losing .allRefused) := by
  rw [isOpen_iff] at hopen hlast
  rw [not_not] at hlast
  have hchanged : outcome p.round (answers (ms ++ [mv])) ≠ outcome p.round (answers ms) := by
    intro heq
    rw [heq] at hlast
    exact hopen hlast
  -- on a new connection everything is open
  have hw : mv.isWelcome = false := by
    by_contra hw
    rw [Bool.not_eq_false] at hw
    rw [answers_concat_of_isWelcome hw] at hlast
    exact round_ne_nil hne hlast
  obtain ⟨a, ha⟩ : ∃ a, mv.answer? = some a := by
    rw [← Option.ne_none_iff_exists']
    intro hnone
    exact hchanged (by rw [answers_concat_of_answer?_eq_none hw hnone])
  have hx : outcome p.round (answers (ms ++ [mv])) =
      settle (outcome p.round (answers ms)) a :=
    outcome_answers_concat (received?_of_answer? ha)
  obtain ⟨interest, hlookup⟩ :
      ∃ interest, (outcome p.round (answers ms)).1.lookup a.packetId = some interest := by
    rw [← Option.ne_none_iff_exists']
    intro hnone
    exact hchanged (by rw [hx, settle_of_lookup_eq_none hnone])
  obtain ⟨s, hp, hr, hafter⟩ := exists_afterAnswer_of_answer? hbook h ha hlookup
  exact ⟨s, hp.trans hlast, hr, hafter⟩

/-- **When a subscriber reports, and what.**  It waits for the last answer, whatever comes in
before.  If everything has been refused then, it gives the connection up and reports nothing;
otherwise it reports the subscriptions whose first answers refuse them, in the order of these
answers, and makes no other report on the connection. -/
theorem Run.tallies {shutdown : Bool} (h : Run p (p.start shutdown) (ms ++ [mv]) st)
    (hne : p.interests ≠ []) (hlen : p.interests.length ≤ 65535) : p.Tallies ms mv := by
  obtain ⟨hrun, hstep, rfl⟩ := run_concat_iff.1 h
  have hbook := hrun.booked hlen
  obtain ⟨hfront, htold⟩ := h.told hne hlen
  have hdue : ¬p.IsOpen (ms ++ [mv]) → ¬p.AllRefused (answers (ms ++ [mv])) →
      p.due (ms ++ [mv]) = [(refusals p.round (answers (ms ++ [mv]))).map Prod.snd] := by
    intro hlast hsome
    rw [due, if_neg (by rwa [← isOpen_iff]), if_neg (by rwa [length_outcome_snd_eq_iff hlen]),
      outcome_snd_answers hlen]
  refine ⟨?_, ?_, ?_, ?_, ?_⟩
  · intro hopen
    rw [due, if_pos (isOpen_iff.1 hopen)] at hfront
    exact List.prefix_nil.1 hfront
  · intro hopen hlast hall
    obtain ⟨s, hp, hr, hafter⟩ := exists_afterAnswer_of_last hne hbook hstep hopen hlast
    have hcount : s.refused.length = p.interests.length := by
      rw [hr, length_outcome_snd_eq_iff hlen]
      exact hall
    have herror : p.afterAnswer s = .error .allRefused := by
      rw [afterAnswer, if_neg (by simp [hp]), if_pos ⟨hne, hcount⟩]
    rcases hafter with hok | ⟨-, hphase⟩
    · rw [herror] at hok
      cases hok
    · rw [State.offer?, hphase]
      rfl
  · intro hopen hlast hsome
    obtain ⟨s, hp, hr, hafter⟩ := exists_afterAnswer_of_last hne hbook hstep hopen hlast
    have hcount : s.refused.length ≠ p.interests.length := by
      rw [hr, ne_eq, length_outcome_snd_eq_iff hlen]
      exact hsome
    have hok : p.afterAnswer s = .ok (.reporting { s with refused := [] } s.refused) := by
      rw [afterAnswer, if_neg (by simp [hp]), if_neg fun hboth => hcount hboth.2]
    rcases hafter with hphase | ⟨herror, -⟩
    · have hphase' := Except.ok.inj (hphase.symm.trans hok)
      rw [State.offer?, hphase', ← outcome_snd_answers hlen, ← hr]
    · rw [hok] at herror
      cases herror
  · intro hlast hall
    rw [due, if_neg (by rwa [← isOpen_iff]), if_pos ((length_outcome_snd_eq_iff hlen).2 hall)]
      at hfront
    exact List.prefix_nil.1 hfront
  · intro hlast hsome
    rw [hdue hlast hsome] at hfront htold
    cases hstop : mv.after.isStopped with
    | false => exact .inl (htold hstop)
    | true =>
        rcases List.prefix_cons_iff.1 hfront with hnil | ⟨rest, hone, hrest⟩
        · exact .inr ⟨rfl, hnil⟩
        · rw [List.prefix_nil.1 hrest] at hone
          exact .inl hone

/-- A subscriber with three subscriptions. -/
def trio : Subscriber where
  settings := Relay.overlapLane.subscriber.settings
  interests := [⟨1, ⟨"trio/a", by decide +kernel⟩, .atLeastOnce⟩,
    ⟨2, ⟨"trio/b", by decide +kernel⟩, .atLeastOnce⟩,
    ⟨3, ⟨"trio/c", by decide +kernel⟩, .atLeastOnce⟩]
  relayId := none

/-- A broker accepts the connection, answers a packet that was never sent, refuses the third
subscription, grants it afterwards, refuses the first, and grants the second. -/
def undecided : Bytes :=
  [0x20, 3, 0, 0, 0] ++ [0x90, 4, 0, 9, 0, 0] ++ [0x90, 4, 0, 3, 0, 0x87] ++
    [0x90, 4, 0, 3, 0, 1] ++ [0x90, 4, 0, 1, 0, 0x80] ++ [0x90, 4, 0, 2, 0, 1]

/-- The third subscription and the first are reported, in this order, when the second is granted. -/
theorem tallies_trio :
    ∃ ms mv st, Run trio (trio.start false) (ms ++ [mv]) st ∧ trio.interests ≠ [] ∧
      trio.interests.length ≤ 65535 ∧ trio.IsOpen ms ∧ ¬trio.IsOpen (ms ++ [mv]) ∧
      trio.Tallies ms mv ∧ mv.after.offer? = some (.subscribed [3, 1]) := by
  have hfacts : (trio.play? (timed 0 [.taken, .link .opened, .link (.arrived undecided),
        .link .packet, .taken, .link .packet, .link .packet, .link .packet, .link .packet])
        [] (trio.start false)).bind (fun played =>
      (trio.step? ⟨0, false⟩ played.2 (.link .packet)).map fun next =>
        (decide (trio.IsOpen played.1),
          decide (trio.IsOpen
            (played.1 ++ [⟨⟨0, false⟩, played.2, .link .packet, next.1, next.2⟩])),
          decide (trio.AllRefused (answers
            (played.1 ++ [⟨⟨0, false⟩, played.2, .link .packet, next.1, next.2⟩]))),
          (refusals trio.round (answers
            (played.1 ++ [⟨⟨0, false⟩, played.2, .link .packet, next.1, next.2⟩]))).map
              Prod.snd)) =
      some (true, false, false, [3, 1]) := by decide +kernel
  obtain ⟨⟨ms, st⟩, hplay, hnext⟩ := Option.bind_eq_some_iff.1 hfacts
  dsimp only at hnext
  obtain ⟨⟨st', es⟩, hstep, hvalues⟩ := Option.map_eq_some_iff.1 hnext
  simp only [Prod.mk.injEq, decide_eq_true_eq, decide_eq_false_iff_not] at hvalues
  obtain ⟨hopen, hlast, hsome, hrefused⟩ := hvalues
  have hrun : Run trio (trio.start false)
      (ms ++ [⟨⟨0, false⟩, st, .link .packet, st', es⟩]) st' :=
    @Run.snoc _ _ _ ⟨_, _, _, _, _⟩ (Run.nil.of_play? hplay) hstep
  have hne : trio.interests ≠ [] := List.cons_ne_nil _ _
  have hlen : trio.interests.length ≤ 65535 := by decide
  have htallies := hrun.tallies hne hlen
  have hoffer := htallies.reports hopen hlast hsome
  rw [hrefused] at hoffer
  exact ⟨ms, _, st', hrun, hne, hlen, hopen, hlast, htallies, hoffer⟩

end Subscriber

end TopicBridge
