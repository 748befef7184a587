/-
**Copies of a message for filters that overlap.**

A broker may send a copy of a message for each filter that matches it, and marks each with the
identifiers of the filters.  The copy for the first filter that has been granted counts, and the
forwarder drops the others; which filters have been refused it learns from the subscriber, in a
report that follows the last answer.  A copy that comes in before that is judged by the report of an
earlier connection, and the copy that should count may be dropped.

Main definitions:

* `Subscriber.Grants` — the filters that a broker grants, as far as it has answered;
* `Registry.Counts` — the filter whose copy of a message should count.

Main results:

* `Registry.decide_eq_duplicate_iff` — when a copy is dropped;
* `Subscriber.mem_outcome_snd_iff_of_answered`, `Subscriber.Run.reported_eq` — after the last answer
  the last report names what the broker does not grant;
* `Lane.Run.refused_of_turn` — what the forwarder goes by when it is the turn of an event;
* `Relay.decide_copy_eq_duplicate_iff` — **the copy that should count is dropped if and only if an
  answer is missing and the last report makes another copy count.**
-/

import Mathlib.Tactic.ByContra
import TopicBridge.Proofs.Relay.LaneRun
import TopicBridge.Relay.Running

set_option autoImplicit false

namespace TopicBridge

/-! ### Copies that are dropped -/

namespace Registry

variable {g : Registry} {flow : Flow} {refused : List UInt32} {m : Message} {id : UInt32}

theorem isDuplicate_iff :
    g.isDuplicate flow refused m ↔ m.properties.subscriptionIdentifiers ≠ [] ∧
      ∃ owner, g.owner? flow m.topic refused = some owner ∧
        owner ∉ m.properties.subscriptionIdentifiers := by
  unfold isDuplicate
  cases g.owner? flow m.topic refused <;> simp

/-- A copy is dropped if the copy that counts is another one. -/
theorem decide_eq_duplicate_iff {now : WallTime} :
    g.decide flow refused m now = .duplicate ↔ g.isDuplicate flow refused m := by
  unfold decide
  split_ifs with hd
  · exact iff_of_true rfl hd
  · refine iff_of_false ?_ hd
    split
    · nofun
    · split
      · nofun
      · split <;> nofun

/-- The copy for a filter should count: of the filters that match and that the broker grants, it has
the lowest identifier. -/
structure Counts (g : Registry) (flow : Flow) (granted : UInt32 → Bool) (topic : String)
    (id : UInt32) : Prop where
  exists_interest : ∃ i ∈ g.interests flow, i.id = id ∧ i.filter.matches? topic ∧ granted id
  le : ∀ i ∈ g.interests flow, i.filter.matches? topic → granted i.id → id ≤ i.id

instance (g : Registry) (flow : Flow) (granted : UInt32 → Bool) (topic : String) (id : UInt32) :
    Decidable (g.Counts flow granted topic id) :=
  decidable_of_iff
    ((∃ i ∈ g.interests flow, i.id = id ∧ i.filter.matches? topic ∧ granted id) ∧
      ∀ i ∈ g.interests flow, i.filter.matches? topic → granted i.id → id ≤ i.id)
    ⟨fun h => ⟨h.1, h.2⟩, fun h => ⟨h.1, h.2⟩⟩

end Registry

/-! ### After the last answer -/

namespace Subscriber

variable {p : Subscriber} {ms : List Move} {granted : UInt32 → Bool}

/-- The filters that a broker grants on the current connection, as far as it has answered. -/
def Grants (p : Subscriber) (ms : List Move) (granted : UInt32 → Bool) : Prop :=
  ∀ e ∈ p.round, ∀ a ∈ (answers ms).find? fun a => a.packetId = e.1, a.isGrant = granted e.2

instance (p : Subscriber) (ms : List Move) (granted : UInt32 → Bool) :
    Decidable (p.Grants ms granted) :=
  decidable_of_iff (p.round.all fun e =>
      ((answers ms).find? fun a => a.packetId = e.1).all fun a => a.isGrant = granted e.2)
    (by simp [Grants, Option.all_eq_true])

/-- Some subscription of the current connection has no answer yet. -/
def IsOpen (p : Subscriber) (ms : List Move) : Prop :=
  ∃ e ∈ p.round, ∀ a ∈ answers ms, e.1 ≠ a.packetId

instance (p : Subscriber) (ms : List Move) : Decidable (p.IsOpen ms) :=
  decidable_of_iff (p.round.any fun e => (answers ms).all fun a => e.1 ≠ a.packetId)
    (by simp [IsOpen])

theorem isOpen_iff : p.IsOpen ms ↔ (outcome p.round (answers ms)).1 ≠ [] := by
  constructor
  · rintro ⟨e, he, hno⟩ hnil
    have hmem := mem_outcome_fst_iff.2 ⟨he, hno⟩
    rw [hnil] at hmem
    cases hmem
  · intro hne
    obtain ⟨e, he⟩ := List.exists_mem_of_ne_nil _ hne
    exact ⟨e, mem_outcome_fst_iff.1 he⟩

/-- After the last answer, what has been refused is what the broker does not grant. -/
theorem mem_outcome_snd_iff_of_answered (hlen : p.interests.length ≤ 65535)
    (hopen : ¬p.IsOpen ms) (hgrants : p.Grants ms granted) {i : Interest} (hi : i ∈ p.interests) :
    i.id ∈ (outcome p.round (answers ms)).2 ↔ granted i.id = false := by
  rw [mem_outcome_snd_iff (nodup_round hlen)]
  constructor
  · rintro ⟨e, he, hid, a, ha, hgrant⟩
    rw [← hid, ← hgrants e he a ha, hgrant]
  · intro hno
    have hmem : i.id ∈ p.round.map Prod.snd := by
      rw [round, map_snd_numbered]
      exact List.mem_map_of_mem hi
    obtain ⟨e, he, hid⟩ := List.mem_map.1 hmem
    -- its packet has an answer, since none is missing
    have hans : ∃ a, ((answers ms).find? fun a => a.packetId = e.1) = some a := by
      rw [← Option.isSome_iff_exists, List.find?_isSome]
      by_contra hnone
      refine hopen ⟨e, he, fun a ha heq => hnone ⟨a, ha, ?_⟩⟩
      simp [heq]
    obtain ⟨a, ha⟩ := hans
    exact ⟨e, he, hid, a, ha, by rw [hgrants e he a ha, hid, hno]⟩

theorem phase_of_handed? {mv : Move} {m : Message} (h : mv.handed? = some (.message m)) :
    ∃ s id, mv.before.phase = .delivering s m id := by
  unfold Move.handed? at h
  split at h
  · unfold State.offer? at h
    split at h <;> cases h
    rename_i s id hphase
    exact ⟨s, id, hphase⟩
  · cases h

/-- After the last answer the last report is that of the current connection. -/
theorem Run.reported_eq {shutdown : Bool} {st : State} {s : Serving} {m : Message}
    {id : Option UInt16} (h : Run p (p.start shutdown) ms st)
    (hlen : p.interests.length ≤ 65535) (hopen : ¬p.IsOpen ms)
    (hphase : st.phase = .delivering s m id) :
    reported (handed ms) = (outcome p.round (answers ms)).2 := by
  have hbook := h.booked hlen
  rw [hphase] at hbook
  rcases hbook with ⟨hne, -⟩ | ⟨-, -, -, htold⟩
  · exact absurd (isOpen_iff.2 hne) hopen
  · exact htold

end Subscriber

/-! ### Copies in a lane -/

namespace Lane

variable {l : Lane} {ms : List Move} {st : State} {past rest : List Subscriber.Move}
  {hand : Subscriber.Move}

/-- When it is the turn of an event, the forwarder takes those filters to be refused that were
reported before that event. -/
theorem Run.refused_of_turn (h : Run l l.start ms st) (hsplit : sources ms = past ++ hand :: rest)
    (hturn : (taken ms).length = (Subscriber.handed past).length) :
    st.middle.state.refused = Subscriber.reported (Subscriber.handed past) := by
  have hall := h.handed_eq
  rw [hsplit, Subscriber.handed, List.filterMap_append] at hall
  have hpast : Subscriber.handed past = taken ms := (List.append_inj hall hturn.symm).1
  rw [h.refused_eq, hpast]

end Lane

namespace Relay

variable {files : Files} {generated process : String} {c : Config} {r : Relay} {flow : Flow}

theorem build_of_new (h : Relay.new files generated c = .ok r) :
    Registry.build c = .ok r.registry := by
  unfold Relay.new at h
  obtain ⟨_, -, h⟩ := bind_eq_ok_iff.1 h
  obtain ⟨registry, hg, h⟩ := bind_eq_ok_iff.1 h
  obtain ⟨source, -, h⟩ := bind_eq_ok_iff.1 h
  obtain ⟨destination, -, h⟩ := bind_eq_ok_iff.1 h
  obtain rfl := Except.ok.inj h
  exact hg

/-- **The copy that should count is dropped if and only if an answer is missing**, or there are too
many filters for the packets of a connection, **and the last report makes a copy count that it is
not.**  The message `m` is handed over after `past`, it is the forwarder's turn to take it, and
`granted` are the filters that the broker grants on the connection. -/
theorem decide_copy_eq_duplicate_iff (hr : Relay.new files generated c = .ok r)
    {ms : List Lane.Move} {st : Lane.State} {past rest : List Subscriber.Move}
    {hand : Subscriber.Move} {m : Message} {granted : UInt32 → Bool} {id : UInt32}
    (h : Lane.Run (r.lane process flow) (r.lane process flow).start ms st)
    (hsplit : Lane.sources ms = past ++ hand :: rest) (hm : hand.handed? = some (.message m))
    (hturn : (Lane.taken ms).length = (Subscriber.handed past).length)
    (hgrants : (r.lane process flow).subscriber.Grants past granted)
    (hcounts : r.registry.Counts flow granted m.topic id)
    (hid : id ∈ m.properties.subscriptionIdentifiers) (now : WallTime) :
    r.registry.decide flow st.middle.state.refused m now = .duplicate ↔
      (65535 < (r.registry.interests flow).length ∨
        (r.lane process flow).subscriber.IsOpen past) ∧
      ∃ owner,
        r.registry.owner? flow m.topic (Subscriber.reported (Subscriber.handed past)) = some owner ∧
          owner ∉ m.properties.subscriptionIdentifiers := by
  rw [h.refused_of_turn hsplit hturn, Registry.decide_eq_duplicate_iff, Registry.isDuplicate_iff]
  constructor
  · -- with every answer there, the last report is what the broker does not grant
    rintro ⟨-, owner, howner, hno⟩
    refine ⟨?_, owner, howner, hno⟩
    by_contra hall
    obtain ⟨hlen, hopen⟩ := not_or.1 hall
    rw [Nat.not_lt] at hlen
    obtain ⟨s, k, hphase⟩ := Subscriber.phase_of_handed? hm
    have hrun := h.source
    rw [hsplit] at hrun
    have htold := Subscriber.Run.reported_eq hrun.split.1 hlen hopen hphase
    have hrefused {i : Interest} (hi : i ∈ r.registry.interests flow) :=
      Subscriber.mem_outcome_snd_iff_of_answered hlen hopen hgrants hi
    obtain ⟨i, hi, rfl, hmatch, hgrant⟩ := hcounts.exists_interest
    have hlt := Registry.pairwise_id_lt (build_of_new hr)
      (Nat.lt_of_le_of_lt hlen (by decide))
    -- so the copy that should count is the one that does
    have hme := Registry.owner?_eq_some hlt hi hmatch (by rw [hrefused hi]; simp [hgrant])
      fun j hj hmj hrj => hcounts.le j hj hmj (by rw [hrefused hj] at hrj; simpa using hrj)
    rw [htold, hme, Option.some.injEq] at howner
    exact hno (howner ▸ hid)
  · rintro ⟨-, owner, howner, hno⟩
    exact ⟨List.ne_nil_of_mem hid, owner, howner, hno⟩

/-- Settings with two rules whose filters overlap. -/
def overlapping : Config where
  source := { host := "a" }
  destination := { host := "b" }
  rules := [{ sourceTopic := "a/#", destTopic := "x/#" },
    { sourceTopic := "a/b", destTopic := "y/b" }]

/-- The rules from `a/#` to `x/#` and from `a/b` to `y/b`. -/
def overlappingRules : List Rule :=
  [{ id := "0"
     source := ⟨"a/#", by decide +kernel⟩
     dest := ⟨"x/#", by decide +kernel⟩
     direction := .oneWay
     filters := []
     qos := .atLeastOnce
     topicPrefix := none },
   { id := "1"
     source := ⟨"a/b", by decide +kernel⟩
     dest := ⟨"y/b", by decide +kernel⟩
     direction := .oneWay
     filters := []
     qos := .atLeastOnce
     topicPrefix := none }]

/-- The relay with these settings. -/
def overlap : Relay where
  config := overlapping
  id := "relay"
  registry := {
    rules := overlappingRules
    forward := [⟨1, ⟨"a/#", by decide +kernel⟩, .atLeastOnce⟩,
      ⟨2, ⟨"a/b", by decide +kernel⟩, .atLeastOnce⟩]
    reverse := [] }
  source := ⟨"a:1883", 30000, none⟩
  destination := ⟨"b:1883", 30000, none⟩

theorem new_overlapping : Relay.new (Files.ofList []) "relay" overlapping = .ok overlap := by rfl

/-- The copy of a message for the second filter. -/
def secondCopy : Message where
  topic := "a/b"
  payload := []
  qos := .atLeastOnce
  retain := false
  properties := { subscriptionIdentifiers := [2] }

/-- A broker accepts a connection, and sends an answer that refuses the first filter, an answer that
grants the second, and the copy for the second, in some order. -/
def accepting (order : Bytes → Bytes → Bytes → Bytes) : List Lane.Label :=
  [.handOver, .source .opened,
    .source (.arrived ([0x20, 3, 0, 0, 0] ++ order [0x90, 4, 0, 1, 0, 0x87] [0x90, 4, 0, 2, 0, 1]
      [0x32, 10, 0, 3, 0x61, 0x2f, 0x62, 0, 7, 2, 0x0b, 2])),
    .source .packet, .handOver]

/-- The forward lane of the relay. -/
def overlapLane : Lane := overlap.lane "1" .forward

/-- What some labels make of the forward lane. -/
def playOverlap? (labels : List Lane.Label) : Option (List Lane.Move × Lane.State) :=
  overlapLane.play? ⟨0, false⟩ .beforeEpoch labels [] overlapLane.start

theorem eq_take_append_cons_drop {α : Type} {l : List α} {k : Nat} {a : α} (h : l[k]? = some a) :
    l = l.take k ++ a :: l.drop (k + 1) := by
  obtain ⟨hlt, rfl⟩ := List.getElem?_eq_some_iff.1 h
  rw [← List.drop_eq_getElem_cons hlt, List.take_append_drop]

/-- The copy comes in after both answers, and is kept. -/
theorem decide_copy_ne_duplicate_of_answered :
    ∃ ms st past hand rest,
      Relay.new (Files.ofList []) "relay" overlapping = .ok overlap ∧
      Lane.Run overlapLane overlapLane.start ms st ∧ Lane.sources ms = past ++ hand :: rest ∧
      hand.handed? = some (.message secondCopy) ∧
      (Lane.taken ms).length = (Subscriber.handed past).length ∧
      overlapLane.subscriber.Grants past (· = 2) ∧
      overlap.registry.Counts .forward (· = 2) secondCopy.topic 2 ∧
      2 ∈ secondCopy.properties.subscriptionIdentifiers ∧
      overlap.registry.decide .forward st.middle.state.refused secondCopy .beforeEpoch ≠
        .duplicate := by
  have hfacts : (playOverlap? (accepting (fun refusal grant copy => refusal ++ grant ++ copy) ++
      [.source .packet, .source .packet, .handOver, .source .packet, .handOver,
        .forward (.event .connecting), .forward (.event (.connected false)),
        .forward (.event (.subscribed [1]))])).map (fun (ms, _) =>
          ((Lane.sources ms)[9]?.bind Subscriber.Move.handed?, (Lane.taken ms).length,
            (Subscriber.handed ((Lane.sources ms).take 9)).length,
            decide (overlapLane.subscriber.Grants ((Lane.sources ms).take 9) (· = 2)),
            decide (overlapLane.subscriber.IsOpen ((Lane.sources ms).take 9)))) =
      some (some (.message secondCopy), 3, 3, true, false) := by decide +kernel
  obtain ⟨⟨ms, st⟩, hplay, hms⟩ := Option.map_eq_some_iff.1 hfacts
  simp only [Prod.mk.injEq, decide_eq_true_eq, decide_eq_false_iff_not] at hms
  obtain ⟨hhand, htaken, hpast, hgrants, hopen⟩ := hms
  obtain ⟨hand, hget, hm⟩ := Option.bind_eq_some_iff.1 hhand
  have hrun := Lane.Run.nil.of_play? hplay
  have hsplit := eq_take_append_cons_drop hget
  have hturn := htaken.trans hpast.symm
  have hcounts : overlap.registry.Counts .forward (· = 2) secondCopy.topic 2 := by decide +kernel
  have hid : 2 ∈ secondCopy.properties.subscriptionIdentifiers := by decide
  refine ⟨ms, st, _, hand, _, new_overlapping, hrun, hsplit, hm, hturn, hgrants, hcounts, hid, ?_⟩
  rw [ne_eq, decide_copy_eq_duplicate_iff new_overlapping hrun hsplit hm hturn hgrants hcounts hid]
  rintro ⟨hlen | hmissing, -⟩
  · exact absurd hlen (by decide)
  · exact hopen hmissing

/-- The copy comes in between the two answers, and is dropped, although the broker has granted its
filter and refuses the other. -/
theorem decide_copy_eq_duplicate_of_unanswered :
    ∃ ms st past hand rest,
      Relay.new (Files.ofList []) "relay" overlapping = .ok overlap ∧
      Lane.Run overlapLane overlapLane.start ms st ∧ Lane.sources ms = past ++ hand :: rest ∧
      hand.handed? = some (.message secondCopy) ∧
      (Lane.taken ms).length = (Subscriber.handed past).length ∧
      ¬overlapLane.subscriber.IsOpen (Lane.sources ms) ∧
      overlapLane.subscriber.Grants (Lane.sources ms) (· = 2) ∧
      overlap.registry.Counts .forward (· = 2) secondCopy.topic 2 ∧
      2 ∈ secondCopy.properties.subscriptionIdentifiers ∧
      overlap.registry.decide .forward st.middle.state.refused secondCopy .beforeEpoch =
        .duplicate := by
  have hfacts : (playOverlap? (accepting (fun refusal grant copy => grant ++ copy ++ refusal) ++
      [.source .packet, .source .packet, .handOver, .source .packet,
        .forward (.event .connecting), .forward (.event (.connected false))])).map (fun (ms, st) =>
          ((Lane.sources ms)[7]?.bind Subscriber.Move.handed?, (Lane.taken ms).length,
            (Subscriber.handed ((Lane.sources ms).take 7)).length,
            decide (¬overlapLane.subscriber.IsOpen (Lane.sources ms) ∧
              overlapLane.subscriber.Grants (Lane.sources ms) (· = 2)),
            decide (overlap.registry.decide .forward st.middle.state.refused secondCopy
              .beforeEpoch = .duplicate))) =
      some (some (.message secondCopy), 2, 2, true, true) := by decide +kernel
  obtain ⟨⟨ms, st⟩, hplay, hms⟩ := Option.map_eq_some_iff.1 hfacts
  simp only [Prod.mk.injEq, decide_eq_true_eq] at hms
  obtain ⟨hhand, htaken, hpast, ⟨hopen, hgrants⟩, hdropped⟩ := hms
  obtain ⟨hand, hget, hm⟩ := Option.bind_eq_some_iff.1 hhand
  exact ⟨ms, st, _, hand, _, new_overlapping, Lane.Run.nil.of_play? hplay,
    eq_take_append_cons_drop hget, hm, htaken.trans hpast.symm, hopen, hgrants, by decide +kernel,
    by decide, hdropped⟩

end Relay

end TopicBridge
