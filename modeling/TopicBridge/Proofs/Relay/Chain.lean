/-
**No message passes through a relay twice.**

Relays may be chained, and chained in circles: what one publishes another may be subscribed to.  A
relay that prevents loops marks what it publishes, leaves the marks of others where they are, and
does not hand over what bears its own.  So the marks pile up on a message in the order of the relays
that it has passed through, whatever rules they have, and on its way no relay comes up twice, in
whichever flow.

A hop is told by what happens in a lane: a packet is read and offered, its message is handed over
and decided to be forwarded, and what is to be forwarded is taken and published.  Between two hops
there is a broker, which may change a message as it likes but for its user properties.

Main definitions:

* `Move.offered?` — the packet that is read and is to be handed over;
* `TopicBridge.Hop`, `Hop.Happens` — a message passes through a relay;
* `Hop.Leads` — what one hop publishes a broker delivers to another.

Main results:

* `Subscriber.isOwn_of_offered` — a message of the relay itself is not offered;
* `Hop.Happens.exists_publish` — what is published bears the marks of before and one more;
* `Hop.pairwise_precedes` — **the marks of a chain pile up in order**;
* `Hop.nodup_ids` — **no relay comes up twice in a chain**.
-/

import Mathlib.Data.List.Chain
import Mathlib.Data.List.Perm.Subperm
import TopicBridge.Proofs.Relay.Order
import TopicBridge.Proofs.Session.Limits
import TopicBridge.Relay.Running

set_option autoImplicit false

namespace TopicBridge

open Mqtt

/-! ### What a subscriber offers -/

namespace Subscriber

/-- The packet that is read and is to be handed over. -/
def Move.offered? (mv : Move) : Option Publish :=
  match mv.received?, mv.after.phase with
  | some (.publish m), .delivering _ _ _ => some m
  | _, _ => none

/-- A message of the relay itself is not offered. -/
theorem isOwn_of_offered {p : Subscriber} {mv : Move} {m : Publish}
    (h : p.Step mv.before.phase mv.input mv.after.phase mv.effects)
    (ho : mv.offered? = some m) : p.isOwn m = false := by
  unfold Move.offered? at ho
  split at ho
  · rename_i m' s out id hreceived hafter
    obtain rfl := Option.some.inj ho
    obtain ⟨hi, s₀, c, hbefore, hr⟩ := received?_eq_some_iff.1 hreceived
    rw [hi, hbefore, hafter] at h
    generalize mv.effects = es at h
    cases h with
    | away hb => cases hb
    | heard _ hne => exact absurd rfl hne
    | offered hr' _ ho =>
        cases hr.symm.trans hr'
        exact ho
    | answered hr' => cases hr.symm.trans hr'
  · cases ho

end Subscriber

/-! ### What a lane publishes -/

/-- A message keeps its user properties when it is forwarded. -/
theorem Registry.userProperties_of_decide {g : Registry} {flow : Flow} {refused : List UInt32}
    {m out : Message} {wall : WallTime}
    (h : (g.decide flow refused m wall).forwarded? = some out) :
    out.properties.userProperties = m.properties.userProperties := by
  unfold decide at h
  split_ifs at h
  · cases h
  · split at h
    · cases h
    · split at h
      · cases h
      · split at h
        · obtain rfl := Option.some.inj h
          rfl
        · cases h

namespace Lane

variable {l : Lane} {st₀ st : State} {ms : List Move} {out : Message}

/-- What is decided to be forwarded keeps its user properties. -/
theorem userProperties_of_judged {d : Message × Decision} (hd : d ∈ judged l ms)
    (hout : d.2.forwarded? = some out) :
    out.properties.userProperties = d.1.properties.userProperties := by
  obtain ⟨mv, -, hd⟩ := List.mem_flatMap.1 hd
  unfold Move.judgements at hd
  split at hd
  · obtain ⟨m, -, rfl⟩ := List.mem_map.1 hd
    exact Registry.userProperties_of_decide hout
  · cases hd

/-- What is published is the written form of what has been taken, with the marks of the relay. -/
theorem Journey.exists_publish {mv : Move} {bytes : Bytes} (h : Journey l st₀ ms st) (hmv : mv ∈ ms)
    (hout : mv.attempt? = some out) (hbytes : bytes ∈ Effect.publications mv.report.sink) :
    ∃ q : Publish, q.encode = .ok bytes ∧ q.properties.userProperties =
      out.properties.userProperties ++ l.publisher.marks := by
  obtain ⟨m, q, frame, hm, hq⟩ :=
    publishes_of_step (h.step_of_mem hmv) (List.ne_nil_of_mem hbytes)
  obtain rfl := Option.some.inj (hm.symm.trans hout)
  rw [hq.alone, List.mem_singleton] at hbytes
  obtain ⟨s, id, -, hpacket⟩ := hq.packet
  exact ⟨q, hbytes ▸ hq.written, by rw [hpacket]; rfl⟩

/-- The subscriber of a lane offers no message that bears its mark. -/
theorem Journey.isOwn_of_offered {m : Publish} (h : Journey l st₀ ms st)
    (hm : m ∈ (sources ms).filterMap Subscriber.Move.offered?) : l.subscriber.isOwn m = false := by
  obtain ⟨sv, hsv, hoffered⟩ := List.mem_filterMap.1 hm
  obtain ⟨mv, hmv, hsource⟩ := List.mem_filterMap.1 hsv
  rcases source_of_step (h.step_of_mem hmv) with ⟨sv', hsv', -, -, hstep⟩ | ⟨hnone, -⟩
  · obtain rfl := Option.some.inj (hsource.symm.trans hsv')
    exact Subscriber.isOwn_of_offered (Subscriber.step_of_step? hstep) hoffered
  · rw [hnone] at hsource
    cases hsource

end Lane

/-! ### Hops -/

/-- The passage of a message through a relay. -/
structure Hop where
  relay : Relay
  /-- The name of the process, on which the names of the clients depend. -/
  process : String
  flow : Flow
  /-- What the lane of the flow has done, and the state that it has come to. -/
  moves : List Lane.Move
  state : Lane.State
  /-- The packet that is read. -/
  inbound : Publish
  /-- The message as which it is forwarded. -/
  outgoing : Message
  /-- The frame that is written. -/
  outbound : Bytes

namespace Hop

/-- The lane of the flow. -/
def lane (h : Hop) : Lane := h.relay.lane h.process h.flow

/-- The mark of the relay. -/
def mark (h : Hop) : String × String := (Message.originKey, h.relay.id)

/-- The user properties with which the message comes in. -/
def marksBefore (h : Hop) : List (String × String) := h.inbound.properties.userProperties

/-- The message passes through the relay, which prevents loops: it is read and offered, handed over,
decided to be forwarded, and what is to be forwarded is taken and published. -/
structure Happens (h : Hop) : Prop where
  prevents : h.relay.config.relay.loopPrevention = true
  journey : h.lane.Journey h.lane.start h.moves h.state
  offered : h.inbound ∈ (Lane.sources h.moves).filterMap Subscriber.Move.offered?
  handed : .message (.ofPublish h.inbound) ∈ Subscriber.handed (Lane.sources h.moves)
  decided : ∃ d ∈ Lane.judged h.lane h.moves,
    d.1 = .ofPublish h.inbound ∧ d.2.forwarded? = some h.outgoing
  sent : ∃ mv ∈ h.moves, mv.attempt? = some h.outgoing ∧
    h.outbound ∈ Effect.publications mv.report.sink

/-- The relay prevents loops, and the message gets through in the course of the moves. -/
def isComplete (h : Hop) : Bool :=
  h.relay.config.relay.loopPrevention &&
    ((Lane.sources h.moves).filterMap Subscriber.Move.offered?).contains h.inbound &&
    (Subscriber.handed (Lane.sources h.moves)).contains (.message (.ofPublish h.inbound)) &&
    (Lane.judged h.lane h.moves).any (fun d =>
      d.1 == .ofPublish h.inbound && d.2.forwarded? == some h.outgoing) &&
    h.moves.any fun mv =>
      mv.attempt? == some h.outgoing && (Effect.publications mv.report.sink).contains h.outbound

theorem happens_of_isComplete {h : Hop}
    (hjourney : h.lane.Journey h.lane.start h.moves h.state) (hcomplete : h.isComplete = true) :
    h.Happens := by
  simp only [isComplete, Bool.and_eq_true, List.contains_iff_mem, List.any_eq_true, beq_iff_eq]
    at hcomplete
  obtain ⟨⟨⟨⟨hprevents, hoffered⟩, hhanded⟩, hdecided⟩, hsent⟩ := hcomplete
  exact ⟨hprevents, hjourney, hoffered, hhanded, hdecided, hsent⟩

/-- What one hop publishes a broker delivers to another: it reads the frame, and whatever else it
changes, the packet that comes in has the same user properties. -/
def Leads (a b : Hop) : Prop :=
  ∃ (d : Decoder) (q : Publish), d.decode a.outbound = .ok (some (.publish q, [])) ∧
    b.marksBefore = q.properties.userProperties

variable {a b : Hop} {chain : List Hop}

theorem relayId_lane (h : Happens a) :
    a.lane.subscriber.relayId = some a.relay.id ∧ a.lane.publisher.relayId = some a.relay.id := by
  simp [lane, Relay.lane, h.prevents]

/-- A message that passes through a relay does not bear its mark yet. -/
theorem Happens.mark_notMem (h : a.Happens) : a.mark ∉ a.marksBefore := by
  have hown := h.journey.isOwn_of_offered h.offered
  rw [Subscriber.isOwn, (relayId_lane h).1] at hown
  simpa [mark, marksBefore] using hown

/-- What a relay publishes bears the marks of before, and one more. -/
theorem Happens.exists_publish (h : a.Happens) : ∃ q : Publish, q.encode = .ok a.outbound ∧
    q.properties.userProperties = a.marksBefore ++ [a.mark] := by
  obtain ⟨d, hd, hm, hout⟩ := h.decided
  obtain ⟨mv, hmv, hattempt, hsent⟩ := h.sent
  obtain ⟨q, hencode, hmarks⟩ := h.journey.exists_publish hmv hattempt hsent
  refine ⟨q, hencode, ?_⟩
  rw [hmarks, Lane.userProperties_of_judged hd hout, hm, Publisher.marks, (relayId_lane h).2]
  rfl

/-- The marks of a hop are those of the hop before, and the mark of that hop. -/
theorem Happens.marksBefore_eq (h : a.Happens) (hab : a.Leads b) :
    b.marksBefore = a.marksBefore ++ [a.mark] := by
  obtain ⟨q, hencode, hmarks⟩ := h.exists_publish
  obtain ⟨d, q', hdecode, hb⟩ := hab
  rw [hb, Publish.eq_of_decode_encode hencode hdecode, hmarks]

/-! ### Chains -/

/-- The marks that a message has when it has passed through a relay come first among those with
which it comes to another. -/
def Precedes (a b : Hop) : Prop := a.marksBefore ++ [a.mark] <+: b.marksBefore

instance : IsTrans Hop Precedes where
  trans _ b _ hab hbc := hab.trans ((List.prefix_append b.marksBefore [b.mark]).trans hbc)

/-- **The marks of a chain pile up in order.** -/
theorem pairwise_precedes (hchain : chain.IsChain Leads) (h : ∀ a ∈ chain, a.Happens) :
    chain.Pairwise Precedes := by
  refine List.isChain_iff_pairwise.1 (hchain.imp_of_mem_imp fun a b ha _ hab => ?_)
  have hmarks := (h a ha).marksBefore_eq hab
  exact ⟨[], by rw [List.append_nil, hmarks]⟩

/-- The relays of any two hops of a chain have different names. -/
theorem pairwise_id_ne (hchain : chain.IsChain Leads) (h : ∀ a ∈ chain, a.Happens) :
    chain.Pairwise fun a b => a.relay.id ≠ b.relay.id := by
  refine (pairwise_precedes hchain h).imp_of_mem fun {a b} _ hb hab hid => ?_
  -- the later relay would have read its own mark
  have hmem : a.mark ∈ b.marksBefore := hab.subset (by simp)
  rw [mark, hid] at hmem
  exact (h b hb).mark_notMem hmem

/-- A chain has at most as many hops as there are relays. -/
theorem length_le_of_isChain (hchain : chain.IsChain Leads) (h : ∀ a ∈ chain, a.Happens)
    {ids : List String} (hids : ∀ a ∈ chain, a.relay.id ∈ ids) : chain.length ≤ ids.length := by
  have hsub : (chain.map fun a => a.relay.id) ⊆ ids := by
    intro id hid
    obtain ⟨a, ha, rfl⟩ := List.mem_map.1 hid
    exact hids a ha
  have hnodup : (chain.map fun a => a.relay.id).Nodup :=
    List.pairwise_map.2 (pairwise_id_ne hchain h)
  simpa using (hnodup.subperm hsub).length_le

/-- **No relay comes up twice in a chain**, in whichever flow. -/
theorem nodup_ids (hchain : chain.IsChain Leads) (h : ∀ a ∈ chain, a.Happens) :
    (chain.map fun a => a.relay.id).Nodup :=
  List.pairwise_map.2 (pairwise_id_ne hchain h)

/-! ### Two bridges -/

/-- Settings that relay the topics `a/#` unchanged. -/
def bridging (id : String) : Config where
  source := { host := "a" }
  destination := { host := "b" }
  rules := [{ sourceTopic := "a/#", destTopic := "a/#" }]
  relay := { id := some id }

/-- A message that bears the marks of some relays, as it is on the stream. -/
def marked (ids : List String) (subscriptions : List UInt32) : Publish where
  dup := false
  qos := .atLeastOnce
  retain := false
  topic := "a/1"
  packetId := some 1
  payload := []
  properties := {
    subscriptionIdentifiers := subscriptions
    userProperties := ids.map (Prod.mk Message.originKey) }

/-- The bytes that a packet is written as. -/
def frame (q : Publish) : Bytes := q.encode.toOption.getD []

/-- A message that bears the marks of some relays passes through a lane: the brokers accept both
connections and grant the filter, and the message is read, taken and published. -/
def passing (ids : List String) : List Lane.Label :=
  [.sink .timeUp, .sink .opened, .sink (.arrived [0x20, 3, 0, 0, 0]), .sink .packet,
    .handOver, .source .opened,
    .source (.arrived ([0x20, 3, 0, 0, 0] ++ [0x90, 4, 0, 1, 0, 1] ++ frame (marked ids [1]))),
    .source .packet, .handOver, .source .packet, .handOver, .source .packet, .handOver,
    .forward (.event .connecting), .forward (.event (.connected false)),
    .forward (.event (.subscribed [])), .forward (.event (.message (.ofPublish (marked ids [1])))),
    .take]

/-- The passage of the message through the bridge with a given name. -/
def crossing (id : String) (ids : List String) : Option Hop := do
  let relay ← (Relay.new (Files.ofList []) "" (bridging id)).toOption
  let l := relay.lane "1" .forward
  let (moves, state) ← l.play? ⟨0, false⟩ .beforeEpoch (passing ids) [] l.start
  return {
    relay
    process := "1"
    flow := .forward
    moves
    state
    inbound := marked ids [1]
    outgoing := Registry.redirect (.ofPublish (marked ids [1])) "a/1"
    outbound := frame (marked (ids ++ [id]) []) }

theorem exists_happens {id : String} {ids : List String}
    (h : (crossing id ids).map isComplete = some true) :
    ∃ a : Hop, a.Happens ∧ Relay.new (Files.ofList []) "" (bridging id) = .ok a.relay ∧
      a.inbound = marked ids [1] ∧ a.outbound = frame (marked (ids ++ [id]) []) := by
  obtain ⟨a, ha, hcomplete⟩ := Option.map_eq_some_iff.1 h
  obtain ⟨relay, hrelay, hrest⟩ := Option.bind_eq_some_iff.1 ha
  obtain ⟨⟨moves, state⟩, hplay, hhop⟩ := Option.bind_eq_some_iff.1 hrest
  obtain rfl := Option.some.inj hhop
  -- `rfl` would evaluate the frame
  refine ⟨_, happens_of_isComplete ?_ hcomplete, toOption_eq_some_iff.1 hrelay, by dsimp only,
    by dsimp only⟩
  exact (Lane.Run.nil.of_play? hplay).journey

/-- A message passes through one bridge and then through another. -/
theorem nodup_ids_bridges :
    ∃ a b : Hop, [a, b].IsChain Leads ∧ (∀ c ∈ [a, b], c.Happens) ∧
      Relay.new (Files.ofList []) "" (bridging "east") = .ok a.relay ∧
      Relay.new (Files.ofList []) "" (bridging "west") = .ok b.relay ∧
      ([a, b].map fun a => a.relay.id).Nodup := by
  obtain ⟨a, ha, heast, -, hout⟩ := @exists_happens "east" [] (by decide +kernel)
  obtain ⟨b, hb, hwest, hin, -⟩ := @exists_happens "west" ["east"] (by decide +kernel)
  have hdecode : (Decoder.decode default (frame (marked ["east"] []))).toOption =
      some (some (.publish (marked ["east"] []), [])) := by decide +kernel
  have hleads : a.Leads b := by
    refine ⟨default, marked ["east"] [], ?_, by rw [marksBefore, hin]; rfl⟩
    rw [hout]
    exact toOption_eq_some_iff.1 hdecode
  have hchain : [a, b].IsChain Leads := .cons_cons hleads (.singleton _)
  have hall : ∀ c ∈ [a, b], c.Happens := by simp [ha, hb]
  exact ⟨a, b, hchain, hall, heast, hwest, nodup_ids hchain hall⟩

end Hop

end TopicBridge
