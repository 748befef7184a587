/-
**The exchange of a message with its broker.**

A message that asks for an acknowledgement counts as forwarded when the last packet of its exchange
is read: PUBACK at the quality of service 1, and PUBCOMP at the quality of service 2, with its
identifier and with success.  No other packet does that.  At the quality of service 2 the broker is
to say PUBREC before, and to be told PUBREL; each PUBREC is answered so at once, but the publisher
does not remember it, and PUBCOMP alone is enough.

Main definitions:

* `InFlight.Completes`, `InFlight.Receives` — the packets that complete an exchange, and those that
  are answered by PUBREL;
* `Publisher.Move.Forwards` — a message is counted as forwarded;
* `Publisher.Awaits` — what has become of a message in flight since it has been published;
* `Publisher.Honest` — what a run owes to the messages that it counts as forwarded.

Main results:

* `InFlight.completes_iff` — the packets that complete an exchange, by what they mean for it;
* `Run.exists_awaits` — a message in flight has been published, and its exchange is not complete;
* `Run.honest` — **a run is honest**;
* `forwards_unreceived` — a message that counts as forwarded although the broker has not said PUBREC.
-/

import TopicBridge.Proofs.Session.Limits

set_option autoImplicit false

namespace TopicBridge

open Mqtt

namespace Publisher

/-! ### The packets of an exchange -/

/-- The packets that complete the exchange of a message in flight. -/
inductive InFlight.Completes (f : InFlight) : Packet → Prop where
  | acknowledged {a : Ack} (hq : f.qos = .atLeastOnce) (hid : a.packetId = f.id)
      (hc : a.reasonCode.isSuccess) : Completes f (.pubAck a)
  | completed {a : Ack} (hq : f.qos = .exactlyOnce) (hid : a.packetId = f.id)
      (hc : a.reasonCode.isSuccess) : Completes f (.pubComp a)

/-- The packets that say that the broker has the message and awaits its release. -/
inductive InFlight.Receives (f : InFlight) : Packet → Prop where
  | received {a : Ack} (hq : f.qos = .exactlyOnce) (hid : a.packetId = f.id)
      (hc : a.reasonCode.isSuccess) : Receives f (.pubRec a)

/-- The frame that tells the broker to release the message. -/
def InFlight.release (f : InFlight) : Bytes := Ack.encode 0x62 ⟨f.id, .success⟩

variable {p : Publisher} {w : Surroundings} {a b : Phase} {i : Input} {es : List Effect}
  {mv : Move} {ms : List Move} {s : Pumping} {f : InFlight} {packet : Packet} {st st' : State}

theorem InFlight.completes_iff :
    f.Completes packet ↔ ∃ code, f.progress packet = .settled code ∧ code.isSuccess := by
  constructor
  · intro h
    cases h with
    | acknowledged hq hid hc | completed hq hid hc =>
        exact ⟨_, if_pos ⟨hq, hid⟩, hc⟩
  · rintro ⟨code, hp, hc⟩
    unfold InFlight.progress at hp
    split at hp
    · split_ifs at hp with hf
      cases hp
      exact .acknowledged hf.1 hf.2 hc
    · split_ifs at hp with hf hfail
      cases hp
      exact absurd hc hfail
    · split_ifs at hp with hf
      cases hp
      exact .completed hf.1 hf.2 hc
    · cases hp
    · cases hp

theorem InFlight.receives_iff : f.Receives packet ↔ f.progress packet = .received := by
  constructor
  · intro h
    cases h with
    | received hq hid hc =>
        simp [InFlight.progress, hq, hid, hc]
  · intro hp
    unfold InFlight.progress at hp
    split at hp
    · split_ifs at hp
    · split_ifs at hp with hf hc
      exact .received hf.1 hf.2 hc
    · split_ifs at hp
    · cases hp
    · cases hp

/-! ### Steps -/

theorem received?_eq_some_iff : mv.received? = some packet ↔ mv.input = .link .packet ∧
    ∃ c c', mv.before.phase.connection? = some c ∧ c.receive = .ok (some (packet, c')) := by
  constructor
  · intro h
    unfold Move.received? at h
    split_ifs at h with hi
    obtain ⟨c, hc, hr⟩ := Option.bind_eq_some_iff.1 h
    obtain ⟨⟨packet', c'⟩, hfound, rfl⟩ := Option.map_eq_some_iff.1 hr
    exact ⟨hi, c, c', hc, toOption_eq_some_iff.1 (Option.join_eq_some_iff.1 hfound)⟩
  · rintro ⟨hi, c, c', hc, hr⟩
    exact received?_of_receive hi hc hr

/-- A message is counted as forwarded. -/
def Move.Forwards (mv : Move) : Prop :=
  ∃ flow latency, Effect.count (.forwarded flow latency) ∈ mv.effects

/-- A message is published: the frame, and that it is what awaits its acknowledgement now. -/
structure Move.Publishes (mv : Move) (f : InFlight) : Prop where
  message : ∃ m, mv.input = .next m
  frame : ∃ (q : Publish) (bytes : Bytes), q.encode = .ok bytes ∧ q.packetId = some f.id ∧
    q.qos = f.qos ∧ mv.effects = [.write bytes]
  awaited : mv.after.phase.inFlight? = some f

/-- A packet is read that does not complete the exchange, or something else happens that leaves the
message in flight. -/
structure Move.Waits (mv : Move) (f : InFlight) : Prop where
  before : mv.before.phase.inFlight? = some f
  after : mv.after.phase.inFlight? = some f
  incomplete : ∀ packet, mv.received? = some packet → ¬f.Completes packet
  /-- PUBREL is written in answer to PUBREC, at once, and nothing else is done. -/
  released : ∀ packet, mv.received? = some packet → f.Receives packet →
    mv.effects = [.write f.release]
  quiet : (∀ packet, mv.received? = some packet → ¬f.Receives packet) → mv.effects = []

/-- A message that gets in flight has been published in this step. -/
theorem publishes_of_step (h : p.Step mv.world mv.before.phase mv.input mv.after.phase mv.effects)
    (ha : mv.before.phase.inFlight? = none) (hb : mv.after.phase.inFlight? = some f) :
    mv.Publishes f ∧ f.qos ≠ .atMostOnce := by
  obtain ⟨w, drained, ⟨a, before⟩, i, ⟨b, after⟩, es⟩ := mv
  change p.Step w a i b es at h
  change a.inFlight? = none at ha
  change b.inFlight? = some f at hb
  cases h with
  | sent hf hq hs _ =>
      obtain rfl := Option.some.inj hb
      refine ⟨⟨⟨_, rfl⟩, ⟨_, _, hs, ?_, ?_, rfl⟩, rfl⟩, hq⟩
      · subst hf
        exact if_neg hq
      · subst hf
        rfl
  | away _ hb' | unwelcome hb' | lost hb' | unsent hb' | failed hb' =>
      rw [inFlight?_of_isAway hb'] at hb
      cases hb
  | heard _ _ hb' =>
      rw [inFlight?_of_update? hb', ha] at hb
      cases hb
  | opened | accepted | ignored | pinged | left | oversized | published | settled => cases hb
  | waited | released => cases ha

/-- A packet is read that leaves the message in flight. -/
theorem waits_of_received? (ha : mv.before.phase.inFlight? = some f)
    (hb : mv.after.phase.inFlight? = some f) (hr : mv.received? = some packet)
    (hp : f.progress packet = .unchanged ∧ mv.effects = [] ∨
      f.progress packet = .received ∧ mv.effects = [.write f.release]) : mv.Waits f := by
  have hsame : ∀ packet', mv.received? = some packet' → packet' = packet := by
    intro packet' h
    exact Option.some.inj (h.symm.trans hr)
  refine ⟨ha, hb, ?_, ?_, ?_⟩
  · intro packet' h hc
    rw [hsame packet' h, InFlight.completes_iff] at hc
    obtain ⟨code, hsettled, -⟩ := hc
    rcases hp with ⟨hp, -⟩ | ⟨hp, -⟩ <;> simp [hp] at hsettled
  · intro packet' h hreceives
    rw [hsame packet' h, InFlight.receives_iff] at hreceives
    rcases hp with ⟨hp, -⟩ | ⟨-, hes⟩
    · simp [hp] at hreceives
    · exact hes
  · intro h
    have hnot := h packet hr
    rw [InFlight.receives_iff] at hnot
    rcases hp with ⟨-, hes⟩ | ⟨hp, -⟩
    · exact hes
    · exact absurd hp hnot

/-- A message that stays in flight waits. -/
theorem waits_of_step (h : p.Step mv.world mv.before.phase mv.input mv.after.phase mv.effects)
    {f' : InFlight} (ha : mv.before.phase.inFlight? = some f)
    (hb : mv.after.phase.inFlight? = some f') : f' = f ∧ mv.Waits f := by
  obtain ⟨w, drained, ⟨a, before⟩, i, ⟨b, after⟩, es⟩ := mv
  change p.Step w a i b es at h
  change a.inFlight? = some f at ha
  change b.inFlight? = some f' at hb
  cases h with
  | @heard _ _ i _ _ hi hb' =>
      have hsame := (inFlight?_of_update? hb').trans ha
      obtain rfl := Option.some.inj (hb.symm.trans hsame)
      have hnone : Move.received? ⟨w, drained, ⟨a, before⟩, .link i, ⟨b, after⟩, []⟩ = none :=
        if_neg fun h => hi (Input.link.inj h)
      constructor
      · rfl
      · exact ⟨ha, hb, by simp [hnone], by simp [hnone], fun _ => rfl⟩
  | waited hr hp =>
      obtain rfl := Option.some.inj ha
      obtain rfl := Option.some.inj hb
      exact ⟨rfl, waits_of_received? rfl rfl (received?_of_receive rfl rfl hr) (.inl ⟨hp, rfl⟩)⟩
  | released hr hp hs =>
      obtain rfl := Option.some.inj ha
      obtain rfl := Option.some.inj hb
      cases Connection.encode_of_send hs
      exact ⟨rfl, waits_of_received? rfl rfl (received?_of_receive rfl rfl hr) (.inr ⟨hp, rfl⟩)⟩
  | away _ hb' | unwelcome hb' | lost hb' | unsent hb' | failed hb' =>
      rw [inFlight?_of_isAway hb'] at hb
      cases hb
  | opened | accepted | ignored | pinged | left | oversized | published | sent => cases ha
  | settled => cases hb

/-- What is done when a final acknowledgement is read. -/
theorem effects_of_settled {drained : Bool} {c : Connection} {code : ReasonCode}
    (hs : st.phase = .settling s f) (hr : s.connection.receive = .ok (some (packet, c)))
    (hp : f.progress packet = .settled code)
    (h : p.step? w drained st (.link .packet) = some (st', es)) :
    es = [if code.isSuccess then p.forwarded (w.now - f.since) else p.failed] := by
  simp only [step?, link?, hs, ackPacket?, hr, hp] at h
  exact (Prod.mk.inj (Option.some.inj h)).2.symm

/-- A message in flight counts as forwarded if its exchange is completed, and only then. -/
theorem forwards_iff_of_step?
    (h : p.step? mv.world mv.drained mv.before mv.input = some (mv.after, mv.effects))
    (hf : mv.before.phase.inFlight? = some f) :
    mv.Forwards ↔ ∃ packet, mv.received? = some packet ∧ f.Completes packet := by
  have hstep := step_of_step? h
  constructor
  · rintro ⟨flow, latency, hmem⟩
    obtain ⟨w, drained, ⟨a, before⟩, i, ⟨b, after⟩, es⟩ := mv
    change p.Step w a i b es at hstep
    change a.inFlight? = some f at hf
    change Effect.count (.forwarded flow latency) ∈ es at hmem
    cases hstep with
    | settled hr hp =>
        obtain rfl := Option.some.inj hf
        refine ⟨_, received?_of_receive rfl rfl hr, InFlight.completes_iff.2 ⟨_, hp, ?_⟩⟩
        by_contra hfail
        simp [hfail, Publisher.failed] at hmem
    | failed => simp [Publisher.failed, hangingUp] at hmem
    | heard | waited => cases hmem
    | released => simp at hmem
    | away ha =>
        rw [inFlight?_of_isAway ha] at hf
        cases hf
    | opened | unwelcome | accepted | ignored | pinged | lost | left | oversized | unsent
    | published | sent => cases hf
  · rintro ⟨packet, hreceived, hcompletes⟩
    obtain ⟨hi, c, c', hc, hr⟩ := received?_eq_some_iff.1 hreceived
    obtain ⟨code, hp, hsuccess⟩ := InFlight.completes_iff.1 hcompletes
    obtain ⟨s, hs⟩ : ∃ s, mv.before.phase = .settling s f := by
      generalize mv.before.phase = a at hf
      cases a with
      | settling s f' =>
          obtain rfl := Option.some.inj hf
          exact ⟨s, rfl⟩
      | _ => cases hf
    rw [hs] at hc
    obtain rfl := Option.some.inj hc
    rw [hi] at h
    have hes := effects_of_settled hs hr hp h
    rw [if_pos hsuccess] at hes
    exact ⟨_, _, by rw [hes, Publisher.forwarded]; exact List.mem_singleton_self _⟩

/-- What counts as forwarded without having been in flight asks for no acknowledgement. -/
theorem unacknowledged_of_forwards
    (h : p.Step mv.world mv.before.phase mv.input mv.after.phase mv.effects)
    (hf : mv.before.phase.inFlight? = none) (hm : mv.Forwards) :
    ∃ s m, mv.before.phase = .pumping s ∧ mv.input = .next m ∧
      min m.qos s.connection.limits.maximumQoS = .atMostOnce := by
  obtain ⟨flow, latency, hmem⟩ := hm
  obtain ⟨w, drained, ⟨a, before⟩, i, ⟨b, after⟩, es⟩ := mv
  change p.Step w a i b es at h
  change a.inFlight? = none at hf
  change Effect.count (.forwarded flow latency) ∈ es at hmem
  cases h with
  | published hq => exact ⟨_, _, rfl, rfl, hq⟩
  | away _ _ hes => simpa using hes _ hmem
  | left => simp at hmem
  | oversized | unsent => simp [Publisher.failed, hangingUp] at hmem
  | opened | heard | unwelcome | accepted | ignored | pinged | lost | sent =>
      simp [hangingUp] at hmem
  | waited | released | settled | failed => cases hf

/-! ### Runs -/

/-- What has become of a message in flight: it has been published, and has waited ever since. -/
structure Awaits (f : InFlight) (sent : Move) (since : List Move) : Prop where
  published : sent.Publishes f
  /-- It asks for an acknowledgement. -/
  qos_ne : f.qos ≠ .atMostOnce
  waits : ∀ mv ∈ since, mv.Waits f

/-- The broker has been told to release the message if and only if it has said PUBREC. -/
theorem Awaits.released_iff {sent : Move} {since : List Move} (h : Awaits f sent since) :
    (∃ mv ∈ since, f.release ∈ Effect.written mv.effects) ↔
      ∃ mv ∈ since, ∃ packet, mv.received? = some packet ∧ f.Receives packet := by
  constructor
  · rintro ⟨mv, hmv, hwrite⟩
    by_contra hnone
    have hquiet := (h.waits mv hmv).quiet fun packet hreceived hreceives =>
      hnone ⟨mv, hmv, packet, hreceived, hreceives⟩
    simp [hquiet, Effect.written] at hwrite
  · rintro ⟨mv, hmv, packet, hreceived, hreceives⟩
    refine ⟨mv, hmv, ?_⟩
    rw [(h.waits mv hmv).released packet hreceived hreceives]
    exact List.mem_singleton_self _

/-- A message in flight has been published in the run, and its exchange is not complete. -/
theorem Run.exists_awaits (h : Run p p.start ms st) (hf : st.phase.inFlight? = some f) :
    ∃ before sent since, ms = before ++ sent :: since ∧ Awaits f sent since := by
  let Inv (ms : List Move) (a : Phase) : Prop := ∀ f, a.inFlight? = some f →
    ∃ before sent since, ms = before ++ sent :: since ∧ Awaits f sent since
  have hinv : Inv ms st.phase := by
    refine h.induction Inv ?start ?step
    case start =>
      rintro f ⟨⟩
    case step =>
      intro ms mv ih hstep f hf
      cases hbefore : mv.before.phase.inFlight? with
      | none =>
          obtain ⟨hpublishes, hq⟩ := publishes_of_step hstep hbefore hf
          exact ⟨ms, mv, [], rfl, hpublishes, hq, by simp⟩
      | some f₀ =>
          -- the message that was in flight before is in flight still
          obtain ⟨rfl, hwaits⟩ := waits_of_step hstep hbefore hf
          obtain ⟨before, sent, since, rfl, hpublished, hq, hsince⟩ := ih f hbefore
          refine ⟨before, sent, since ++ [mv], by simp, hpublished, hq, ?_⟩
          simpa [or_imp, forall_and] using ⟨hsince, hwaits⟩
  exact hinv f hf

/-- What a run owes to the messages that it counts as forwarded. -/
structure Honest (ms : List Move) : Prop where
  /-- A message in flight has been published, and its exchange has not been completed since; the
  broker has been told to release it if and only if it has said PUBREC. -/
  awaits : ∀ (front : List Move) (mv : Move) (back : List Move) (f : InFlight),
    ms = front ++ mv :: back → mv.before.phase.inFlight? = some f →
    ∃ (before : List Move) (sent : Move) (since : List Move),
      front = before ++ sent :: since ∧ Awaits f sent since ∧
        ((∃ w ∈ since, f.release ∈ Effect.written w.effects) ↔
          ∃ w ∈ since, ∃ packet, w.received? = some packet ∧ f.Receives packet)
  /-- It counts as forwarded when the packet is read that completes the exchange. -/
  completed : ∀ (front : List Move) (mv : Move) (back : List Move) (f : InFlight),
    ms = front ++ mv :: back → mv.before.phase.inFlight? = some f →
    (mv.Forwards ↔ ∃ packet, mv.received? = some packet ∧ f.Completes packet)
  /-- Any other message that counts as forwarded asks for no acknowledgement. -/
  unacknowledged : ∀ (front : List Move) (mv : Move) (back : List Move),
    ms = front ++ mv :: back → mv.before.phase.inFlight? = none → mv.Forwards →
    ∃ (s : Pumping) (m : Message), mv.before.phase = .pumping s ∧ mv.input = .next m ∧
      min m.qos s.connection.limits.maximumQoS = .atMostOnce

/-- **A run is honest.** -/
theorem Run.honest (h : Run p p.start ms st) : Honest ms where
  awaits := by
    rintro front mv back f rfl hf
    obtain ⟨before, sent, since, hfront, hawaits⟩ := h.split.1.exists_awaits hf
    exact ⟨before, sent, since, hfront, hawaits, hawaits.released_iff⟩
  completed := by
    rintro front mv back f rfl hf
    exact forwards_iff_of_step? h.split.2 hf
  unacknowledged := by
    rintro front mv back rfl hf hm
    exact unacknowledged_of_forwards (step_of_step? h.split.2) hf hm

/-! ### PUBCOMP without PUBREC -/

/-- A broker accepts the connection, and a message is published with the quality of service 2. -/
def exactScript : List (Millis × Input) :=
  [.link .timeUp, .link .opened, .link (.arrived [0x20, 3, 0, 0, 0]), .link .packet,
    .next (parcel .exactlyOnce 1)].map (0, ·)

/-- What the broker says. -/
def said (frame : Bytes) : List (Millis × Input) :=
  [(0, .link (.arrived frame)), (0, .link .packet)]

/-- The identifier and the quality of service of what is in flight, and what is read. -/
def Move.stage (mv : Move) : Option (UInt16 × QoS) × Option Packet :=
  (mv.before.phase.inFlight?.map fun f => (f.id, f.qos), mv.received?)

/-- A packet that has completed the exchange under the identifier 1 has been read. -/
theorem forwards_of_stage (h : Run p p.start (ms ++ [mv]) st)
    (hstage : mv.stage = (some (1, .exactlyOnce), some (.pubComp ⟨1, .success⟩))) :
    ∃ f, mv.before.phase.inFlight? = some f ∧ f.id = 1 ∧ f.qos = .exactlyOnce ∧ mv.Forwards := by
  obtain ⟨hflight, hreceived⟩ := Prod.mk.inj hstage
  obtain ⟨f, hf, hvalues⟩ := Option.map_eq_some_iff.1 hflight
  obtain ⟨hid, hq⟩ := Prod.mk.inj hvalues
  refine ⟨f, hf, hid, hq, ?_⟩
  rw [forwards_iff_of_step? (run_concat_iff.1 h).2.1 hf]
  exact ⟨_, hreceived, .completed hq hid.symm rfl⟩

/-- A broker that says PUBREC and then PUBCOMP has the message: it counts as forwarded, and the
broker has been told to release it. -/
theorem honest_exact :
    ∃ front mv st f, Run marker marker.start (front ++ mv :: []) st ∧ Honest (front ++ mv :: []) ∧
      mv.before.phase.inFlight? = some f ∧ f.id = 1 ∧ f.qos = .exactlyOnce ∧ mv.Forwards ∧
      ∃ w ∈ front, f.release ∈ Effect.written w.effects := by
  have hfacts : (marker.play? (exactScript ++ said [0x50, 2, 0, 1] ++ said [0x70, 2, 0, 1]) []
      marker.start).map (fun (ms, _) =>
        ((ms.drop 8).map Move.stage, (ms.take 8).any fun mv =>
          decide ([0x62, 2, 0, 1] ∈ Effect.written mv.effects))) =
      some ([(some (1, .exactlyOnce), some (.pubComp ⟨1, .success⟩))], true) := by decide +kernel
  obtain ⟨⟨ms, st⟩, hplay, hvalues⟩ := Option.map_eq_some_iff.1 hfacts
  obtain ⟨hlast, hreleased⟩ := Prod.mk.inj hvalues
  obtain ⟨mv, rest, hms, hstage, hnil⟩ := List.map_eq_cons_iff.1 hlast
  obtain rfl := List.map_eq_nil_iff.1 hnil
  have hsplit : ms = ms.take 8 ++ mv :: [] := by rw [← hms, List.take_append_drop]
  generalize ms.take 8 = front at hsplit hreleased
  subst hsplit
  have hrun : Run marker marker.start (front ++ mv :: []) st := Run.nil.of_play? hplay
  obtain ⟨f, hf, hid, hq, hforwards⟩ := forwards_of_stage hrun hstage
  obtain ⟨w, hw, hwritten⟩ := List.any_eq_true.1 hreleased
  refine ⟨front, mv, st, f, hrun, hrun.honest, hf, hid, hq, hforwards, w, hw, ?_⟩
  rw [InFlight.release, hid]
  exact of_decide_eq_true hwritten

/-- **PUBCOMP alone is enough**: a message counts as forwarded at the quality of service 2 although
the broker has not said PUBREC and has not been told to release it. -/
theorem forwards_unreceived :
    ∃ front mv st f, Run marker marker.start (front ++ mv :: []) st ∧
      mv.before.phase.inFlight? = some f ∧ f.qos = .exactlyOnce ∧ mv.Forwards ∧
      (∀ w ∈ front, ∀ a, w.received? ≠ some (.pubRec a)) ∧
      ∀ w ∈ front, f.release ∉ Effect.written w.effects := by
  have hfacts : (marker.play? (exactScript ++ said [0x70, 2, 0, 1]) [] marker.start).map
      (fun (ms, _) => ((ms.drop 6).map Move.stage, (ms.take 6).all fun mv =>
        mv.received?.all (fun packet => packet.type != 5) &&
          !decide ([0x62, 2, 0, 1] ∈ Effect.written mv.effects))) =
      some ([(some (1, .exactlyOnce), some (.pubComp ⟨1, .success⟩))], true) := by decide +kernel
  obtain ⟨⟨ms, st⟩, hplay, hvalues⟩ := Option.map_eq_some_iff.1 hfacts
  obtain ⟨hlast, hquiet⟩ := Prod.mk.inj hvalues
  obtain ⟨mv, rest, hms, hstage, hnil⟩ := List.map_eq_cons_iff.1 hlast
  obtain rfl := List.map_eq_nil_iff.1 hnil
  have hsplit : ms = ms.take 6 ++ mv :: [] := by rw [← hms, List.take_append_drop]
  generalize ms.take 6 = front at hsplit hquiet
  subst hsplit
  have hrun : Run marker marker.start (front ++ mv :: []) st := Run.nil.of_play? hplay
  obtain ⟨f, hf, hid, hq, hforwards⟩ := forwards_of_stage hrun hstage
  simp only [List.all_eq_true, Bool.and_eq_true, Bool.not_eq_true', decide_eq_false_iff_not] at hquiet
  refine ⟨front, mv, st, f, hrun, hf, hq, hforwards, ?_, ?_⟩
  · intro w hw a hreceived
    have htype := (hquiet w hw).1
    rw [hreceived] at htype
    cases htype
  · intro w hw
    rw [InFlight.release, hid]
    exact (hquiet w hw).2

end Publisher

end TopicBridge
