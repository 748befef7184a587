/-
**A publisher notices a broker that has fallen silent.**

A publisher asks its broker from time to time whether it is still there, and gives the connection up
if the next question is due while the last one is open.  An open question is closed by what the
broker sends.  It is also closed by a message for which nothing is awaited, because it asks for no
acknowledgement or because it is larger than the broker allows; then the broker has said nothing,
and a publisher with enough of such messages asks on and on.  If no such message is taken, every
question is followed by a packet of the broker or by the end of the connection.

Main definitions:

* `Move.asks` — the broker is asked whether it is there;
* `Move.isQuiet` — neither is anything received, nor a message taken for which nothing is awaited;
* `Phase.Unanswered` — if there is still a connection, its question is open;
* `Publisher.Vigilant` — what a run owes to an open question.

Main results:

* `Run.unanswered` — a question stays open as long as all is quiet;
* `Run.vigilant` — **a run is vigilant**;
* `asks_twice` — two questions between which nothing is received.
-/

import TopicBridge.Proofs.Session.Limits

set_option autoImplicit false

namespace TopicBridge

open Mqtt

namespace Publisher

/-! ### Questions -/

/-- The broker is asked whether it is there. -/
def Move.asks (mv : Move) : Bool := decide ([0xC0, 0] ∈ Effect.written mv.effects)

/-- Neither is anything received, nor a message taken for which nothing is awaited. -/
def Move.isQuiet (mv : Move) : Bool := mv.received?.isNone && !mv.isUnacknowledged

/-- If there is a connection that a broker has accepted, its question is open. -/
def Phase.Unanswered (a : Phase) : Prop :=
  ∀ s, a.held? = some s → s.keepAlive.outstanding = true

variable {p : Publisher} {w : Surroundings} {a b : Phase} {i : Input} {es : List Effect}
  {mv q : Move} {s s' : Pumping} {st₀ st : State}

theorem isQuiet_iff :
    mv.isQuiet = true ↔ ¬(mv.received?.isSome ∨ mv.isUnacknowledged = true) := by
  simp [Move.isQuiet, Option.isNone_iff_eq_none, Option.eq_none_iff_forall_ne_some]

/-- A question is asked only if none is open, and leaves one open. -/
theorem outstanding_of_asks
    (h : p.Step mv.world mv.before.phase mv.input mv.after.phase mv.effects) (ha : mv.asks) :
    (∃ s, mv.before.phase = .pumping s ∧ s.keepAlive.outstanding = false) ∧
      mv.after.phase.Unanswered := by
  have hmem := of_decide_eq_true ha
  rcases frame_of_step h with hnone | ⟨packet, bytes, hwritten, hsends, hencode, -⟩
  · rw [hnone] at hmem
    cases hmem
  · -- the packet is told by the type of its frame
    rw [hwritten, List.mem_singleton] at hmem
    have htype := Packet.packetType?_of_encode hencode
    rw [← hmem] at htype
    generalize mv.before.phase = a, mv.input = i, mv.after.phase = b, mv.effects = es
      at h hsends hwritten
    cases hsends with
    | question =>
        cases h with
        | away hsome => cases hsome
        | heard => cases hwritten
        | lost => cases hwritten
        | pinged hk =>
            obtain ⟨hbefore, hafter⟩ := KeepAlive.outstanding_of_tick? hk
            refine ⟨⟨_, rfl, hbefore⟩, fun s hs => ?_⟩
            obtain rfl := Option.some.inj hs
            exact hafter
    | greeting | message | release | farewell => cases htype

/-- A question stays open as long as all is quiet. -/
theorem unanswered_of_isQuiet
    (h : p.Step mv.world mv.before.phase mv.input mv.after.phase mv.effects) (hq : mv.isQuiet)
    (hu : mv.before.phase.Unanswered) : mv.after.phase.Unanswered := by
  intro s hs
  cases holds_of_step h hs with
  | accepted ha =>
      have hreceived := received?_of_accepted? ha
      exact absurd (.inl (by simp [hreceived])) (isQuiet_iff.1 hq)
  | kept hs₀ _ hk => exact hk ▸ hu _ hs₀
  | asked _ _ hk => exact (KeepAlive.outstanding_of_tick? hk).2
  | answered _ _ _ hm => exact absurd hm (isQuiet_iff.1 hq)

/-- A question stays open as long as all is quiet. -/
theorem Run.unanswered {front mid : List Move} (h : Run p st₀ (front ++ q :: mid) st)
    (hq : q.asks) (hquiet : ∀ mv ∈ mid, mv.isQuiet) : st.phase.Unanswered := by
  induction mid using List.reverseRecOn generalizing st with
  | nil =>
      obtain ⟨-, hs, rfl⟩ := run_concat_iff.1 h
      exact (outstanding_of_asks (step_of_step? hs) hq).2
  | append_singleton mid last ih =>
      rw [← List.cons_append, ← List.append_assoc] at h
      obtain ⟨hrun, hs, rfl⟩ := run_concat_iff.1 h
      have hbefore := ih hrun fun mv hmv => hquiet mv (by simp [hmv])
      exact unanswered_of_isQuiet (step_of_step? hs) (hquiet last (by simp)) hbefore

/-! ### Messages for which nothing is awaited -/

/-- Nothing is awaited for a message that asks for no acknowledgement or that is larger than the
broker allows, and such a message closes an open question. -/
theorem lapse_of_isUnacknowledged
    (h : p.Step mv.world mv.before.phase mv.input mv.after.phase mv.effects)
    (hm : mv.isUnacknowledged) : mv.received? = none ∧
      ∃ s m s', mv.before.phase = .pumping s ∧ mv.input = .next m ∧
        mv.after.phase = .pumping s' ∧ s'.keepAlive.outstanding = false ∧
        (min m.qos s.connection.limits.maximumQoS = .atMostOnce ∨ ∃ bytes,
          (s.packet p m).encode = .ok bytes ∧
          ¬Connection.admits s.connection.limits bytes.length) := by
  unfold Move.isUnacknowledged at hm
  split at hm
  · rename_i m s' hi hafter
    have hquiet : mv.received? = none := if_neg (by simp [hi])
    rw [hi, hafter] at h
    generalize hbefore : mv.before.phase = a at h
    generalize mv.effects = es at h
    cases h with
    | oversized hs hfit =>
        exact ⟨hquiet, _, m, _, rfl, hi, hafter, rfl, .inr ⟨_, hs, by simp [hfit]⟩⟩
    | unsent hb => cases hb
    | published hq => exact ⟨hquiet, _, m, _, rfl, hi, hafter, rfl, .inl hq⟩
  · cases hm

/-! ### Runs -/

/-- What a run owes to an open question. -/
structure Vigilant (p : Publisher) (ms : List Move) (st : State) : Prop where
  /-- An open question is closed by a packet, or by a message for which nothing is awaited. -/
  closed : ∀ (front : List Move) (mv : Move) (back : List Move) (s s' : Pumping),
    ms = front ++ mv :: back → mv.before.phase.held? = some s → s.keepAlive.outstanding = true →
    mv.after.phase.held? = some s' → s'.keepAlive.outstanding = false →
    mv.received?.isSome ∨ mv.isUnacknowledged
  /-- Between two questions there is such a packet or such a message. -/
  apart : ∀ (front : List Move) (q₁ : Move) (mid : List Move) (q₂ : Move) (back : List Move),
    ms = front ++ q₁ :: mid ++ q₂ :: back → q₁.asks → q₂.asks →
    ∃ mv ∈ mid, mv.received?.isSome ∨ mv.isUnacknowledged
  /-- When the next question is due, and there has been neither since the last one, the connection
  is given up. -/
  given_up : ∀ (front : List Move) (q : Move) (back : List Move) (s : Pumping) (w : Surroundings)
    (drained : Bool), ms = front ++ q :: back → q.asks →
    (∀ mv ∈ back, ¬(mv.received?.isSome ∨ mv.isUnacknowledged)) →
    st.phase = .pumping s → s.keepAlive.isDue w.now →
    p.step? w drained st (.link .ping) = some (drop w st [] (.timeout .pingResp))
  /-- A message for which nothing is awaited asks for no acknowledgement, or is larger than the
  broker allows; it closes an open question although nothing is received. -/
  lapse : ∀ (front : List Move) (mv : Move) (back : List Move),
    ms = front ++ mv :: back → mv.isUnacknowledged →
    mv.received? = none ∧ ∃ (s : Pumping) (m : Message) (s' : Pumping),
      mv.before.phase = .pumping s ∧ mv.input = .next m ∧
      mv.after.phase = .pumping s' ∧ s'.keepAlive.outstanding = false ∧
      (min m.qos s.connection.limits.maximumQoS = .atMostOnce ∨ ∃ bytes,
        (s.packet p m).encode = .ok bytes ∧
        ¬Connection.admits s.connection.limits bytes.length)

theorem closed_of_step (h : p.Step mv.world mv.before.phase mv.input mv.after.phase mv.effects)
    (hs : mv.before.phase.held? = some s) (hopen : s.keepAlive.outstanding = true)
    (hs' : mv.after.phase.held? = some s') (hclosed : s'.keepAlive.outstanding = false) :
    mv.received?.isSome ∨ mv.isUnacknowledged := by
  by_contra hquiet
  have hu : mv.before.phase.Unanswered := fun s₀ hs₀ => Option.some.inj (hs.symm.trans hs₀) ▸ hopen
  have hafter := unanswered_of_isQuiet h (isQuiet_iff.2 hquiet) hu s' hs'
  simp [hclosed] at hafter

/-- When the next question is due while the last one is open, the connection is given up. -/
theorem step?_ping_of_unanswered {drained : Bool} (hu : st.phase.Unanswered)
    (hs : st.phase = .pumping s) (hdue : s.keepAlive.isDue w.now) :
    p.step? w drained st (.link .ping) = some (drop w st [] (.timeout .pingResp)) := by
  have hopen : s.keepAlive.outstanding = true := hu s (by rw [hs]; rfl)
  have htick : s.keepAlive.tick? w.now = none := if_pos hopen
  simp only [step?, link?, hs, if_pos hdue, pinged, htick]

/-- **A run is vigilant.** -/
theorem Run.vigilant {ms : List Move} (h : Run p p.start ms st) : p.Vigilant ms st where
  closed := by
    rintro front mv back s s' rfl hs hopen hs' hclosed
    exact closed_of_step (step_of_step? h.split.2) hs hopen hs' hclosed
  apart := by
    rintro front q₁ mid q₂ back rfl hq₁ hq₂
    by_contra hnone
    obtain ⟨hrun, hstep⟩ := h.split
    have hquiet : ∀ mv ∈ mid, mv.isQuiet := fun mv hmv =>
      isQuiet_iff.2 fun hm => hnone ⟨mv, hmv, hm⟩
    -- the second question finds the first one open, and then is not asked
    have hopen := hrun.unanswered hq₁ hquiet
    obtain ⟨⟨s, hs, hclosed⟩, -⟩ := outstanding_of_asks (step_of_step? hstep) hq₂
    have := hopen s (by rw [hs]; rfl)
    simp [hclosed] at this
  given_up := by
    rintro front q back s w drained rfl hq hquiet hs hdue
    have hopen := h.unanswered hq fun mv hmv => isQuiet_iff.2 (hquiet mv hmv)
    exact step?_ping_of_unanswered hopen hs hdue
  lapse := by
    rintro front mv back rfl hm
    exact lapse_of_isUnacknowledged (step_of_step? h.split.2) hm

/-! ### A broker that says nothing -/

/-- A broker accepts the connection, and then says nothing; after the keep-alive time the publisher
asks whether it is there. -/
def silentScript : List (Millis × Input) :=
  [.link .timeUp, .link .opened, .link (.arrived [0x20, 3, 0, 0, 0]), .link .packet].map (0, ·) ++
    [(10000, .link .ping)]

/-- What is told, whether the broker is asked, and whether something is received. -/
def Move.exchange (mv : Move) : Input × Bool × Bool := (mv.input, mv.asks, mv.received?.isSome)

/-- A question that is not answered is the last one: the connection is given up when the next one
is due. -/
theorem vigilant_silent :
    ∃ front q st s, Run marker marker.start (front ++ q :: []) st ∧
      marker.Vigilant (front ++ q :: []) st ∧ q.asks ∧ st.phase = .pumping s ∧
      s.keepAlive.isDue 20000 ∧ marker.step? ⟨20000, false⟩ false st (.link .ping) =
        some (drop ⟨20000, false⟩ st [] (.timeout .pingResp)) := by
  have hfacts : (marker.play? silentScript [] marker.start).map (fun (ms, st) =>
      (ms.map Move.asks, (st.phase.held?.map fun s => s.keepAlive.isDue 20000, st.isIdle))) =
      some ([false, false, false, false] ++ [true], (some true, true)) := by decide +kernel
  obtain ⟨⟨ms, st⟩, hplay, hvalues⟩ := Option.map_eq_some_iff.1 hfacts
  simp only [Prod.mk.injEq] at hvalues
  obtain ⟨hms, hdue, hidle⟩ := hvalues
  obtain ⟨front, rest, rfl, -, hrest⟩ := List.map_eq_append_iff.1 hms
  obtain ⟨q, rest, rfl, hq, hnil⟩ := List.map_eq_cons_iff.1 hrest
  obtain rfl := List.map_eq_nil_iff.1 hnil
  have hrun := Run.nil.of_play? hplay
  have hvigilant := hrun.vigilant
  obtain ⟨s, hs⟩ : ∃ s, st.phase = .pumping s := by
    unfold State.isIdle at hidle
    split at hidle
    · exact ⟨_, ‹_›⟩
    · cases hidle
  rw [hs] at hdue
  have hdue : s.keepAlive.isDue 20000 = true := Option.some.inj hdue
  exact ⟨front, q, st, s, hrun, hvigilant, hq, hs, hdue,
    hvigilant.given_up front q [] s ⟨20000, false⟩ false rfl hq (by simp) hs hdue⟩

/-- A message of quality of service 0 is taken between two questions, and nothing is received
between them. -/
theorem asks_twice :
    ∃ (front : List Move) (q₁ mv q₂ : Move) (st : State),
      Run marker marker.start (front ++ q₁ :: [mv] ++ q₂ :: []) st ∧
      q₁.asks ∧ q₂.asks ∧ mv.input = .next (parcel .atMostOnce 1) ∧ mv.received? = none := by
  have hfacts : (marker.play? (silentScript ++
      [(10000, .next (parcel .atMostOnce 1)), (20000, .link .ping)]) [] marker.start).map
        (fun (ms, _) => ms.map Move.exchange) =
      some ((silentScript.take 3).map (fun (_, i) => (i, false, false)) ++
        [(.link .packet, false, true), (.link .ping, true, false),
          (.next (parcel .atMostOnce 1), false, false), (.link .ping, true, false)]) := by
    decide +kernel
  obtain ⟨⟨ms, st⟩, hplay, hms⟩ := Option.map_eq_some_iff.1 hfacts
  obtain ⟨front, rest, rfl, -, hrest⟩ := List.map_eq_append_iff.1 hms
  obtain ⟨accepted, rest, rfl, -, hrest⟩ := List.map_eq_cons_iff.1 hrest
  obtain ⟨q₁, rest, rfl, hq₁, hrest⟩ := List.map_eq_cons_iff.1 hrest
  obtain ⟨mv, rest, rfl, hmv, hrest⟩ := List.map_eq_cons_iff.1 hrest
  obtain ⟨q₂, rest, rfl, hq₂, hnil⟩ := List.map_eq_cons_iff.1 hrest
  obtain rfl := List.map_eq_nil_iff.1 hnil
  simp only [Move.exchange, Prod.mk.injEq, Option.isSome_eq_false_iff] at hq₁ hmv hq₂
  refine ⟨front ++ [accepted], q₁, mv, q₂, st, ?_, hq₁.2.1, hq₂.2.1, hmv.1,
    Option.isNone_iff_eq_none.1 hmv.2.2⟩
  simpa using Run.nil.of_play? hplay

end Publisher

end TopicBridge
