/-
**How sessions come to their end.**

A subscriber that has been told to stop need not do so at once: it may hand over what it has, wait
for its broker until its time is over, and read what has come in before it looks at the signal.  But
each of these steps takes it nearer to its end, if they are measured well: what is behind a message
is worth less than the bytes of its packet.  Only bytes that come in put the end off.  A publisher
that keeps its connection does not stop at all as long as there may be something to publish, but it
too can only read what has come in.

Main definitions:

* `LinkInput.arrival`, `LinkInput.isProgress` — how an input may put the end off, and whether it
  brings it nearer;
* `Subscriber.Phase.toGo`, `Publisher.Phase.toGo` — how far it is to the end, at most;
* `Subscriber.Phase.limit` — until when a subscriber may wait.

Main results:

* `Subscriber.toGo_of_step?`, `Publisher.toGo_of_step?` — **every step brings the end nearer**;
* `Subscriber.exists_step?` — until it has stopped a subscriber can make one.
-/

import TopicBridge.Proofs.Session.Departures
import TopicBridge.Proofs.Session.PublisherRun

set_option autoImplicit false

namespace TopicBridge

open Mqtt

/-! ### Inputs -/

namespace LinkInput

/-- The number of bytes that come in. -/
def arrival : LinkInput → Nat
  | .arrived bytes => bytes.length
  | _ => 0

/-- Whether a session gets further, rather than only learn that there is something to read or ask
whether its broker is there. -/
def isProgress : LinkInput → Bool
  | .arrived _ | .ended | .failed _ | .ping => false
  | _ => true

end LinkInput

namespace Connection

variable {c c' : Connection} {packet : Packet}

/-- A packet that is read takes bytes away. -/
theorem inbound_of_receive (h : c.receive = .ok (some (packet, c'))) :
    c'.inbound.length + 2 ≤ c.inbound.length := by
  obtain ⟨rest, hdecode, rfl⟩ := exists_of_receive h
  exact Decoder.length_of_decode hdecode

theorem inbound_of_greet {answer : ConnAck} (h : c.greet packet = .ok (c', answer)) :
    c'.inbound = c.inbound := by
  obtain ⟨-, -, rfl⟩ := exists_of_greet h
  rfl

/-- On a new connection nothing has come in. -/
theorem inbound_of_begin {q : Connect} {bytes : Bytes} (h : begin q = .ok (c, bytes)) :
    c.inbound = [] := by
  obtain ⟨sent, -, hpair⟩ := bind_eq_ok_iff.1 h
  obtain ⟨rfl, -⟩ := Prod.mk.inj (Except.ok.inj hpair)
  split <;> rfl

end Connection

/-! ### Subscribers -/

namespace Subscriber

/-- How far it is to the end of a subscriber that has been told to stop, at most.  An event that is
handed over counts as four steps, since the forwarder has to deal with it. -/
def Phase.toGo : Phase → Nat
  | .announcing => 21
  | .opening _ => 17
  | .greeting c _ => 16 + 3 * c.inbound.length
  | .welcoming c _ _ => 15 + 3 * c.inbound.length
  | .delivering s _ _ => 10 + 3 * s.connection.inbound.length
  | .reporting s _ => 10 + 3 * s.connection.inbound.length
  | .serving s => 6 + 3 * s.connection.inbound.length
  | .losing _ => 5
  | .resting _ => 1
  | .stopped => 0

/-- What an input brings a subscriber nearer to its end by. -/
def Input.worth : Input → Nat
  | .taken => 4
  | .refused => 1
  | .link i => i.isProgress.toNat

/-- The number of bytes that come in. -/
def Input.arrival : Input → Nat
  | .link i => i.arrival
  | _ => 0

/-- Until when a subscriber may wait for its broker. -/
def Phase.limit : Phase → Millis
  | .opening deadline => deadline
  | .greeting _ deadline => deadline
  | _ => 0

variable {p : Subscriber} {w : Surroundings} {st st' : State} {es : List Effect} {i : Input}

theorem ne_stopped_of_step? (h : p.step? w st i = some (st', es)) : st.phase ≠ .stopped := by
  obtain ⟨phase, backoff⟩ := st
  rintro rfl
  cases i with
  | taken | refused => cases h
  | link i => cases i <;> cases h

theorem offer?_of_taken (h : p.step? w st .taken = some (st', es)) : st.offer?.isSome := by
  obtain ⟨phase, backoff⟩ := st
  cases phase with
  | announcing | welcoming | delivering | reporting | losing => rfl
  | _ => cases h

theorem worth_le_one (hi : i ≠ .taken) : i.worth ≤ 1 := by
  cases i with
  | taken => exact absurd rfl hi
  | refused => exact Nat.le_refl 1
  | link i => exact Bool.toNat_le _

/-- An event that is on offer keeps a subscriber away from its end. -/
theorem worth_le_toGo (h : p.step? w st i = some (st', es)) : i.worth ≤ st.phase.toGo := by
  have hne := ne_stopped_of_step? h
  by_cases hi : i = .taken
  · subst hi
    have hoffer := offer?_of_taken h
    obtain ⟨a, backoff⟩ := st
    cases a with
    | announcing | welcoming | delivering | reporting | losing =>
        simp only [Input.worth, Phase.toGo]
        omega
    | _ => cases hoffer
  · refine Nat.le_trans (worth_le_one hi) ?_
    obtain ⟨a, backoff⟩ := st
    cases a with
    | stopped => exact absurd rfl hne
    | _ =>
        simp only [Phase.toGo]
        omega

/-- Whoever loses a connection, or does not get one, has been further from the end. -/
theorem toGo_of_isAway (h : p.step? w st i = some (st', es)) (hw : w.shutdown = true)
    (hb : st'.phase.isAway) : st'.phase.toGo + i.worth ≤ st.phase.toGo := by
  have hdeparts := departs_of_step? h hb
  have hne := ne_stopped_of_step? h
  have hworth := worth_le_toGo h
  have hoffer (hi : i = .taken) : st.offer?.isSome := by
    subst hi
    exact offer?_of_taken h
  obtain ⟨a, backoff⟩ := st
  generalize st'.phase = b at hdeparts
  dsimp only at hdeparts hne hworth ⊢
  cases hdeparts with
  | asks => exact Nat.le_refl 21
  | rests => exact Nat.le_refl 5
  | stops =>
      rw [Phase.toGo]
      omega
  | again hrun =>
      rw [hw] at hrun
      cases hrun
  | loses hlose =>
      by_cases hi : i = .taken
      · have ho := hoffer hi
        subst hi
        cases a with
        | announcing | losing => cases hlose
        | welcoming | delivering | reporting =>
            simp only [Input.worth, Phase.toGo]
            omega
        | _ => cases ho
      · have hone := worth_le_one hi
        cases a with
        | announcing | losing | resting => cases hlose
        | stopped => exact absurd rfl hne
        | _ =>
            simp only [Phase.toGo]
            omega

/-- Bytes that come in put the end off, and nothing else that is heard does. -/
theorem toGo_of_update? {a b : Phase} {f : Connection → Connection} {n : Nat}
    (h : a.update? f = some b) (hf : ∀ c, (f c).inbound.length = c.inbound.length + n) :
    b.toGo = a.toGo + 3 * n := by
  cases a with
  | greeting | welcoming | serving | delivering | reporting =>
      cases h
      simp only [Phase.toGo, hf]
      omega
  | _ => cases h

theorem toGo_of_afterAnswer {s : Serving} {b : Phase} (h : p.afterAnswer s = .ok b) :
    b.toGo ≤ 10 + 3 * s.connection.inbound.length := by
  rcases afterAnswer_eq_ok h with ⟨-, rfl⟩ | ⟨-, rfl⟩
  · simp only [Phase.toGo]
    omega
  · exact Nat.le_refl _

theorem inbound_of_subscribeAll {withIds : Bool} {l : List Interest} {c c' : Connection}
    {pending pending' : List (UInt16 × UInt32)} {before written : List Bytes}
    (h : subscribeAll withIds c l pending before = (written, .ok (c', pending'))) :
    c'.inbound = c.inbound := by
  induction l generalizing c pending before with
  | nil =>
      obtain ⟨rfl, rfl⟩ := Prod.mk.inj (Except.ok.inj (Prod.mk.inj h).2)
      rfl
  | cons i rest ih =>
      simp only [subscribeAll] at h
      split at h
      · cases (Prod.mk.inj h).2
      · have hrest := ih h
        exact hrest

theorem toGo_of_taken (h : p.step? w st .taken = some (st', es)) (hw : w.shutdown = true) :
    st'.phase.toGo + 4 ≤ st.phase.toGo := by
  have haway := toGo_of_isAway h hw
  have hstep := step_of_step? h
  generalize st.phase = a, st'.phase = b at haway hstep
  cases hstep with
  | stop hi => rcases hi with hi | hi <;> cases hi
  | away hb => exact haway hb
  | @subscribed c _ _ _ _ _ _ _ hs hans =>
      have hle := toGo_of_afterAnswer hans
      rw [inbound_of_subscribeAll hs] at hle
      change _ ≤ 15 + 3 * c.inbound.length
      omega
  | handed hack =>
      obtain ⟨hsame, -⟩ := receipt_of_acknowledge hack
      simp only [Phase.toGo, hsame]
      omega
  | reported =>
      simp only [Phase.toGo]
      omega

/-- A packet takes more bytes away than it puts the end off by. -/
theorem toGo_of_packet (h : p.step? w st (.link .packet) = some (st', es))
    (hw : w.shutdown = true) : st'.phase.toGo + 1 ≤ st.phase.toGo := by
  have haway := toGo_of_isAway h hw
  have hstep := step_of_step? h
  generalize st.phase = a, st'.phase = b at haway hstep
  cases hstep with
  | stop hi => rcases hi with hi | hi <;> cases hi
  | away hb => exact haway hb
  | heard _ hi => exact absurd rfl hi
  | accepted hr hg =>
      have hlt := Connection.inbound_of_receive hr
      simp only [Phase.toGo, Connection.inbound_of_greet hg]
      omega
  | own hr _ _ hack =>
      have hlt := Connection.inbound_of_receive hr
      obtain ⟨hsame, -⟩ := receipt_of_acknowledge hack
      simp only [Phase.toGo, hsame]
      omega
  | answered hr _ hans =>
      have hlt := Connection.inbound_of_receive hr
      have hle := toGo_of_afterAnswer hans
      simp only [Phase.toGo] at hle ⊢
      omega
  | repeated hr | offered hr | released hr | ignored hr =>
      have hlt := Connection.inbound_of_receive hr
      simp only [Phase.toGo]
      omega

theorem toGo_of_ping (h : p.step? w st (.link .ping) = some (st', es)) (hw : w.shutdown = true) :
    st'.phase.toGo ≤ st.phase.toGo := by
  have haway := toGo_of_isAway h hw
  simp only [step?, link?] at h
  split at h
  · rename_i s hphase
    split_ifs at h
    have hp := Option.some.inj h
    unfold pinged at hp
    split at hp
    · obtain ⟨rfl, -⟩ := Prod.mk.inj hp
      exact haway rfl
    · rcases proceed_cases hp with ⟨b, after, hok, hb, -⟩ | ⟨e, -, hb, -⟩
      · -- a question leaves what has come in as it is
        obtain ⟨_, -, hpair⟩ := map_eq_ok_iff.1 hok
        obtain ⟨rfl, -⟩ := Prod.mk.inj hpair
        rw [hb, hphase]
        exact Nat.le_refl _
      · exact haway (by rw [hb]; rfl)
  · cases h

/-- What is heard of a stream puts the end off by what there is to read. -/
theorem toGo_of_heard {f : Connection → Connection} {n : Nat}
    (h : (st.phase.update? f).map (fun phase => ({ st with phase }, [])) = some (st', es))
    (hf : ∀ c, (f c).inbound.length = c.inbound.length + n) :
    st'.phase.toGo = st.phase.toGo + 3 * n := by
  obtain ⟨b, hb, hpair⟩ := Option.map_eq_some_iff.1 h
  obtain ⟨rfl, -⟩ := Prod.mk.inj hpair
  exact toGo_of_update? hb hf

theorem toGo_of_opened (h : p.step? w st (.link .opened) = some (st', es))
    (hw : w.shutdown = true) : st'.phase.toGo + 1 ≤ st.phase.toGo := by
  have haway := toGo_of_isAway h hw
  simp only [step?, link?] at h
  split at h
  · rename_i hphase
    have ho := Option.some.inj h
    unfold openedAt at ho
    split at ho
    · obtain ⟨rfl, -⟩ := Prod.mk.inj ho
      exact haway rfl
    · rename_i hbegin
      obtain ⟨rfl, -⟩ := Prod.mk.inj ho
      rw [hphase]
      simp [Phase.toGo, Connection.inbound_of_begin hbegin]
  · cases h

theorem isAway_of_notOpened {e : SessionError}
    (h : p.step? w st (.link (.notOpened e)) = some (st', es)) : st'.phase.isAway := by
  simp only [step?, link?] at h
  split at h
  · obtain ⟨rfl, -⟩ := Prod.mk.inj (Option.some.inj h)
    rfl
  · cases h

theorem isAway_of_timeUp (h : p.step? w st (.link .timeUp) = some (st', es)) :
    st'.phase.isAway := by
  simp only [step?, link?] at h
  split at h
  case h_4 => cases h
  all_goals
    split_ifs at h
    all_goals
      obtain ⟨rfl, -⟩ := Prod.mk.inj (Option.some.inj h)
      rfl

theorem isAway_of_shutdown (h : p.step? w st (.link .shutdown) = some (st', es)) :
    st'.phase.isAway := by
  simp only [step?, link?] at h
  split at h
  case h_3 => cases h
  all_goals
    split_ifs at h
    obtain ⟨rfl, -⟩ := Prod.mk.inj (Option.some.inj h)
    rfl

/-- Whoever finds nobody to take an event stops. -/
theorem isAway_of_refused (h : p.step? w st .refused = some (st', es)) : st'.phase.isAway := by
  simp only [step?, refused?] at h
  split at h
  case h_6 => cases h
  all_goals
    obtain ⟨rfl, -⟩ := Prod.mk.inj (Option.some.inj h)
    rfl

/-- **Every step brings a subscriber that has been told to stop nearer to its end**, up to the bytes
that come in. -/
theorem toGo_of_step? (h : p.step? w st i = some (st', es)) (hw : w.shutdown = true) :
    st'.phase.toGo + i.worth ≤ st.phase.toGo + 3 * i.arrival := by
  have haway := toGo_of_isAway h hw
  cases i with
  | taken => exact toGo_of_taken h hw
  | refused => exact haway (isAway_of_refused h)
  | link i =>
      cases i with
      | arrived bytes => exact Nat.le_of_eq (toGo_of_heard h fun c => List.length_append)
      | ended => exact Nat.le_of_eq (toGo_of_heard (n := 0) h fun c => rfl)
      | failed => exact Nat.le_of_eq (toGo_of_heard (n := 0) h fun c => rfl)
      | packet => exact toGo_of_packet h hw
      | ping => exact toGo_of_ping h hw
      | opened => exact toGo_of_opened h hw
      | notOpened => exact haway (isAway_of_notOpened h)
      | timeUp => exact haway (isAway_of_timeUp h)
      | shutdown => exact haway (isAway_of_shutdown h)

/-- **Until it has stopped a subscriber can make a step** that brings it nearer to its end, at the
latest when it need not wait for its broker any more: it can hand over what it offers, or it needs
nobody. -/
theorem exists_step? (hn : st.isStopped = false) (hw : w.shutdown = true)
    (ht : st.phase.limit ≤ w.now) :
    st.offer?.isSome ∧ (p.step? w st .taken).isSome ∨
      ∃ i ∈ ownInputs, i.isProgress ∧ (p.step? w st (.link i)).isSome := by
  obtain ⟨phase, backoff⟩ := st
  cases phase with
  | announcing | delivering | reporting => exact .inl ⟨rfl, rfl⟩
  | losing =>
      refine .inl ⟨rfl, ?_⟩
      simp only [step?, taken?]
      split <;> rfl
  | welcoming =>
      refine .inl ⟨rfl, ?_⟩
      simp only [step?, taken?]
      split <;> rfl
  | opening deadline =>
      have hdue : deadline ≤ w.now := ht
      exact .inr ⟨.timeUp, by simp [ownInputs], rfl, by simp [step?, link?, hdue]⟩
  | greeting c deadline =>
      right
      cases hc : c.isWaiting with
      | true =>
          have hdue : deadline ≤ w.now := ht
          exact ⟨.timeUp, by simp [ownInputs], rfl, by simp [step?, link?, hdue, hc]⟩
      | false =>
          refine ⟨.packet, by simp [ownInputs], rfl, ?_⟩
          simp only [step?, link?, greeted?]
          split
          · rfl
          · rename_i hr
            simp [Connection.isWaiting, hr] at hc
          · split <;> rfl
  | serving s =>
      exact .inr ⟨.shutdown, by simp [ownInputs], rfl, by simp [step?, link?, hw]⟩
  | resting wake =>
      exact .inr ⟨.shutdown, by simp [ownInputs], rfl, by simp [step?, link?, hw]⟩
  | stopped => cases hn

end Subscriber

/-! ### Publishers -/

namespace Publisher

/-- How far it is to the end of a publisher that has nothing more to publish, at most. -/
def Phase.toGo : Phase → Nat
  | .closed => 0
  | a => 2 + Connection.unread a.connection?

/-- What an input brings a publisher nearer to its end by.  That there will be nothing more counts
as two steps, since the forwarder is told of it. -/
def Input.worth : Input → Nat
  | .next _ => 0
  | .drained => 2
  | .link i => i.isProgress.toNat

/-- The number of bytes that come in. -/
def Input.arrival : Input → Nat
  | .link i => i.arrival
  | _ => 0

variable {p : Publisher} {w : Surroundings} {st st' : State} {es : List Effect} {i : Input}
  {drained : Bool}

theorem exists_phase_of_held? {a : Phase} (h : a.held?.isSome) :
    (∃ s, a = .pumping s) ∨ ∃ s f, a = .settling s f := by
  cases a with
  | pumping s => exact .inl ⟨s, rfl⟩
  | settling s f => exact .inr ⟨s, f, rfl⟩
  | _ => cases h

theorem not_isAway_of_held? {a : Phase} (h : a.held?.isSome) : a.isAway = false := by
  obtain ⟨s, rfl⟩ | ⟨s, f, rfl⟩ := exists_phase_of_held? h <;> rfl

/-- A publisher that learns that there will be no message takes its leave, which it can do only
while no message is in flight. -/
theorem isClosed_of_drained (h : p.step? w drained st .drained = some (st', es)) :
    st.phase.inFlight? = none ∧ st'.isClosed = true := by
  simp only [step?] at h
  split at h
  · rename_i hphase
    obtain ⟨rfl, -⟩ := Prod.mk.inj (Option.some.inj h)
    rw [hphase]
    exact ⟨rfl, rfl⟩
  · cases h

theorem toGo_of_update? {a b : Phase} {f : Connection → Connection} {n : Nat}
    (h : a.update? f = some b) (hf : ∀ c, (f c).inbound.length = c.inbound.length + n) :
    b.toGo = a.toGo + n := by
  cases a with
  | greeting | pumping | settling =>
      cases h
      simp only [Phase.toGo, Phase.connection?, Connection.unread, hf]
      omega
  | _ => cases h

theorem toGo_of_next {m : Message} (h : p.Step w st.phase (.next m) st'.phase es)
    (hb : st'.phase.held?.isSome) : st'.phase.toGo = st.phase.toGo := by
  generalize st.phase = a, st'.phase = b at h hb
  cases h with
  | unsent haway => rw [not_isAway_of_held? hb] at haway; cases haway
  | @oversized s m =>
      have hsame : (s.number m).2.inbound = s.connection.inbound := by
        unfold Pumping.number
        split_ifs <;> rfl
      simp only [Phase.toGo, Phase.connection?, Connection.unread, hsame]
  | published | sent => rfl

theorem toGo_of_packet (h : p.Step w st.phase (.link .packet) st'.phase es)
    (ha : st.phase.held?.isSome) (hb : st'.phase.held?.isSome) :
    st'.phase.toGo + 1 ≤ st.phase.toGo := by
  generalize st.phase = a, st'.phase = b at h ha hb
  cases h with
  | away _ haway | unwelcome haway | lost haway | failed haway =>
      rw [not_isAway_of_held? hb] at haway
      cases haway
  | heard _ hi => exact absurd rfl hi
  | accepted => cases ha
  | ignored hr | waited hr | released hr | settled hr =>
      have hlt := Connection.inbound_of_receive hr
      simp only [Phase.toGo, Phase.connection?, Connection.unread]
      omega

theorem toGo_of_ping (h : p.step? w drained st (.link .ping) = some (st', es))
    (hb : st'.phase.held?.isSome) : st'.phase.toGo = st.phase.toGo := by
  simp only [step?, link?] at h
  split at h
  · rename_i s hphase
    split_ifs at h
    have hp := Option.some.inj h
    have hkept (e : SessionError) : drop w st [] e ≠ (st', es) := by
      intro hdrop
      have haway := (drop_cases hdrop).1
      rw [not_isAway_of_held? hb] at haway
      cases haway
    unfold pinged at hp
    split at hp
    · exact absurd hp (hkept _)
    · split at hp
      · exact absurd hp (hkept _)
      · obtain ⟨rfl, -⟩ := Prod.mk.inj hp
        rw [hphase]
        rfl
  · cases h

/-- Only a message in flight runs out of time, and that costs the connection. -/
theorem isAway_of_timeUp (h : p.step? w drained st (.link .timeUp) = some (st', es))
    (ha : st.phase.held?.isSome) : st'.phase.isAway := by
  obtain ⟨s, hs⟩ | ⟨s, f, hs⟩ := exists_phase_of_held? ha
  · simp [step?, link?, hs] at h
  · simp only [step?, link?, hs] at h
    split_ifs at h
    exact (drop_cases (Option.some.inj h)).1

theorem toGo_of_heard {f : Connection → Connection} {n : Nat}
    (h : (st.phase.update? f).map (fun phase => ({ st with phase }, [])) = some (st', es))
    (hf : ∀ c, (f c).inbound.length = c.inbound.length + n) :
    st'.phase.toGo = st.phase.toGo + n := by
  obtain ⟨b, hb, hpair⟩ := Option.map_eq_some_iff.1 h
  obtain ⟨rfl, -⟩ := Prod.mk.inj hpair
  exact toGo_of_update? hb hf

/-- **A publisher that keeps its connection, or takes its leave, can only read what has come
in.** -/
theorem toGo_of_step? (h : p.step? w drained st i = some (st', es)) (ha : st.phase.held?.isSome)
    (hb : st'.phase.held?.isSome ∨ i = .drained) :
    st'.phase.toGo + i.worth ≤ st.phase.toGo + i.arrival := by
  have hstep := step_of_step? h
  cases i with
  | next m => exact Nat.le_of_eq (toGo_of_next hstep (hb.resolve_right (by simp)))
  | drained =>
      obtain ⟨s, hs⟩ | ⟨s, f, hs⟩ := exists_phase_of_held? ha
      · simp only [step?, hs] at h
        obtain ⟨rfl, -⟩ := Prod.mk.inj (Option.some.inj h)
        rw [hs]
        simp only [Phase.toGo, Input.worth]
        omega
      · simp [step?, hs] at h
  | link i =>
      have hheld := hb.resolve_right (by simp)
      cases i with
      | arrived bytes => exact Nat.le_of_eq (toGo_of_heard h fun c => List.length_append)
      | ended => exact Nat.le_of_eq (toGo_of_heard (n := 0) h fun c => rfl)
      | failed => exact Nat.le_of_eq (toGo_of_heard (n := 0) h fun c => rfl)
      | packet => exact toGo_of_packet hstep ha hheld
      | ping => exact Nat.le_of_eq (toGo_of_ping h hheld)
      | opened | notOpened | shutdown =>
          obtain ⟨s, hs⟩ | ⟨s, f, hs⟩ := exists_phase_of_held? ha <;>
            simp [step?, link?, hs] at h
      | timeUp =>
          have haway := isAway_of_timeUp h ha
          rw [not_isAway_of_held? hheld] at haway
          cases haway

end Publisher

end TopicBridge
