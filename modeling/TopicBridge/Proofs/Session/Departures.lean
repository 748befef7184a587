/-
**Between two connections.**

A subscriber that loses its connection says so, waits, says that it connects again and asks for a
stream; only the end of everything leads out of this circle.  `Subscriber.Step` has one case for all
of it.  Where the order matters, as for what is told in between, the ways from phase to phase are
needed one by one.

Main definitions:

* `Subscriber.Phase.mayLose` — there is a connection to lose, or the prospect of one;
* `Subscriber.Departs` — the ways to a phase without a connection.

Main results:

* `Subscriber.departs_of_step?` — **there are no others**.
-/

import TopicBridge.Proofs.Session.SubscriberStep

set_option autoImplicit false

namespace TopicBridge

open Mqtt

namespace Subscriber

variable {p : Subscriber} {st st' : State} {s : Serving} {es : List Effect} {w : Surroundings}

/-- Whether there is something to lose in a phase: a connection, or the prospect of one. -/
def Phase.mayLose : Phase → Bool
  | .announcing | .losing _ | .resting _ => false
  | _ => true

/-- How a subscriber comes to a phase without a connection: it asks for one, loses it, waits, and
starts again, unless it comes to its end. -/
inductive Departs (w : Surroundings) : Phase → Input → Phase → Prop where
  | asks {limit : Millis} : Departs w .announcing .taken (.opening limit)
  | loses {a : Phase} {i : Input} {e : SessionError} (ha : a.mayLose = true) :
      Departs w a i (.losing e)
  | rests {e : SessionError} {wake : Millis} : Departs w (.losing e) .taken (.resting wake)
  | again {wake : Millis} (hw : w.shutdown = false) :
      Departs w (.resting wake) (.link .timeUp) .announcing
  | stops {a : Phase} {i : Input} : Departs w a i .stopped

theorem isAway_of_afterAnswer {b : Phase} (h : p.afterAnswer s = .ok b) : b.isAway = false := by
  rcases afterAnswer_eq_ok h with ⟨-, rfl⟩ | ⟨-, rfl⟩ <;> rfl

theorem isAway_of_update? {a b : Phase} {f : Connection → Connection} (h : a.update? f = some b) :
    b.isAway = false := by
  cases a <;> cases h <;> rfl

/-- A packet that does not cost the connection leaves it there. -/
theorem isAway_of_onPacket {packet : Packet} {b : Phase} {after : List Effect}
    (h : (p.onPacket s packet).2 = .ok (b, after)) : b.isAway = false := by
  have hfresh {m : Publish} (hf : (onPublish.fresh p s m).2 = .ok (b, after)) :
      b.isAway = false := by
    unfold onPublish.fresh at hf
    split_ifs at hf
    · obtain ⟨_, -, hpair⟩ := map_eq_ok_iff.1 hf
      obtain ⟨rfl, -⟩ := Prod.mk.inj hpair
      rfl
    · obtain ⟨rfl, -⟩ := Prod.mk.inj (Except.ok.inj hf)
      rfl
  cases packet with
  | publish m =>
      simp only [onPacket, onPublish] at h
      split at h
      · split_ifs at h
        · obtain ⟨_, -, hpair⟩ := map_eq_ok_iff.1 h
          obtain ⟨rfl, -⟩ := Prod.mk.inj hpair
          rfl
        · exact hfresh h
      · exact hfresh h
  | pubRel a =>
      obtain ⟨_, -, hpair⟩ := map_eq_ok_iff.1 h
      obtain ⟨rfl, -⟩ := Prod.mk.inj hpair
      rfl
  | subAck a =>
      simp only [onPacket] at h
      split at h
      · obtain ⟨rfl, -⟩ := Prod.mk.inj (Except.ok.inj h)
        rfl
      · obtain ⟨b, hb, hpair⟩ := map_eq_ok_iff.1 h
        obtain ⟨rfl, -⟩ := Prod.mk.inj hpair
        exact isAway_of_afterAnswer hb
  | disconnect d => cases h
  | _ =>
      obtain ⟨rfl, -⟩ := Prod.mk.inj (Except.ok.inj h)
      rfl

/-- A connection that is there can only be lost. -/
theorem departs_of_proceed {a : Phase} {i : Input} {before : List Effect}
    {r : Except SessionError (Phase × List Effect)} {c : Connection} (hc : a.connection? = some c)
    (hr : ∀ b after, r = .ok (b, after) → b.isAway = false)
    (h : proceed st before r = (st', es)) (hb : st'.phase.isAway) :
    Departs w a i st'.phase := by
  obtain ⟨b, after, hok, hphase, -⟩ | ⟨e, -, hphase, -⟩ := proceed_cases h
  · rw [hphase, hr b after hok] at hb
    cases hb
  · rw [hphase]
    cases a with
    | announcing | opening | losing | resting | stopped => cases hc
    | _ => exact .loses rfl

theorem departs_of_taken? (h : p.taken? w st = some (st', es)) (hb : st'.phase.isAway) :
    Departs w st.phase .taken st'.phase := by
  unfold taken? at h
  split at h
  · rename_i hphase
    obtain ⟨rfl, -⟩ := Prod.mk.inj (Option.some.inj h)
    rw [hphase]
    exact .asks
  · rename_i c keepAlive present hphase
    rw [hphase]
    split at h
    · obtain ⟨rfl, -⟩ := Prod.mk.inj (Option.some.inj h)
      exact .loses rfl
    · refine departs_of_proceed rfl (fun b after hr => ?_) (Option.some.inj h) hb
      obtain ⟨b', ha, hpair⟩ := map_eq_ok_iff.1 hr
      obtain ⟨rfl, -⟩ := Prod.mk.inj hpair
      exact isAway_of_afterAnswer ha
  · rename_i s m id hphase
    rw [hphase]
    refine departs_of_proceed rfl (fun b after hr => ?_) (Option.some.inj h) hb
    obtain ⟨_, -, hpair⟩ := map_eq_ok_iff.1 hr
    obtain ⟨rfl, -⟩ := Prod.mk.inj hpair
    rfl
  · obtain ⟨rfl, -⟩ := Prod.mk.inj (Option.some.inj h)
    cases hb
  · rename_i e hphase
    rw [hphase]
    split at h
    · obtain ⟨rfl, -⟩ := Prod.mk.inj (Option.some.inj h)
      exact .rests
    · obtain ⟨rfl, -⟩ := Prod.mk.inj (Option.some.inj h)
      exact .stops
  · cases h

theorem departs_of_packet (h : p.link? w st .packet = some (st', es)) (hb : st'.phase.isAway) :
    Departs w st.phase (.link .packet) st'.phase := by
  simp only [link?] at h
  split at h
  · rename_i hphase
    rw [hphase]
    unfold greeted? at h
    split at h
    · obtain ⟨rfl, -⟩ := Prod.mk.inj (Option.some.inj h)
      exact .loses rfl
    · cases h
    · split at h
      · obtain ⟨rfl, -⟩ := Prod.mk.inj (Option.some.inj h)
        exact .loses rfl
      · obtain ⟨rfl, -⟩ := Prod.mk.inj (Option.some.inj h)
        cases hb
  · rename_i s hphase
    rw [hphase]
    unfold served? at h
    split at h
    · obtain ⟨rfl, -⟩ := Prod.mk.inj (Option.some.inj h)
      exact .loses rfl
    · cases h
    · exact departs_of_proceed rfl (fun b after hr => isAway_of_onPacket hr) (Option.some.inj h) hb
  · cases h

theorem departs_of_ping (h : p.link? w st .ping = some (st', es)) (hb : st'.phase.isAway) :
    Departs w st.phase (.link .ping) st'.phase := by
  simp only [link?] at h
  split at h
  · rename_i s hphase
    split_ifs at h
    have hp := Option.some.inj h
    unfold pinged at hp
    rw [hphase]
    split at hp
    · obtain ⟨rfl, -⟩ := Prod.mk.inj hp
      exact .loses rfl
    · refine departs_of_proceed rfl (fun b after hr => ?_) hp hb
      obtain ⟨_, -, hpair⟩ := map_eq_ok_iff.1 hr
      obtain ⟨rfl, -⟩ := Prod.mk.inj hpair
      rfl
  · cases h

theorem departs_of_opened (h : p.link? w st .opened = some (st', es)) (hb : st'.phase.isAway) :
    Departs w st.phase (.link .opened) st'.phase := by
  simp only [link?] at h
  split at h
  · rename_i hphase
    have ho := Option.some.inj h
    unfold openedAt at ho
    rw [hphase]
    split at ho
    · obtain ⟨rfl, -⟩ := Prod.mk.inj ho
      exact .loses rfl
    · obtain ⟨rfl, -⟩ := Prod.mk.inj ho
      cases hb
  · cases h

theorem departs_of_timeUp (h : p.link? w st .timeUp = some (st', es)) :
    Departs w st.phase (.link .timeUp) st'.phase := by
  simp only [link?] at h
  split at h
  · rename_i hphase
    split_ifs at h
    obtain ⟨rfl, -⟩ := Prod.mk.inj (Option.some.inj h)
    rw [hphase]
    exact .loses rfl
  · rename_i hphase
    split_ifs at h
    obtain ⟨rfl, -⟩ := Prod.mk.inj (Option.some.inj h)
    rw [hphase]
    exact .loses rfl
  · rename_i hphase
    split_ifs at h with _ hw
    · obtain ⟨rfl, -⟩ := Prod.mk.inj (Option.some.inj h)
      exact .stops
    · obtain ⟨rfl, -⟩ := Prod.mk.inj (Option.some.inj h)
      rw [hphase]
      exact .again (by simpa using hw)
  · cases h

/-- A step that is told something about the stream or the time. -/
theorem departs_of_link? {i : LinkInput} (h : p.link? w st i = some (st', es))
    (hb : st'.phase.isAway) : Departs w st.phase (.link i) st'.phase := by
  have hupdate {f : Connection → Connection}
      (h : (st.phase.update? f).map (fun phase => ({ st with phase }, [])) = some (st', es)) :
      Departs w st.phase (.link i) st'.phase := by
    obtain ⟨b, hupdate, hpair⟩ := Option.map_eq_some_iff.1 h
    obtain ⟨rfl, -⟩ := Prod.mk.inj hpair
    rw [isAway_of_update? hupdate] at hb
    cases hb
  cases i with
  | arrived | ended | failed => exact hupdate h
  | packet => exact departs_of_packet h hb
  | ping => exact departs_of_ping h hb
  | opened => exact departs_of_opened h hb
  | timeUp => exact departs_of_timeUp h
  | notOpened =>
      simp only [link?] at h
      split at h
      · rename_i hphase
        obtain ⟨rfl, -⟩ := Prod.mk.inj (Option.some.inj h)
        rw [hphase]
        exact .loses rfl
      · cases h
  | shutdown =>
      simp only [link?] at h
      split at h
      · split_ifs at h
        obtain ⟨rfl, -⟩ := Prod.mk.inj (Option.some.inj h)
        exact .stops
      · split_ifs at h
        obtain ⟨rfl, -⟩ := Prod.mk.inj (Option.some.inj h)
        exact .stops
      · cases h

/-- **How a subscriber comes to a phase without a connection.** -/
theorem departs_of_step? {i : Input} (h : p.step? w st i = some (st', es))
    (hb : st'.phase.isAway) : Departs w st.phase i st'.phase := by
  cases i with
  | taken => exact departs_of_taken? h hb
  | link i => exact departs_of_link? h hb
  | refused =>
      unfold step? refused? at h
      dsimp only at h
      split at h
      case h_6 => cases h
      all_goals
        obtain ⟨rfl, -⟩ := Prod.mk.inj (Option.some.inj h)
        exact .stops

end Subscriber

end TopicBridge
