/-
**The runs of a publisher.**

A run is the list of the moves that a publisher has made, oldest first.  Nothing is assumed of the
inputs: the broker, the queue and the clock may do what they like, and at every step.  What the
publisher has received can be read off the moves, and so can the terms on which the broker has
accepted the connection.

Main definitions:

* `Publisher.Move`, `Publisher.Run` — a step with all that it depends on, and the runs;
* `Phase.held?` — the connection that a broker has accepted;
* `Move.received?`, `Move.accepted?` — the packet that is read, and the acceptance;
* `Move.isUnacknowledged` — a message is taken that asks the broker for nothing;
* `Publisher.Holds` — how a move has come to a connection that a broker has accepted;
* `Publisher.acceptance` — the broker's latest acceptance;
* `Publisher.play?` — the run that some inputs make.

Main results:

* `holds_of_step` — the ways in which a move comes to an accepted connection;
* `Run.induction` — what holds at the start and is kept by every case of a step holds after a run;
* `Run.split` — a run that goes through a move has come to where it starts;
* `Run.of_play?` — what has been played is a run.
-/

import Mathlib.Data.List.Induction
import TopicBridge.Proofs.Session.PublisherStep

set_option autoImplicit false

namespace TopicBridge

open Mqtt

namespace Publisher

/-! ### Moves -/

/-- A step, with all that it depends on and all that it does. -/
structure Move where
  world : Surroundings
  /-- Whether the queue is closed and empty. -/
  drained : Bool
  before : State
  input : Input
  after : State
  effects : List Effect

/-- The connection that a broker has accepted. -/
def Phase.held? : Phase → Option Pumping
  | .pumping s => some s
  | .settling s _ => some s
  | _ => none

/-- The packet that is read. -/
def Move.received? (mv : Move) : Option Packet :=
  if mv.input = .link .packet then
    mv.before.phase.connection?.bind fun c => c.receive.toOption.join.map (·.1)
  else none

/-- The packet with which a broker accepts the connection. -/
def Move.accepted? (mv : Move) : Option ConnAck :=
  match mv.before.phase, mv.after.phase, mv.received? with
  | .greeting _ _, .pumping _, some (.connAck a) => some a
  | _, _, _ => none

/-- A message is taken for which no acknowledgement is awaited: it asks for none, or it is larger
than the broker allows. -/
def Move.isUnacknowledged (mv : Move) : Bool :=
  match mv.input, mv.after.phase with
  | .next _, .pumping _ => true
  | _, _ => false

/-- The broker's latest acceptance. -/
def acceptance (ms : List Move) : Option ConnAck := (ms.filterMap Move.accepted?).getLast?

section Moves

variable {p : Publisher} {mv : Move} {ms : List Move} {a b : Phase} {c c' : Connection}
  {packet : Packet} {answer : ConnAck} {s s₀ : Pumping} {m : Message}

theorem held?_of_isAway (h : a.isAway) : a.held? = none := by
  cases a with
  | pumping | settling => cases h
  | _ => rfl

theorem held?_of_update? {f : Connection → Connection} (h : a.update? f = some b) :
    b.held? = a.held?.map fun s => { s with connection := f s.connection } := by
  cases a with
  | greeting | pumping | settling =>
      cases h
      rfl
  | _ => cases h

theorem received?_of_receive (hi : mv.input = .link .packet)
    (hc : mv.before.phase.connection? = some c) (hr : c.receive = .ok (some (packet, c'))) :
    mv.received? = some packet := by
  rw [Move.received?, if_pos hi, hc, Option.bind_some, hr]
  rfl

theorem acceptance_concat_of_some (h : mv.accepted? = some answer) :
    acceptance (ms ++ [mv]) = some answer := by
  simp [acceptance, h]

theorem acceptance_concat_of_none (h : mv.accepted? = none) :
    acceptance (ms ++ [mv]) = acceptance ms := by
  simp [acceptance, h]

theorem accepted?_of_held? (h : mv.before.phase.held? = some s) : mv.accepted? = none := by
  unfold Move.accepted?
  split
  · rename_i hphase _ _
    rw [hphase] at h
    cases h
  · rfl

theorem received?_of_accepted? (h : mv.accepted? = some answer) :
    mv.received? = some (.connAck answer) := by
  unfold Move.accepted? at h
  split at h
  · rename_i hreceived
    rw [hreceived, Option.some.inj h]
  · cases h

/-! ### Accepted connections -/

/-- How a move has come to a connection that a broker has accepted. -/
inductive Holds (mv : Move) (s : Pumping) : Prop where
  | accepted {answer : ConnAck} (ha : mv.accepted? = some answer)
      (hl : s.connection.limits = .ofConnAck answer.properties)
      (hk : s.keepAlive.outstanding = false)
  | kept {s₀ : Pumping} (hs : mv.before.phase.held? = some s₀)
      (hl : s.connection.limits = s₀.connection.limits) (hk : s.keepAlive = s₀.keepAlive)
  /-- The broker has been asked whether it is there. -/
  | asked {s₀ : Pumping} (hs : mv.before.phase.held? = some s₀)
      (hl : s.connection.limits = s₀.connection.limits)
      (hk : s₀.keepAlive.tick? mv.world.now = some s.keepAlive)
  /-- An open question counts as answered. -/
  | answered {s₀ : Pumping} (hs : mv.before.phase.held? = some s₀)
      (hl : s.connection.limits = s₀.connection.limits)
      (hk : s.keepAlive = s₀.keepAlive.answered)
      (hm : mv.received?.isSome ∨ mv.isUnacknowledged)

theorem limits_number (s : Pumping) (m : Message) :
    (s.number m).2.limits = s.connection.limits := by
  unfold Pumping.number
  split_ifs <;> rfl

/-- Every move to an accepted connection has come to it in one of these ways. -/
theorem holds_of_step (h : p.Step mv.world mv.before.phase mv.input mv.after.phase mv.effects)
    (hs : mv.after.phase.held? = some s) : Holds mv s := by
  -- a step is taken apart by cases on its phases, which have to be variables
  obtain ⟨w, drained, ⟨a, before⟩, i, ⟨b, after⟩, es⟩ := mv
  change p.Step w a i b es at h
  change b.held? = some s at hs
  cases h with
  | away _ hb | unwelcome hb | lost hb | unsent hb | failed hb =>
      rw [held?_of_isAway hb] at hs
      cases hs
  | opened | left => cases hs
  | heard hf _ hb =>
      obtain ⟨s₀, hs₀, rfl⟩ := Option.map_eq_some_iff.1 ((held?_of_update? hb).symm.trans hs)
      exact .kept hs₀ (hf _).1 rfl
  | accepted hr hg hk =>
      obtain ⟨rfl, -, rfl⟩ := Connection.exists_of_greet hg
      subst hk
      obtain rfl := Option.some.inj hs
      refine .accepted ?_ rfl rfl
      rw [Move.accepted?, received?_of_receive rfl rfl hr]
  | ignored hr hk =>
      obtain rfl := Option.some.inj hs
      split_ifs at hk
      · refine .answered rfl (Connection.limits_of_receive hr) hk (.inl ?_)
        rw [received?_of_receive rfl rfl hr]
        rfl
      · exact .kept rfl (Connection.limits_of_receive hr) hk
  | pinged hk =>
      obtain rfl := Option.some.inj hs
      exact .asked rfl rfl hk
  | oversized =>
      obtain rfl := Option.some.inj hs
      exact .answered rfl (limits_number _ _) rfl (.inr rfl)
  | published =>
      obtain rfl := Option.some.inj hs
      exact .answered rfl rfl rfl (.inr rfl)
  | sent =>
      obtain rfl := Option.some.inj hs
      exact .kept rfl rfl rfl
  | waited hr | released hr =>
      obtain rfl := Option.some.inj hs
      exact .kept rfl (Connection.limits_of_receive hr) rfl
  | settled hr =>
      obtain rfl := Option.some.inj hs
      refine .answered rfl (Connection.limits_of_receive hr) rfl (.inl ?_)
      rw [received?_of_receive rfl rfl hr]
      rfl

end Moves

/-! ### Runs -/

/-- The runs of a publisher: the moves, oldest first, and the state that they lead to. -/
inductive Run (p : Publisher) (st₀ : State) : List Move → State → Prop where
  | nil : Run p st₀ [] st₀
  | snoc {ms : List Move} {mv : Move} (h : Run p st₀ ms mv.before)
      (hs : p.step? mv.world mv.drained mv.before mv.input = some (mv.after, mv.effects)) :
      Run p st₀ (ms ++ [mv]) mv.after

variable {p : Publisher} {st₀ st : State} {ms rest : List Move} {mv : Move}

/-- What holds at the start, and is kept by every case of a step, holds after every run. -/
theorem Run.induction (Inv : List Move → Phase → Prop) (h : Run p st₀ ms st)
    (start : Inv [] st₀.phase)
    (step : ∀ ms mv, Inv ms mv.before.phase →
      Step p mv.world mv.before.phase mv.input mv.after.phase mv.effects →
      Inv (ms ++ [mv]) mv.after.phase) :
    Inv ms st.phase := by
  induction h with
  | nil => exact start
  | snoc _ hs ih => exact step _ _ ih (step_of_step? hs)

theorem run_concat_iff :
    Run p st₀ (ms ++ [mv]) st ↔ Run p st₀ ms mv.before ∧
      p.step? mv.world mv.drained mv.before mv.input = some (mv.after, mv.effects) ∧
      st = mv.after := by
  constructor
  · intro h
    generalize hl : ms ++ [mv] = l at h
    cases h with
    | nil => simp at hl
    | snoc h hs =>
        obtain ⟨rfl, hmv⟩ := List.append_inj' hl rfl
        obtain rfl := (List.cons.inj hmv).1
        exact ⟨h, hs, rfl⟩
  · rintro ⟨h, hs, rfl⟩
    exact h.snoc hs

/-- A run that goes through a move has come to where the move starts. -/
theorem Run.split (h : Run p st₀ (ms ++ mv :: rest) st) :
    Run p st₀ ms mv.before ∧
      p.step? mv.world mv.drained mv.before mv.input = some (mv.after, mv.effects) := by
  induction rest using List.reverseRecOn generalizing st with
  | nil =>
      obtain ⟨hrun, hs, -⟩ := run_concat_iff.1 h
      exact ⟨hrun, hs⟩
  | append_singleton rest last ih =>
      rw [← List.cons_append, ← List.append_assoc] at h
      exact ih (run_concat_iff.1 h).1

/-! ### Playing a run -/

/-- The run that some inputs make, after some moves, while the queue is not drained. -/
def play? (p : Publisher) :
    List (Millis × Input) → List Move → State → Option (List Move × State)
  | [], ms, st => some (ms, st)
  | (now, i) :: script, ms, st =>
    match p.step? ⟨now, false⟩ false st i with
    | none => none
    | some (st', es) => play? p script (ms ++ [⟨⟨now, false⟩, false, st, i, st', es⟩]) st'

/-- What has been played is a run. -/
theorem Run.of_play? {script : List (Millis × Input)} {ms' : List Move} {st' : State}
    (h : Run p st₀ ms st) (hp : p.play? script ms st = some (ms', st')) : Run p st₀ ms' st' := by
  induction script generalizing ms st with
  | nil =>
      obtain ⟨rfl, rfl⟩ := Prod.mk.inj (Option.some.inj hp)
      exact h
  | cons next script ih =>
      simp only [play?] at hp
      split at hp
      · cases hp
      · rename_i st' es hs
        exact ih (@Run.snoc _ _ _ ⟨_, _, _, _, _, _⟩ h hs) hp

end Publisher

end TopicBridge
