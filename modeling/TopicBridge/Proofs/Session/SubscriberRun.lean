/-
**The runs of a subscriber.**

A run is the list of the moves that a subscriber has made, oldest first.  Nothing is assumed of the
inputs: the stream, the clock and the one who takes the events may do what they like, and at every
step.  What the subscriber has received and handed over can be read off the moves, and so can the
part of a run that belongs to the current connection.

Main definitions:

* `TopicBridge.since` — what has come after the last element of some kind;
* `Subscriber.Move`, `Subscriber.Run` — a step with all that it depends on, and the runs;
* `Move.received?`, `Move.handed?`, `Move.welcomed?` — the packet that is read, the event that is
  handed over, and whether a broker accepts the connection;
* `Subscriber.received`, `Subscriber.handed` — the packets and the events of some moves;
* `Subscriber.current` — the moves on the current connection;
* `Subscriber.timed`, `Subscriber.play?` — inputs at a given time, and the run that some inputs
  make.

Main results:

* `Run.induction` — what holds at the start and is kept by every case of a step holds after a run;
* `Run.split` — a run that goes through a move has come to where it starts;
* `Run.of_play?` — what has been played is a run.
-/

import Mathlib.Data.List.DropRight
import TopicBridge.Proofs.Session.SubscriberStep

set_option autoImplicit false

namespace TopicBridge

open Mqtt

/-! ### The recent part of a list -/

section Since

variable {α β : Type} {q : α → Bool} {l : List α} {a : α}

/-- What has come after the last element of some kind. -/
def since (q : α → Bool) (l : List α) : List α := l.rtakeWhile fun a => !q a

@[simp] theorem since_nil : since q [] = [] := List.rtakeWhile_nil _

theorem since_concat_of_pos (h : q a) : since q (l ++ [a]) = [] :=
  List.rtakeWhile_concat_neg _ _ _ (by simp [h])

theorem since_concat_of_neg (h : q a = false) : since q (l ++ [a]) = since q l ++ [a] :=
  List.rtakeWhile_concat_pos _ _ _ (by simp [h])

theorem eq_false_of_mem_since (h : a ∈ since q l) : q a = false := by
  simpa using List.mem_rtakeWhile_imp h

/-- It is the end of the list. -/
theorem exists_append_since (q : α → Bool) (l : List α) : ∃ front, l = front ++ since q l := by
  obtain ⟨front, hfront⟩ := List.rtakeWhile_suffix (fun a => !q a) l
  exact ⟨front, hfront.symm⟩

theorem mem_of_mem_since_append {l' : List α} (h : a ∈ since q (l ++ l')) (hq : ∃ b ∈ l', q b) :
    a ∈ l' := by
  induction l' using List.reverseRecOn with
  | nil => simp at hq
  | append_singleton l' c ih =>
      rw [← List.append_assoc] at h
      cases hc : q c with
      | true =>
          rw [since_concat_of_pos hc] at h
          cases h
      | false =>
          rw [since_concat_of_neg hc, List.mem_append] at h
          have hbefore : ∃ b ∈ l', q b := by simpa [hc] using hq
          exact List.mem_append.2 (h.imp_left fun h => ih h hbefore)

theorem filterMap_concat (f : α → Option β) :
    (l ++ [a]).filterMap f = l.filterMap f ++ (f a).toList := by
  rw [List.filterMap_append]
  cases h : f a <;> simp [h]

end Since

namespace Subscriber

/-! ### Moves -/

/-- A step, with all that it depends on and all that it does. -/
structure Move where
  world : Surroundings
  before : State
  input : Input
  after : State
  effects : List Effect

/-- The packet that is read while the subscriptions are served. -/
def Move.received? (mv : Move) : Option Packet :=
  match mv.input, mv.before.phase with
  | .link .packet, .serving s =>
    match s.connection.receive with
    | .ok (some (packet, _)) => some packet
    | _ => none
  | _, _ => none

/-- The event that is handed over. -/
def Move.handed? (mv : Move) : Option SessionEvent :=
  match mv.input with
  | .taken => mv.before.offer?
  | _ => none

/-- Whether a broker accepts the connection, and if so whether it knows the session. -/
def Move.welcomed? (mv : Move) : Option Bool :=
  match mv.before.phase, mv.after.phase with
  | .greeting _ _, .welcoming _ _ present => some present
  | _, _ => none

/-- Whether a broker accepts the connection. -/
def Move.isWelcome (mv : Move) : Bool := mv.welcomed?.isSome

/-- The packets that are read in some moves. -/
def received (ms : List Move) : List Packet := ms.filterMap Move.received?

/-- The events that are handed over in some moves. -/
def handed (ms : List Move) : List SessionEvent := ms.filterMap Move.handed?

/-- The moves on the current connection, or on the last one if there is none. -/
def current (ms : List Move) : List Move := since Move.isWelcome ms

theorem received?_eq_some_iff {mv : Move} {packet : Packet} :
    mv.received? = some packet ↔ mv.input = .link .packet ∧ ∃ s c,
      mv.before.phase = .serving s ∧ s.connection.receive = .ok (some (packet, c)) := by
  constructor
  · intro h
    unfold Move.received? at h
    split at h
    · rename_i s hi hphase
      split at h
      · rename_i packet' c hr
        obtain rfl := Option.some.inj h
        exact ⟨hi, s, c, hphase, hr⟩
      · cases h
    · cases h
  · rintro ⟨hi, s, c, hphase, hr⟩
    simp [Move.received?, hi, hphase, hr]

theorem received?_eq_none {mv : Move} (h : mv.input ≠ .link .packet) : mv.received? = none := by
  cases hr : mv.received? with
  | none => rfl
  | some packet => exact absurd (received?_eq_some_iff.1 hr).1 h

/-- Whether there is a connection that a broker has accepted. -/
def Phase.isConnected : Phase → Bool
  | .welcoming _ _ _ | .serving _ | .delivering _ _ _ | .reporting _ _ => true
  | _ => false

theorem Phase.not_isConnected_of_isAway {a : Phase} (h : a.isAway) : a.isConnected = false := by
  cases a with
  | welcoming | serving | delivering | reporting => cases h
  | _ => rfl

section Welcome

variable {mv : Move}

theorem isWelcome_of_isConnected (h : mv.before.phase.isConnected) : mv.isWelcome = false := by
  unfold Move.isWelcome Move.welcomed?
  split
  · rename_i hb _
    rw [hb] at h
    cases h
  · rfl

theorem isWelcome_of_isAway (h : mv.after.phase.isAway) : mv.isWelcome = false := by
  unfold Move.isWelcome Move.welcomed?
  split
  · rename_i ha
    rw [ha] at h
    cases h
  · rfl

theorem current_of_isWelcome {ms : List Move} (h : mv.isWelcome) : current (ms ++ [mv]) = [] :=
  since_concat_of_pos h

theorem current_concat {ms : List Move} (h : mv.isWelcome = false) :
    current (ms ++ [mv]) = current ms ++ [mv] :=
  since_concat_of_neg h

end Welcome

/-! ### Runs -/

/-- The runs of a subscriber: the moves, oldest first, and the state that they lead to. -/
inductive Run (p : Subscriber) (st₀ : State) : List Move → State → Prop where
  | nil : Run p st₀ [] st₀
  | snoc {ms : List Move} {mv : Move} (h : Run p st₀ ms mv.before)
      (hs : p.step? mv.world mv.before mv.input = some (mv.after, mv.effects)) :
      Run p st₀ (ms ++ [mv]) mv.after

variable {p : Subscriber} {st₀ st : State} {ms rest : List Move} {mv : Move}

/-- What holds at the start, and is kept by every case of a step, holds after every run. -/
theorem Run.induction (Inv : List Move → State → Prop) (h : Run p st₀ ms st) (start : Inv [] st₀)
    (step : ∀ ms mv, Inv ms mv.before → mv.before.isStopped = false →
      Step p mv.before.phase mv.input mv.after.phase mv.effects → Inv (ms ++ [mv]) mv.after) :
    Inv ms st := by
  induction h with
  | nil => exact start
  | snoc _ hs ih => exact step _ _ ih (isStopped_of_step? hs) (step_of_step? hs)

theorem run_concat_iff :
    Run p st₀ (ms ++ [mv]) st ↔ Run p st₀ ms mv.before ∧
      p.step? mv.world mv.before mv.input = some (mv.after, mv.effects) ∧ st = mv.after := by
  constructor
  · intro h
    generalize hl : ms ++ [mv] = l at h
    cases h with
    | nil => simp at hl
    | snoc h hs =>
        obtain ⟨rfl, hmv⟩ := List.append_inj' hl rfl
        obtain rfl := (List.cons.inj hmv).1
        exact ⟨h, hs, rfl⟩
  · rintro ⟨h, hs, rfl⟩
    exact h.snoc hs

/-- A run that goes through a move has come to where the move starts. -/
theorem Run.split (h : Run p st₀ (ms ++ mv :: rest) st) :
    Run p st₀ ms mv.before ∧
      p.step? mv.world mv.before mv.input = some (mv.after, mv.effects) := by
  induction rest using List.reverseRecOn generalizing st with
  | nil =>
      obtain ⟨hrun, hs, -⟩ := run_concat_iff.1 h
      exact ⟨hrun, hs⟩
  | append_singleton rest last ih =>
      rw [← List.cons_append, ← List.append_assoc] at h
      exact ih (run_concat_iff.1 h).1

/-! ### Playing a run -/

/-- Some inputs at a given time, before everything is to stop. -/
def timed (now : Millis) (inputs : List Input) : List (Surroundings × Input) :=
  inputs.map (⟨now, false⟩, ·)

/-- The run that some inputs make, after some moves. -/
def play? (p : Subscriber) :
    List (Surroundings × Input) → List Move → State → Option (List Move × State)
  | [], ms, st => some (ms, st)
  | (w, i) :: script, ms, st =>
    match p.step? w st i with
    | none => none
    | some (st', es) => play? p script (ms ++ [⟨w, st, i, st', es⟩]) st'

/-- What has been played is a run. -/
theorem Run.of_play? {script : List (Surroundings × Input)} {ms' : List Move} {st' : State}
    (h : Run p st₀ ms st) (hp : p.play? script ms st = some (ms', st')) : Run p st₀ ms' st' := by
  induction script generalizing ms st with
  | nil =>
      obtain ⟨rfl, rfl⟩ := Prod.mk.inj (Option.some.inj hp)
      exact h
  | cons next script ih =>
      simp only [play?] at hp
      split at hp
      · cases hp
      · rename_i st' es hs
        exact ih (@Run.snoc _ _ _ ⟨_, _, _, _, _⟩ h hs) hp

end Subscriber

end TopicBridge
