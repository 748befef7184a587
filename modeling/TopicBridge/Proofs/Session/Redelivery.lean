/-
**Messages that come in again.**

A message at quality of service 2 is sent again as long as its receipt has not been confirmed, on
the next connection too.  A subscriber knows the identifiers of the messages that it has handed over
until the broker releases them, and does not hand over a message that it knows.  What it knows it
forgets when the connection is lost: a message that comes in on several connections is handed over
on each of them.

Main definitions:

* `Move.copies`, `Move.handsOver`, `Move.releases` — what a move does with a packet identifier;
* `Subscriber.life` — the moves since the last release of an identifier;
* `Subscriber.connections` — the number of connections on which a message comes in;
* `Phase.knows`, `Phase.awaits` — the subscriber knows a message, or is about to hand it over;
* `Subscriber.Turn` — what a step is to a single message.

Main results:

* `Subscriber.turn_of_step` — every step is a turn of every message;
* `Run.knows_iff` — a message is known on a connection if and only if it has come in there;
* `Run.countP_handsOver` — **a message is handed over once on every connection on which it comes
  in** before it is released.
-/

import TopicBridge.Proofs.Session.SubscriberRun

set_option autoImplicit false

namespace TopicBridge

open Mqtt

/-! ### The parts of a list -/

section Parts

variable {α : Type} {q : α → Bool}

/-- The last part of a list is what has come after the last separator.  What is no separator goes
there. -/
theorem exists_splitOnP_append_eq (q : α → Bool) (l : List α) :
    ∃ parts, ∀ t, (∀ a ∈ t, q a = false) →
      (l ++ t).splitOnP q = parts ++ [since q l ++ t] := by
  induction l using List.reverseRecOn with
  | nil => exact ⟨[], fun t ht => List.splitOnP_eq_singleton ht⟩
  | append_singleton l b ih =>
      cases hb : q b with
      | true =>
          refine ⟨l.splitOnP q, fun t ht => ?_⟩
          rw [List.append_assoc, List.singleton_append, List.splitOnP_append_cons l t hb,
            since_concat_of_pos hb, List.splitOnP_eq_singleton ht, List.nil_append]
      | false =>
          obtain ⟨parts, hparts⟩ := ih
          refine ⟨parts, fun t ht => ?_⟩
          rw [List.append_assoc, List.singleton_append, hparts _ (by simpa [hb] using ht),
            since_concat_of_neg hb, List.append_assoc, List.singleton_append]

end Parts

namespace Subscriber

/-! ### What a move does with an identifier -/

/-- A copy of the message with a packet identifier is read. -/
def Move.copies (n : UInt16) (mv : Move) : Bool :=
  match mv.received? with
  | some (.publish m) => m.qos = .exactlyOnce ∧ m.packetId = some n
  | _ => false

/-- The message with a packet identifier is handed over. -/
def Move.handsOver (n : UInt16) (mv : Move) : Bool :=
  match mv.input, mv.before.phase with
  | .taken, .delivering _ m id => m.qos = .exactlyOnce ∧ id = some n
  | _, _ => false

/-- The release of a packet identifier is read. -/
def Move.releases (n : UInt16) (mv : Move) : Bool :=
  match mv.received? with
  | some (.pubRel a) => a.packetId = n
  | _ => false

/-- The moves since the last release of a packet identifier: the life of the message that bears
it. -/
def life (n : UInt16) (ms : List Move) : List Move := since (Move.releases n) ms

/-- The number of connections on which a copy of a message has been read. -/
def connections (n : UInt16) (ms : List Move) : Nat :=
  (ms.splitOnP Move.isWelcome).countP fun c => c.any (Move.copies n)

variable {p : Subscriber} {n : UInt16} {ms : List Move} {mv : Move} {st : State}

theorem copies_iff : mv.copies n ↔
    ∃ m, mv.received? = some (.publish m) ∧ m.qos = .exactlyOnce ∧ m.packetId = some n := by
  unfold Move.copies
  split
  · rename_i m hm
    simp [hm]
  · rename_i hm
    simp only [Bool.false_eq_true, false_iff, not_exists, not_and]
    exact fun m hm' => absurd hm' (hm m)

theorem releases_iff : mv.releases n ↔ ∃ a, mv.received? = some (.pubRel a) ∧ a.packetId = n := by
  unfold Move.releases
  split
  · rename_i a ha
    simp [ha]
  · rename_i ha
    simp only [Bool.false_eq_true, false_iff, not_exists, not_and]
    exact fun a ha' => absurd ha' (ha a)

theorem handsOver_iff : mv.handsOver n ↔
    mv.input = .taken ∧ ∃ s m, mv.before.phase = .delivering s m (some n) ∧
      m.qos = .exactlyOnce := by
  unfold Move.handsOver
  split
  · rename_i s m id hi hphase
    simp only [hi, hphase, decide_eq_true_eq, true_and, Phase.delivering.injEq]
    exact ⟨fun ⟨hq, hid⟩ => ⟨s, m, ⟨rfl, rfl, hid⟩, hq⟩,
      fun ⟨s', m', ⟨_, hm, hid⟩, hq⟩ => ⟨hm ▸ hq, hid⟩⟩
  · rename_i hno
    simp only [Bool.false_eq_true, false_iff, not_and, not_exists]
    exact fun hi s m hphase => absurd hphase (hno s m _ hi)

/-! ### The connections of a message -/

@[simp] theorem connections_nil : connections n [] = 0 := by simp [connections]

theorem connections_concat_of_isWelcome (h : mv.isWelcome) :
    connections n (ms ++ [mv]) = connections n ms := by
  simp [connections, List.splitOnP_append_cons _ _ h]

theorem connections_concat_of_not_copies (h : mv.isWelcome = false) (hc : mv.copies n = false) :
    connections n (ms ++ [mv]) = connections n ms := by
  obtain ⟨parts, hparts⟩ := exists_splitOnP_append_eq Move.isWelcome ms
  have hms := hparts [] (by simp)
  rw [List.append_nil, List.append_nil] at hms
  rw [connections, connections, hparts [mv] (by simpa using h), hms]
  simp [List.countP_append, List.countP_cons, hc]

/-- A copy counts if it is the first on its connection. -/
theorem connections_concat_of_copies (h : mv.isWelcome = false) (hc : mv.copies n) :
    connections n (ms ++ [mv]) =
      connections n ms + if (current ms).any (Move.copies n) then 0 else 1 := by
  obtain ⟨parts, hparts⟩ := exists_splitOnP_append_eq Move.isWelcome ms
  have hms := hparts [] (by simp)
  rw [List.append_nil, List.append_nil] at hms
  rw [connections, connections, hparts [mv] (by simpa using h), hms]
  by_cases hany : (current ms).any (Move.copies n)
  all_goals simp_all [List.countP_append, current]

/-! ### What a subscriber knows -/

/-- A message has been handed over, or is about to be, and has not been released. -/
def Phase.knows (n : UInt16) : Phase → Prop
  | .serving s => n ∈ s.unreleased
  | .delivering s m id => n ∈ s.unreleased ∨ m.qos = .exactlyOnce ∧ id = some n
  | .reporting s _ => n ∈ s.unreleased
  | _ => False

/-- The number of hand-overs of a message that are still to come: one if it is on offer. -/
def Phase.awaits (n : UInt16) : Phase → Nat
  | .delivering _ m id => if m.qos = .exactlyOnce ∧ id = some n then 1 else 0
  | _ => 0

theorem Phase.isConnected_of_knows {a : Phase} (h : a.knows n) : a.isConnected := by
  cases a with
  | serving | delivering | reporting => rfl
  | _ => cases h

theorem Phase.awaits_of_isAway {a : Phase} (h : a.isAway) : a.awaits n = 0 := by
  cases a with
  | delivering => cases h
  | _ => rfl

theorem Phase.awaits_of_not_delivering {a : Phase} (h : ∀ s m id, a ≠ .delivering s m id) :
    a.awaits n = 0 := by
  cases a with
  | delivering s m id => exact absurd rfl (h s m id)
  | _ => rfl

theorem Phase.of_update? {a b : Phase} {f : Connection → Connection} (h : a.update? f = some b) :
    a.isConnected = b.isConnected ∧ a.knows n = b.knows n ∧ a.awaits n = b.awaits n := by
  cases a <;> cases h <;> exact ⟨rfl, rfl, rfl⟩

theorem Phase.of_afterAnswer {s : Serving} {b : Phase} (h : p.afterAnswer s = .ok b) :
    (b.knows n ↔ n ∈ s.unreleased) ∧ b.awaits n = 0 := by
  rcases afterAnswer_eq_ok h with ⟨-, rfl⟩ | ⟨-, rfl⟩
  · exact ⟨Iff.rfl, rfl⟩
  · exact ⟨Iff.rfl, rfl⟩

/-- The event on offer is the message that is awaited, or another one. -/
theorem awaits_of_taken (h : mv.input = .taken) :
    mv.before.phase.awaits n = if mv.handsOver n then 1 else 0 := by
  unfold Move.handsOver Phase.awaits
  rw [h]
  cases mv.before.phase <;> simp

/-! ### Turns -/

/-- What a move is to the message with a packet identifier: whether it is known and on offer
before and after. -/
inductive Turn (p : Subscriber) (n : UInt16) (mv : Move) : Prop where
  /-- The message is not concerned. -/
  | idle (hw : mv.isWelcome = false) (hc : mv.copies n = false) (hr : mv.releases n = false)
      (hh : mv.handsOver n = false)
      (hk : mv.after.phase.isConnected → mv.before.phase.isConnected ∧
        (mv.after.phase.knows n ↔ mv.before.phase.knows n))
      (ha : mv.after.phase.awaits n = mv.before.phase.awaits n ∨
        mv.after.isStopped ∧ mv.after.phase.awaits n = 0)
  | welcome (hw : mv.isWelcome)
  | release (hr : mv.releases n) (hk : ¬mv.after.phase.knows n) (ha : mv.after.phase.awaits n = 0)
  /-- A copy is to be handed over. -/
  | offer (hc : mv.copies n) (hk : ¬mv.before.phase.knows n) (hk' : mv.after.phase.knows n)
      (ha : mv.after.phase.awaits n = 1)
  /-- A copy goes no further. -/
  | drop (hc : mv.copies n)
      (hk : mv.before.phase.knows n ∨ ∃ m, mv.received? = some (.publish m) ∧ p.isOwn m)
      (hk' : mv.after.phase.isConnected → mv.after.phase.knows n)
      (ha : mv.after.phase.awaits n = 0)
  | handOver (hh : mv.handsOver n) (hk : mv.after.phase.isConnected → mv.after.phase.knows n)
      (ha : mv.after.phase.awaits n = 0)

/-- An input that is no packet and hands no message over, as a turn. -/
theorem turn_of_input (hi : mv.input ≠ .link .packet) (hh : mv.handsOver n = false)
    (hw : mv.isWelcome = false)
    (hk : mv.after.phase.isConnected → mv.before.phase.isConnected ∧
      (mv.after.phase.knows n ↔ mv.before.phase.knows n))
    (ha : mv.after.phase.awaits n = mv.before.phase.awaits n ∨
      mv.after.isStopped ∧ mv.after.phase.awaits n = 0) : Turn p n mv := by
  have hrec := received?_eq_none hi
  exact .idle hw (by simp [Move.copies, hrec]) (by simp [Move.releases, hrec]) hh hk ha

/-- A packet that concerns no message, or another one, as a turn. -/
theorem turn_of_packet {packet : Packet} (h : mv.received? = some packet)
    (hc : mv.copies n = false) (hr : mv.releases n = false)
    (hk : mv.after.phase.knows n ↔ mv.before.phase.knows n) (ha : mv.after.phase.awaits n = 0) :
    Turn p n mv := by
  obtain ⟨hi, s, c, hphase, -⟩ := received?_eq_some_iff.1 h
  have hb : mv.before.phase.isConnected := by rw [hphase]; rfl
  refine .idle (isWelcome_of_isConnected hb) hc hr (by simp [Move.handsOver, hi])
    (fun _ => ⟨hb, hk⟩) (.inl ?_)
  rw [ha, hphase]
  rfl

/-- A message that comes in and does not cost the connection, as a turn. -/
theorem turn_of_publish {m : Publish} (h : mv.received? = some (.publish m))
    (hother : ¬(m.qos = .exactlyOnce ∧ m.packetId = some n) →
      (mv.after.phase.knows n ↔ mv.before.phase.knows n) ∧ mv.after.phase.awaits n = 0)
    (hcopy : mv.copies n → m.qos = .exactlyOnce → m.packetId = some n → Turn p n mv) :
    Turn p n mv := by
  by_cases hm : m.qos = .exactlyOnce ∧ m.packetId = some n
  · exact hcopy (copies_iff.2 ⟨m, h, hm⟩) hm.1 hm.2
  · obtain ⟨hk, ha⟩ := hother hm
    exact turn_of_packet h (by simpa [Move.copies, h] using hm) (by simp [Move.releases, h]) hk ha

/-- What costs the connection, as a turn. -/
theorem turn_of_away (hb : mv.after.phase.isAway)
    (ha : mv.input = .taken ∨ ∀ s m id, mv.before.phase ≠ .delivering s m id)
    (hm : ∀ s m c, mv.input = .link .packet → mv.before.phase = .serving s →
      s.connection.receive = .ok (some (.publish m, c)) → s.Knows m ∨ p.isOwn m) :
    Turn p n mv := by
  have hcon := Phase.not_isConnected_of_isAway hb
  have hlater := Phase.awaits_of_isAway (n := n) hb
  -- the connection may be lost over a copy, a release, the hand-over, or something else
  by_cases hc : mv.copies n
  · obtain ⟨m, hrec, -, hid⟩ := copies_iff.1 hc
    obtain ⟨hi, s, c, hphase, hr⟩ := received?_eq_some_iff.1 hrec
    refine .drop hc ?_ (by simp [hcon]) hlater
    rcases hm s m c hi hphase hr with ⟨-, k, hk, hid'⟩ | hown
    · left
      rw [hid, Option.some.injEq] at hid'
      rw [hphase, hid']
      exact hk
    · exact .inr ⟨m, hrec, hown⟩
  by_cases hr : mv.releases n
  · exact .release hr (fun hk => by simp [Phase.isConnected_of_knows hk] at hcon) hlater
  by_cases hh : mv.handsOver n
  · exact .handOver hh (by simp [hcon]) hlater
  rw [Bool.not_eq_true] at hc hr hh
  refine .idle (isWelcome_of_isAway hb) hc hr hh (by simp [hcon]) (.inl ?_)
  rcases ha with hi | hd
  · rw [hlater, awaits_of_taken hi, hh]
    rfl
  · rw [hlater, Phase.awaits_of_not_delivering hd]

/-- **Every step is a turn of every message.** -/
theorem turn_of_step (h : Step p mv.before.phase mv.input mv.after.phase mv.effects) :
    Turn p n mv := by
  generalize ha : mv.before.phase = a, hi : mv.input = i, hb : mv.after.phase = b,
    he : mv.effects = es at h
  -- packets that are read become copies and releases, everything else leaves the message alone
  cases h with
  | stop hin =>
      refine turn_of_input (by rcases hin with rfl | rfl <;> simp [hi]) ?_
        (isWelcome_of_isAway (by rw [hb]; rfl)) (by simp [hb, Phase.isConnected]) (.inr ?_)
      · rcases hin with rfl | rfl <;> simp [Move.handsOver, hi]
      · simp [hb, State.isStopped, Phase.awaits]
  | away hb' ha' hm =>
      subst ha hi hb
      exact turn_of_away hb' ha' fun s m c hi => hm hi s m c
  | opened =>
      refine turn_of_input (by simp [hi]) ?_ ?_ (by simp [hb, Phase.isConnected]) (.inl ?_)
      all_goals simp [Move.isWelcome, Move.welcomed?, Move.handsOver, Phase.awaits, ha, hb, hi]
  | heard _ hin hup =>
      obtain ⟨hcon, hk, haw⟩ := Phase.of_update? (n := n) hup
      refine turn_of_input (by simpa [hi] using hin) (by simp [Move.handsOver, hi]) ?_ ?_ (.inl ?_)
      · cases a <;> cases hup <;> simp [Move.isWelcome, Move.welcomed?, ha, hb]
      · rw [ha, hb, hcon, hk]
        exact fun h => ⟨h, Iff.rfl⟩
      · rw [ha, hb, haw]
  | accepted => exact .welcome (by simp [Move.isWelcome, Move.welcomed?, ha, hb])
  | subscribed _ hans =>
      obtain ⟨hk, haw⟩ := Phase.of_afterAnswer (n := n) hans
      have hcon : mv.before.phase.isConnected := by rw [ha]; rfl
      refine turn_of_input (by simp [hi]) (by simp [Move.handsOver, hi, ha])
        (isWelcome_of_isConnected hcon) (fun _ => ⟨hcon, ?_⟩) (.inl ?_)
      · rw [ha, hb, hk]
        simp [Phase.knows]
      · rw [ha, hb, haw]
        rfl
  | repeated hr hk =>
      have hrec := received?_eq_some_iff.2 ⟨hi, _, _, ha, hr⟩
      refine turn_of_publish hrec (fun _ => ?_) fun hc hq hid => ?_
      · rw [ha, hb]
        exact ⟨Iff.rfl, rfl⟩
      · obtain ⟨-, k, hk, hid'⟩ := hk
        rw [hid, Option.some.injEq] at hid'
        subst hid'
        refine .drop hc (.inl ?_) (fun _ => ?_) ?_
        all_goals simp [ha, hb, Phase.knows, Phase.awaits, hk]
  | own hr hk ho hack =>
      have hrec := received?_eq_some_iff.2 ⟨hi, _, _, ha, hr⟩
      obtain ⟨-, -, hun⟩ := acknowledge_eq_ok hack
      refine turn_of_publish hrec (fun hm => ?_) fun hc hq hid => ?_
      · simp [ha, hb, Phase.knows, Phase.awaits, hun n, hm]
      · refine .drop hc (.inr ⟨_, hrec, ho⟩) (fun _ => ?_) ?_
        all_goals simp [hb, Phase.knows, Phase.awaits, hun n, hq, hid]
  | offered hr hk ho =>
      have hrec := received?_eq_some_iff.2 ⟨hi, _, _, ha, hr⟩
      refine turn_of_publish hrec (fun hm => ?_) fun hc hq hid => ?_
      · simp [ha, hb, Phase.knows, Phase.awaits, Message.ofPublish, hm]
      · refine .offer hc (fun hn => ?_) ?_ ?_
        · rw [ha] at hn
          exact hk ⟨hq, n, hn, hid⟩
        all_goals simp [hb, Phase.knows, Phase.awaits, Message.ofPublish, hq, hid]
  | @released s c x bytes hr _ =>
      -- the release is of this message or of another one
      have hrec := received?_eq_some_iff.2 ⟨hi, _, _, ha, hr⟩
      by_cases hx : x.packetId = n
      · refine .release (releases_iff.2 ⟨x, hrec, hx⟩) ?_ ?_
        all_goals simp [hb, Phase.knows, Phase.awaits, hx]
      · refine turn_of_packet hrec (by simp [Move.copies, hrec]) (by simp [Move.releases, hrec, hx])
          ?_ (by rw [hb]; rfl)
        simp [ha, hb, Phase.knows, Ne.symm hx]
  | answered hr _ hans =>
      obtain ⟨hk, haw⟩ := Phase.of_afterAnswer (n := n) hans
      have hrec := received?_eq_some_iff.2 ⟨hi, _, _, ha, hr⟩
      refine turn_of_packet hrec (by simp [Move.copies, hrec]) (by simp [Move.releases, hrec]) ?_
        (by rw [hb, haw])
      rw [ha, hb, hk]
      rfl
  | ignored hr hm hrel _ =>
      have hrec := received?_eq_some_iff.2 ⟨hi, _, _, ha, hr⟩
      refine turn_of_packet hrec ?_ ?_ (by rw [ha, hb]; rfl) (by rw [hb]; rfl)
      · rw [← Bool.not_eq_true, copies_iff]
        rintro ⟨m, hm', -⟩
        exact hm m (Option.some.inj (hrec.symm.trans hm'))
      · rw [← Bool.not_eq_true, releases_iff]
        rintro ⟨x, hx, -⟩
        exact hrel x (Option.some.inj (hrec.symm.trans hx))
  | pinged =>
      have hcon : mv.before.phase.isConnected := by rw [ha]; rfl
      refine turn_of_input (by simp [hi]) (by simp [Move.handsOver, hi])
        (isWelcome_of_isConnected hcon) (fun _ => ⟨hcon, ?_⟩) (.inl ?_) <;> rw [ha, hb] <;> rfl
  | handed hack =>
      rename_i s s' m id
      obtain ⟨-, -, hun⟩ := acknowledge_eq_ok hack
      by_cases hm : m.qos = .exactlyOnce ∧ id = some n
      · refine .handOver (by simp [Move.handsOver, hi, ha, hm]) (fun _ => ?_) ?_
        all_goals simp [hb, Phase.knows, Phase.awaits, hun n, hm]
      · have hcon : mv.before.phase.isConnected := by rw [ha]; rfl
        refine turn_of_input (by simp [hi]) (by simpa [Move.handsOver, hi, ha] using hm)
          (isWelcome_of_isConnected hcon) (fun _ => ⟨hcon, ?_⟩) (.inl ?_)
        all_goals simp [ha, hb, Phase.knows, Phase.awaits, hun n, hm]
  | reported =>
      have hcon : mv.before.phase.isConnected := by rw [ha]; rfl
      refine turn_of_input (by simp [hi]) (by simp [Move.handsOver, hi, ha])
        (isWelcome_of_isConnected hcon) (fun _ => ⟨hcon, ?_⟩) (.inl ?_) <;> rw [ha, hb] <;> rfl

/-! ### Runs -/

/-- Nothing else happens when a broker accepts the connection, and no message is known then. -/
theorem quiet_of_isWelcome (h : mv.isWelcome) :
    mv.copies n = false ∧ mv.releases n = false ∧ mv.handsOver n = false ∧
      ¬mv.after.phase.knows n ∧ mv.before.phase.awaits n = 0 ∧ mv.after.phase.awaits n = 0 := by
  unfold Move.isWelcome Move.welcomed? at h
  split at h
  · rename_i hb ha
    have hrec : mv.received? = none := by simp [Move.received?, hb]
    simp [Move.copies, Move.releases, Move.handsOver, hrec, ha, hb, Phase.knows, Phase.awaits]
  · cases h

theorem quiet_of_copies (h : mv.copies n) :
    mv.isWelcome = false ∧ mv.releases n = false ∧ mv.handsOver n = false ∧
      mv.before.phase.isConnected ∧ mv.before.phase.awaits n = 0 := by
  obtain ⟨m, hrec, -⟩ := copies_iff.1 h
  obtain ⟨hi, s, c, hphase, -⟩ := received?_eq_some_iff.1 hrec
  have hb : mv.before.phase.isConnected := by rw [hphase]; rfl
  refine ⟨isWelcome_of_isConnected hb, ?_, ?_, hb, ?_⟩
  all_goals simp [Move.releases, Move.handsOver, hrec, hi, hphase, Phase.awaits]

theorem quiet_of_handsOver (h : mv.handsOver n) :
    mv.isWelcome = false ∧ mv.copies n = false ∧ mv.releases n = false ∧
      mv.before.phase.knows n ∧ mv.before.phase.awaits n = 1 := by
  obtain ⟨hi, s, m, hphase, hq⟩ := handsOver_iff.1 h
  have hb : mv.before.phase.isConnected := by rw [hphase]; rfl
  have hrec : mv.received? = none := by simp [Move.received?, hi]
  refine ⟨isWelcome_of_isConnected hb, ?_, ?_, ?_, ?_⟩
  all_goals simp [Move.copies, Move.releases, hrec, hphase, hq, Phase.knows, Phase.awaits]

theorem life_concat_of_releases (hr : mv.releases n) : life n (ms ++ [mv]) = [] :=
  since_concat_of_pos hr

/-- Every move but the release of a message goes on with its life. -/
theorem life_concat (hr : mv.releases n = false) : life n (ms ++ [mv]) = life n ms ++ [mv] :=
  since_concat_of_neg hr

/-- On the current connection a move adds at most itself to the copies. -/
theorem any_current_life_concat (hw : mv.isWelcome = false) (hr : mv.releases n = false) :
    (current (life n (ms ++ [mv]))).any (Move.copies n) =
      ((current (life n ms)).any (Move.copies n) || mv.copies n) := by
  rw [life_concat hr, current, since_concat_of_neg hw, List.any_append]
  simp [current]

/-- A message is known on a connection if and only if it has come in there. -/
theorem Run.knows_iff {shutdown : Bool} (h : Run p (p.start shutdown) ms st)
    (hc : st.phase.isConnected) :
    st.phase.knows n ↔ (current (life n ms)).any (Move.copies n) := by
  refine h.induction (fun ms st => st.phase.isConnected →
    (st.phase.knows n ↔ (current (life n ms)).any (Move.copies n))) ?_ ?_ hc
  · cases shutdown <;> simp [start, Phase.isConnected]
  · intro ms mv ih _ hstep hcon
    cases turn_of_step (n := n) hstep with
    | idle hw hc hr _ hk _ =>
        obtain ⟨hb, hk⟩ := hk hcon
        rw [any_current_life_concat hw hr, hk, ih hb, hc, Bool.or_false]
    | welcome hw =>
        obtain ⟨-, hr, -, hk, -⟩ := quiet_of_isWelcome (n := n) hw
        rw [life_concat hr, current, since_concat_of_pos hw]
        simp [hk]
    | release hr hk _ =>
        rw [life_concat_of_releases hr]
        simp [current, hk]
    | offer hc _ hk' _ =>
        obtain ⟨hw, hr, -⟩ := quiet_of_copies hc
        simp [any_current_life_concat hw hr, hc, hk']
    | drop hc _ hk' _ =>
        obtain ⟨hw, hr, -⟩ := quiet_of_copies hc
        simp [any_current_life_concat hw hr, hc, hk' hcon]
    | handOver hh hk _ =>
        -- what is on offer is known, and so it has come in before
        obtain ⟨hw, hc, hr, hb, -⟩ := quiet_of_handsOver hh
        have hany := (ih (Phase.isConnected_of_knows hb)).1 hb
        simp [any_current_life_concat hw hr, hany, hk hcon]

/-- No copy of a message has been published by the relay itself. -/
def Foreign (p : Subscriber) (n : UInt16) (ms : List Move) : Prop :=
  ∀ mv ∈ life n ms, mv.copies n → ∀ m, mv.received? = some (.publish m) → p.isOwn m = false

theorem Foreign.of_concat (h : p.Foreign n (ms ++ [mv])) (hr : mv.releases n = false) :
    p.Foreign n ms := by
  intro mv' hmv'
  refine h mv' ?_
  rw [life_concat hr]
  exact List.mem_append_left _ hmv'

theorem countP_handsOver_concat (hr : mv.releases n = false) :
    (life n (ms ++ [mv])).countP (Move.handsOver n) =
      (life n ms).countP (Move.handsOver n) + if mv.handsOver n then 1 else 0 := by
  rw [life_concat hr, List.countP_append, List.countP_singleton]

/-- A move that brings no copy leaves the number of connections. -/
theorem connections_life_concat (hr : mv.releases n = false) (hc : mv.copies n = false) :
    connections n (life n (ms ++ [mv])) = connections n (life n ms) := by
  rw [life_concat hr]
  cases hw : mv.isWelcome with
  | true => exact connections_concat_of_isWelcome hw
  | false => exact connections_concat_of_not_copies hw hc

/-- A copy counts if the message is not known yet. -/
theorem Run.connections_life_of_copies {shutdown : Bool} (h : Run p (p.start shutdown) ms mv.before)
    (hc : mv.copies n) :
    (mv.before.phase.knows n → connections n (life n (ms ++ [mv])) = connections n (life n ms)) ∧
      (¬mv.before.phase.knows n →
        connections n (life n (ms ++ [mv])) = connections n (life n ms) + 1) := by
  obtain ⟨hw, hr, -, hb, -⟩ := quiet_of_copies hc
  rw [h.knows_iff hb, life_concat hr, connections_concat_of_copies hw hc]
  constructor <;> intro hk
  · rw [if_pos hk, Nat.add_zero]
  · rw [if_neg hk]

/-- **A message is handed over once on every connection on which it comes in** before it is
released: never more often, and just as often once nothing is on offer, unless the subscriber has
been stopped or the message is the relay's own. -/
theorem Run.countP_handsOver {shutdown : Bool} (h : Run p (p.start shutdown) ms st) :
    (life n ms).countP (Move.handsOver n) + st.phase.awaits n ≤ connections n (life n ms) ∧
      (p.Foreign n ms → st.isStopped = false →
        (life n ms).countP (Move.handsOver n) + st.phase.awaits n =
          connections n (life n ms)) := by
  induction h with
  | nil => cases shutdown <;> simp [life, start, Phase.awaits]
  | snoc h hs ih =>
      rename_i ms mv
      obtain ⟨hle, heq⟩ := ih
      have hlive := isStopped_of_step? hs
      cases turn_of_step (n := n) (step_of_step? hs) with
      | idle hw hc hr hh _ ha =>
          rw [countP_handsOver_concat hr, connections_life_concat hr hc, if_neg (by simp [hh])]
          rcases ha with ha | ⟨hstop, ha⟩
          · rw [ha]
            exact ⟨hle, fun hfor _ => heq (hfor.of_concat hr) hlive⟩
          · refine ⟨by omega, fun _ hlive' => ?_⟩
            rw [hstop] at hlive'
            cases hlive'
      | welcome hw =>
          obtain ⟨hc, hr, hh, -, ha, ha'⟩ := quiet_of_isWelcome (n := n) hw
          rw [countP_handsOver_concat hr, connections_life_concat hr hc, if_neg (by simp [hh]), ha']
          rw [ha] at hle heq
          exact ⟨hle, fun hfor _ => heq (hfor.of_concat hr) hlive⟩
      | release hr _ ha =>
          rw [life_concat_of_releases hr, ha]
          simp
      | offer hc hk _ ha =>
          obtain ⟨-, hr, hh, -, ha'⟩ := quiet_of_copies hc
          -- the first copy on its connection: one more connection, and one more on offer
          have hmore := (h.connections_life_of_copies hc).2 hk
          rw [countP_handsOver_concat hr, hmore, if_neg (by simp [hh]), ha]
          exact ⟨by omega, fun hfor _ => by have := heq (hfor.of_concat hr) hlive; omega⟩
      | drop hc hk _ ha =>
          obtain ⟨-, hr, hh, -, ha'⟩ := quiet_of_copies hc
          have hconn := h.connections_life_of_copies hc
          rw [countP_handsOver_concat hr, if_neg (by simp [hh]), ha]
          constructor
          · by_cases hknown : mv.before.phase.knows n
            · rw [hconn.1 hknown]
              omega
            · rw [hconn.2 hknown]
              omega
          · intro hfor _
            have hsame := heq (hfor.of_concat hr) hlive
            rcases hk with hknown | ⟨m, hm, hown⟩
            · rw [hconn.1 hknown]
              omega
            · -- a message of the relay itself is dropped although it is not known
              have hmem : mv ∈ life n (ms ++ [mv]) := by
                rw [life_concat hr]
                exact List.mem_append_right _ (List.mem_singleton_self mv)
              rw [hfor mv hmem hc m hm] at hown
              cases hown
      | handOver hh _ ha =>
          obtain ⟨hw, hc, hr, -, ha'⟩ := quiet_of_handsOver hh
          rw [countP_handsOver_concat hr, connections_life_concat hr hc, if_pos hh, ha]
          exact ⟨by omega, fun hfor _ => by have := heq (hfor.of_concat hr) hlive; omega⟩

/-- The confirmation that a message has been received is written. -/
def Move.confirms (n : UInt16) (mv : Move) : Bool :=
  (Effect.written mv.effects).any fun bytes =>
    (Packet.encode (.pubRec ⟨n, .success⟩)).toOption = some bytes

/-- A subscriber to `data/#`. -/
def sampler : Subscriber where
  settings := {
    name := "forward/sub"
    clientId := "relay"
    username := none
    password := none
    keepAlive := 30
    connectTimeout := 10000
    reconnectMin := 1000
    reconnectMax := 60000
    maxPacketSize := 65536 }
  interests := [⟨1, ⟨"data/#", by decide +kernel⟩, .exactlyOnce⟩]
  relayId := none

/-- The message `data/q2` under the identifier 5. -/
def sample (dup : Bool) : Bytes :=
  [if dup then 0x3c else 0x34, 12, 0, 7, 0x64, 0x61, 0x74, 0x61, 0x2f, 0x71, 0x32, 0, 5, 0]

/-- A broker that knows the session accepts the connection, grants the subscription, and sends the
message. -/
def resumed (dup : Bool) : List Input :=
  let answers : Bytes := [0x20, 3, 1, 0, 0, 0x90, 4, 0, 1, 0, 2]
  [.taken, .link .opened, .link (.arrived (answers ++ sample dup)), .link .packet, .taken,
    .link .packet, .taken, .link .packet]

/-- A message that comes in twice on a connection is handed over once. -/
theorem countP_handsOver_again :
    ∃ ms st, Run sampler (sampler.start false) ms st ∧ sampler.Foreign 5 ms ∧
      st.isStopped = false ∧ st.phase.awaits 5 = 0 ∧ (life 5 ms).countP (Move.copies 5) = 2 ∧
      (life 5 ms).countP (Move.handsOver 5) = 1 := by
  have hfacts : (sampler.play? (timed 0 (resumed false ++
      [.taken, .link (.arrived (sample true)), .link .packet])) [] (sampler.start false)).map
        (fun (ms, st) => (st.isStopped, st.phase.awaits 5, (life 5 ms).countP (Move.copies 5),
          connections 5 (life 5 ms))) = some (false, 0, 2, 1) := by decide +kernel
  obtain ⟨⟨ms, st⟩, hplay, hms⟩ := Option.map_eq_some_iff.1 hfacts
  simp only [Prod.mk.injEq] at hms
  obtain ⟨hlive, hoffer, hcopies, hconn⟩ := hms
  have hrun := Run.nil.of_play? hplay
  have hforeign : sampler.Foreign 5 ms := fun _ _ _ _ _ => rfl
  have hcount := hrun.countP_handsOver.2 hforeign hlive
  rw [hoffer, hconn] at hcount
  exact ⟨ms, st, hrun, hforeign, hlive, hoffer, hcopies, hcount⟩

/-- The connection fails before the message is confirmed, and the broker sends it again on the
next one. -/
def interrupted : List (Surroundings × Input) :=
  timed 0 (resumed false ++ [.link (.failed "reset"), .taken, .taken]) ++
    timed 1000 (.link .timeUp :: resumed true ++ [.taken])

/-- A message that comes in on two connections of one session is handed over on both.  Before the
last move nothing has been confirmed, and nothing is ever released. -/
theorem handsOver_twice :
    ∃ ms st, Run sampler (sampler.start false) ms st ∧
      ms.filterMap Move.welcomed? = [true, true] ∧ ms.dropLast.any (Move.confirms 5) = false ∧
      ms.any (Move.releases 5) = false ∧ ms.countP (Move.handsOver 5) = 2 := by
  have hfacts : (sampler.play? interrupted [] (sampler.start false)).map
        (fun (ms, _) => (ms.filterMap Move.welcomed?, ms.dropLast.any (Move.confirms 5),
          ms.any (Move.releases 5), ms.countP (Move.handsOver 5))) =
        some ([true, true], false, false, 2) := by decide +kernel
  obtain ⟨⟨ms, st⟩, hplay, hms⟩ := Option.map_eq_some_iff.1 hfacts
  simp only [Prod.mk.injEq] at hms
  exact ⟨ms, st, Run.nil.of_play? hplay, hms⟩

end Subscriber

end TopicBridge
