/-
**The packets that subscribe, and what their identifiers are good for.**

A subscriber sends all its subscriptions back to back.  The identifier of each packet comes from a
counter of 16 bits that leaves out zero and starts at 1 on every connection; what has been
subscribed to is remembered under it until the answer comes in.  The counter comes round after
65535 packets.  From there on a packet has the identifier of an earlier one, and what is remembered
of the earlier one is replaced: of all the packets the last 65535 are remembered, and an answer is
credited to the last packet that has its identifier, whichever of them it answers.

Main definitions:

* `Subscriber.packetIdAt`, `Subscriber.packets` — the packets of a connection, in order;
* `Subscriber.kept` — the subscriptions that are remembered when all packets have been sent;
* `Subscriber.latest` — the last packet that has the identifier of a given one;
* `Move.Credits` — what an answer does to the subscription that it is credited to;
* `Subscriber.Subscribes` — what a move does about the subscriptions of its connection.

Main results:

* `Subscriber.nodup_round_iff` — when the identifiers differ;
* `Subscriber.foldl_remember` — what is remembered of packets that are sent back to back;
* `Subscriber.lookup_kept` — which of them an identifier stands for;
* `Run.expects` — what is remembered is what has no answer, of what was kept;
* `Run.subscribes` — **what is sent for the subscriptions, and what each answer is credited to**.
-/

import Mathlib.Data.List.Nodup
import TopicBridge.Proofs.Session.SubscriptionRound

set_option autoImplicit false

namespace TopicBridge

open Mqtt

namespace Subscriber

/-! ### Identifiers -/

/-- The identifier of the packet at a place, where the first place is 0. -/
def packetIdAt (k : Nat) : UInt16 := UInt16.ofNat (k % 65535 + 1)

theorem toNat_packetIdAt (k : Nat) : (packetIdAt k).toNat = k % 65535 + 1 := by
  have hlt : k % 65535 < 65535 := Nat.mod_lt k (by decide)
  rw [packetIdAt]
  exact UInt16.toNat_ofNat_of_lt' (by rw [UInt16.size]; omega)

theorem packetIdAt_ne_zero (k : Nat) : packetIdAt k ≠ 0 := by
  intro h
  have hnat := toNat_packetIdAt k
  rw [h] at hnat
  cases hnat

/-- Two packets have the same identifier if a number of whole rounds lies between them. -/
theorem packetIdAt_eq_iff {j k : Nat} : packetIdAt j = packetIdAt k ↔ j % 65535 = k % 65535 := by
  rw [← UInt16.toNat_inj, toNat_packetIdAt, toNat_packetIdAt]
  omega

/-- The counter goes from place to place. -/
theorem nextAfter_packetIdAt (k : Nat) :
    Connection.nextAfter (packetIdAt k) = packetIdAt (k + 1) := by
  have hlt : k % 65535 < 65535 := Nat.mod_lt k (by decide)
  have hk := toNat_packetIdAt k
  have hnext := toNat_packetIdAt (k + 1)
  rw [← UInt16.toNat_inj]
  by_cases hlast : k % 65535 = 65534
  · -- after 65535 follows 1
    have hwrap : packetIdAt k + 1 = 0 := by
      rw [← UInt16.toNat_inj, UInt16.toNat_add, hk, hlast]
      rfl
    rw [Connection.nextAfter, if_pos hwrap, hnext, UInt16.toNat_one]
    omega
  · rw [toNat_nextAfter _ (by omega), hk, hnext]
    omega

/-! ### The packets of a connection -/

/-- The packets of some subscriptions, the first of which stands at place `k`. -/
def packets (withIds : Bool) (k : Nat) (l : List Interest) : List Subscribe :=
  l.mapIdx fun j i => subscribePacket (packetIdAt (k + j)) i withIds

theorem packets_cons (withIds : Bool) (k : Nat) (i : Interest) (l : List Interest) :
    packets withIds k (i :: l) =
      subscribePacket (packetIdAt k) i withIds :: packets withIds (k + 1) l := by
  simp only [packets, List.mapIdx_cons, Nat.add_zero, Nat.add_assoc, Nat.add_comm 1]

theorem numbered_packetIdAt (k : Nat) (l : List Interest) :
    numbered (packetIdAt k) l = l.mapIdx fun j i => (packetIdAt (k + j), i.id) := by
  induction l generalizing k with
  | nil => rfl
  | cons i l ih =>
      rw [numbered, nextAfter_packetIdAt, ih, List.mapIdx_cons]
      simp only [Nat.add_zero, Nat.add_assoc, Nat.add_comm 1]

variable {p : Subscriber}

/-- The subscriptions of a connection, place by place. -/
theorem round_eq (p : Subscriber) :
    p.round = p.interests.mapIdx fun k i => (packetIdAt k, i.id) := by
  have hnumbered := numbered_packetIdAt 0 p.interests
  simp only [Nat.zero_add] at hnumbered
  exact hnumbered

theorem length_round (p : Subscriber) : p.round.length = p.interests.length := by
  rw [round_eq, List.length_mapIdx]

theorem ne_zero_of_mem_round {e : UInt16 × UInt32} (h : e ∈ p.round) : e.1 ≠ 0 := by
  rw [round_eq, List.mem_mapIdx] at h
  obtain ⟨k, -, rfl⟩ := h
  exact packetIdAt_ne_zero k

/-- **The identifiers of a connection differ exactly with at most 65535 subscriptions.** -/
theorem nodup_round_iff : (p.round.map Prod.fst).Nodup ↔ p.interests.length ≤ 65535 := by
  refine ⟨fun h => ?_, nodup_round⟩
  by_contra hlen
  -- the first packet and the one at place 65535
  have hfirst : 0 < (p.round.map Prod.fst).length := by
    rw [List.length_map, length_round]
    omega
  have hlast : 65535 < (p.round.map Prod.fst).length := by
    rw [List.length_map, length_round]
    omega
  have hsame : (p.round.map Prod.fst)[0] = (p.round.map Prod.fst)[65535] := by
    simp only [round_eq, List.getElem_map, List.getElem_mapIdx]
    exact packetIdAt_eq_iff.2 rfl
  have hzero := (List.Nodup.getElem_inj_iff h).1 hsame
  omega

/-! ### What is remembered -/

/-- What is remembered after a further packet. -/
def remember (pending : List (UInt16 × UInt32)) (e : UInt16 × UInt32) : List (UInt16 × UInt32) :=
  (pending.filter fun x => x.1 ≠ e.1) ++ [e]

section Remember

variable {l : List Interest}

theorem exists_of_mem_drop_mapIdx {d : Nat} {e : UInt16 × UInt32}
    (h : e ∈ (l.mapIdx fun k i => (packetIdAt k, i.id)).drop d) :
    ∃ k i, d ≤ k ∧ l[k]? = some i ∧ e = (packetIdAt k, i.id) := by
  obtain ⟨j, hj⟩ := List.mem_iff_getElem?.1 h
  rw [List.getElem?_drop, List.getElem?_mapIdx, Option.map_eq_some_iff] at hj
  obtain ⟨i, hi, rfl⟩ := hj
  exact ⟨d + j, i, Nat.le_add_right d j, hi, rfl⟩

/-- A further packet takes the place of the one before it that has the same identifier. -/
theorem filter_drop_mapIdx (l : List Interest) :
    ((l.mapIdx fun k i => (packetIdAt k, i.id)).drop (l.length - 65535)).filter
        (fun e => e.1 ≠ packetIdAt l.length) =
      (l.mapIdx fun k i => (packetIdAt k, i.id)).drop (l.length + 1 - 65535) := by
  have hkeep {d : Nat} (hd : l.length < d + 65535) :
      ((l.mapIdx fun k i => (packetIdAt k, i.id)).drop d).filter
          (fun e => e.1 ≠ packetIdAt l.length) =
        (l.mapIdx fun k i => (packetIdAt k, i.id)).drop d := by
    refine List.filter_eq_self.2 fun e he => ?_
    obtain ⟨k, i, hk, hi, rfl⟩ := exists_of_mem_drop_mapIdx he
    have hlt := (List.getElem?_eq_some_iff.1 hi).1
    rw [decide_eq_true_eq, ne_eq, packetIdAt_eq_iff]
    omega
  rcases Nat.lt_or_ge l.length 65535 with hlt | hge
  · rw [show l.length + 1 - 65535 = l.length - 65535 by omega]
    exact hkeep (by omega)
  · -- the first of those that are remembered has the identifier
    have hlen : l.length - 65535 < (l.mapIdx fun k i => (packetIdAt k, i.id)).length := by
      rw [List.length_mapIdx]
      omega
    have hsame : packetIdAt (l.length - 65535) = packetIdAt l.length :=
      packetIdAt_eq_iff.2 (by omega)
    rw [List.drop_eq_getElem_cons hlen, List.filter_cons_of_neg (by simpa using hsame),
      show l.length + 1 - 65535 = l.length - 65535 + 1 by omega]
    exact hkeep (by omega)

/-- **Of packets that are sent back to back the last 65535 are remembered.** -/
theorem foldl_remember (l : List Interest) :
    (l.mapIdx fun k i => (packetIdAt k, i.id)).foldl remember [] =
      (l.mapIdx fun k i => (packetIdAt k, i.id)).drop (l.length - 65535) := by
  induction l using List.reverseRecOn with
  | nil => rfl
  | append_singleton l i ih =>
      have hdrop : l.length + 1 - 65535 ≤ (l.mapIdx fun k i => (packetIdAt k, i.id)).length := by
        rw [List.length_mapIdx]
        omega
      rw [List.mapIdx_concat, List.foldl_append, ih, List.foldl_cons, List.foldl_nil, remember,
        filter_drop_mapIdx, List.length_append, List.length_singleton,
        List.drop_append_of_le_length hdrop]

/-- What is written for some subscriptions, and what is remembered of them. -/
theorem subscribeAll_spec {withIds : Bool} {c : Connection} {k : Nat}
    {pending : List (UInt16 × UInt32)} {before written : List Bytes}
    {r : Except SessionError (Connection × List (UInt16 × UInt32))}
    (hid : c.nextId = packetIdAt k) (h : subscribeAll withIds c l pending before = (written, r)) :
    ∃ frames, written = before ++ frames ∧
      frames.map Except.ok <+: (packets withIds k l).map Subscribe.encode ∧
      ∀ c' pending', r = .ok (c', pending') →
        frames.map Except.ok = (packets withIds k l).map Subscribe.encode ∧
        pending' = (numbered (packetIdAt k) l).foldl remember pending := by
  induction l generalizing c k pending before with
  | nil =>
      obtain ⟨rfl, rfl⟩ := Prod.mk.inj h
      refine ⟨[], (List.append_nil _).symm, List.nil_prefix, ?_⟩
      rintro c' pending' ⟨⟩
      exact ⟨rfl, rfl⟩
  | cons i l ih =>
      simp only [subscribeAll, Connection.allocateId, hid] at h
      split at h
      · obtain ⟨rfl, rfl⟩ := Prod.mk.inj h
        refine ⟨[], (List.append_nil _).symm, List.nil_prefix, ?_⟩
        rintro c' pending' ⟨⟩
      · rename_i bytes hsend
        obtain ⟨frames, hwritten, hframes, hall⟩ := ih (nextAfter_packetIdAt k) h
        have hfirst : (subscribePacket (packetIdAt k) i withIds).encode = .ok bytes :=
          Connection.encode_of_send hsend
        refine ⟨bytes :: frames, by simp [hwritten], ?_, ?_⟩
        · rw [List.map_cons, packets_cons, List.map_cons, hfirst]
          exact (List.prefix_cons_inj _).2 hframes
        · intro c' pending' hok
          obtain ⟨hframes', hpending⟩ := hall c' pending' hok
          rw [List.map_cons, packets_cons, List.map_cons, hfirst, hframes']
          refine ⟨rfl, ?_⟩
          rw [hpending, numbered, List.foldl_cons, remember, nextAfter_packetIdAt]

end Remember

/-- The subscriptions that are remembered when all packets have been sent. -/
def kept (p : Subscriber) : List (UInt16 × UInt32) := p.round.drop (p.interests.length - 65535)

theorem length_kept (p : Subscriber) : p.kept.length = min p.interests.length 65535 := by
  rw [kept, List.length_drop, length_round]
  omega

/-- The last place whose packet has the identifier of the one at place `k`, among `n`. -/
def latest (n k : Nat) : Nat := n - 1 - (n - 1 - k) % 65535

/-- An identifier stands for its own packet if the next one that has it is not sent. -/
theorem latest_eq_iff {n k : Nat} (h : k < n) : latest n k = k ↔ n ≤ k + 65535 := by
  rw [latest]
  omega

theorem packetIdAt_latest {n k : Nat} (h : k < n) : packetIdAt (latest n k) = packetIdAt k := by
  rw [packetIdAt_eq_iff, latest]
  omega

/-- What is remembered has different identifiers. -/
theorem nodup_kept (p : Subscriber) : (p.kept.map Prod.fst).Nodup := by
  rw [List.Nodup, List.pairwise_iff_getElem]
  intro j k hj hk hjk
  rw [List.length_map, length_kept] at hj hk
  simp only [kept, round_eq, List.getElem_map, List.getElem_drop, List.getElem_mapIdx]
  rw [ne_eq, packetIdAt_eq_iff]
  omega

/-- **An identifier stands for the last packet that has it.** -/
theorem lookup_kept {k : Nat} {i : Interest}
    (hi : p.interests[latest p.interests.length k]? = some i) (hk : k < p.interests.length) :
    p.kept.lookup (packetIdAt k) = some i.id := by
  rw [lookup_eq_some_iff_mem (nodup_kept p), List.mem_iff_getElem?]
  refine ⟨latest p.interests.length k - (p.interests.length - 65535), ?_⟩
  have hplace : p.interests.length - 65535 +
      (latest p.interests.length k - (p.interests.length - 65535)) =
        latest p.interests.length k := by
    rw [latest]
    omega
  rw [kept, List.getElem?_drop, hplace, round_eq, List.getElem?_mapIdx, hi, Option.map_some,
    packetIdAt_latest hk]

/-! ### Along a run -/

/-- In each phase a subscriber remembers what has no answer, of what it has kept. -/
def Phase.Expects (p : Subscriber) (ms : List Move) : Phase → Prop
  | .greeting c _ => c.nextId = 1
  | .welcoming c _ _ => c.nextId = 1 ∧ answers ms = []
  | .serving s | .delivering s _ _ | .reporting s _ => s.pending = (outcome p.kept (answers ms)).1
  | _ => True

variable {ms : List Move} {mv : Move} {st : State}

theorem Phase.Expects.of_afterAnswer {s : Serving} {b : Phase}
    (hp : s.pending = (outcome p.kept (answers ms)).1) (h : p.afterAnswer s = .ok b) :
    b.Expects p ms := by
  rcases afterAnswer_eq_ok h with ⟨-, rfl⟩ | ⟨-, rfl⟩
  · exact hp
  · exact hp

theorem Phase.Expects.of_update? {a b : Phase} {f : Connection → Connection}
    (h : a.Expects p ms) (hf : ∀ c, (f c).nextId = c.nextId) (hup : a.update? f = some b)
    (hans : a.isConnected → answers (ms ++ [mv]) = answers ms) : b.Expects p (ms ++ [mv]) := by
  cases a with
  | greeting c limit =>
      cases hup
      exact (hf c).trans h
  | welcoming c keepAlive present =>
      cases hup
      exact ⟨(hf c).trans h.1, (hans rfl).trans h.2⟩
  | serving s | delivering s m id | reporting s refused =>
      cases hup
      simp only [Phase.Expects, hans rfl]
      exact h
  | _ => cases hup

/-- What is remembered when all packets have been sent. -/
theorem pending_of_subscribeAll {withIds : Bool} {c c' : Connection}
    {pending : List (UInt16 × UInt32)} {written : List Bytes} (hid : c.nextId = 1)
    (h : subscribeAll withIds c p.interests [] [] = (written, .ok (c', pending))) :
    pending = p.kept := by
  have hfirst : c.nextId = packetIdAt 0 := hid
  obtain ⟨frames, -, -, hall⟩ := subscribeAll_spec hfirst h
  obtain ⟨-, hpending⟩ := hall c' pending rfl
  rw [hpending, numbered_packetIdAt]
  simp only [Nat.zero_add]
  rw [foldl_remember, kept, round_eq]

/-- Every step keeps what is remembered in agreement with the answers. -/
theorem Phase.Expects.step (h : Step p mv.before.phase mv.input mv.after.phase mv.effects)
    (hexp : mv.before.phase.Expects p ms) : mv.after.phase.Expects p (ms ++ [mv]) := by
  generalize ha : mv.before.phase = a, hi : mv.input = i, hb : mv.after.phase = b,
    he : mv.effects = es at h
  rw [ha] at hexp
  have hsame (hcon : a.isConnected) (hnone : mv.answer? = none) :
      answers (ms ++ [mv]) = answers ms :=
    answers_concat_of_answer?_eq_none (isWelcome_of_isConnected (by rwa [ha])) hnone
  have hread {packet : Packet} {s : Serving} {c : Connection} (hs : a = .serving s)
      (hin : i = .link .packet) (hr : s.connection.receive = .ok (some (packet, c))) :
      mv.received? = some packet :=
    received?_eq_some_iff.2 ⟨hi.trans hin, s, c, ha.trans hs, hr⟩
  cases h with
  | stop => trivial
  | away hb' => cases b <;> trivial
  | opened hc => exact hc
  | heard hf hin hup =>
      refine hexp.of_update? hf hup fun hcon => hsame hcon ?_
      exact answer?_of_input (by simpa [hi] using hin)
  | accepted hr hg =>
      refine ⟨?_, answers_concat_of_isWelcome (by simp [Move.isWelcome, Move.welcomed?, ha, hb])⟩
      exact (nextId_of_greet hg).trans ((nextId_of_receive hr).trans hexp)
  | subscribed hs hans =>
      obtain ⟨hid, hnone⟩ := hexp
      refine of_afterAnswer ?_ hans
      have hpending := pending_of_subscribeAll hid hs
      rw [hsame rfl (answer?_of_input (by simp [hi])), hnone, outcome_nil]
      dsimp only
      exact hpending
  | repeated hr | offered hr | released hr =>
      have hquiet := hsame rfl (answer?_of_received? (hread rfl rfl hr) (by simp))
      simp only [Phase.Expects, hquiet]
      exact hexp
  | own hr _ _ hack =>
      have hquiet := hsame rfl (answer?_of_received? (hread rfl rfl hr) (by simp))
      simp only [Phase.Expects, hquiet]
      exact (acknowledge_eq_ok hack).1.trans hexp
  | answered hr _ hans =>
      refine of_afterAnswer ?_ hans
      rw [outcome_answers_concat (hread rfl rfl hr), settle_fst, ← hexp]
  | @ignored s c packet k hr hm hrel hl _ =>
      have hrec := hread rfl rfl hr
      by_cases hsub : ∃ x, packet = .subAck x
      · -- an answer to nothing that is open
        obtain ⟨x, rfl⟩ := hsub
        have hlook := hl x rfl
        rw [hexp] at hlook
        simp only [Phase.Expects, outcome_answers_concat hrec, settle_of_lookup_eq_none hlook]
        exact hexp
      · have hquiet := hsame rfl (answer?_of_received? hrec fun x hx => hsub ⟨x, hx⟩)
        simp only [Phase.Expects, hquiet]
        exact hexp
  | pinged =>
      simp only [Phase.Expects, hsame rfl (answer?_of_input (by simp [hi]))]
      exact hexp
  | handed hack =>
      simp only [Phase.Expects, hsame rfl (answer?_of_input (by simp [hi]))]
      exact (acknowledge_eq_ok hack).1.trans hexp
  | reported =>
      simp only [Phase.Expects, hsame rfl (answer?_of_input (by simp [hi]))]
      exact hexp

/-- **What is remembered is what has no answer, of what was kept.** -/
theorem Run.expects {shutdown : Bool} (h : Run p (p.start shutdown) ms st) :
    st.phase.Expects p ms := by
  refine h.induction (fun ms st => st.phase.Expects p ms) ?_ fun ms mv ih _ hstep => ih.step hstep
  cases shutdown <;> trivial

/-! ### Answers -/

/-- A move credits an answer to a subscription: it is not open any more, and it is refused if the
answer does not grant it. -/
def Move.Credits (p : Subscriber) (mv : Move) (s : Serving) (a : SubAck) (id : UInt32) : Prop :=
  s.pending.lookup a.packetId = some id ∧
    ∃ s' : Serving, s'.pending = s.pending.filter (fun e => e.1 ≠ a.packetId) ∧
      s'.refused = (if a.isGrant then s.refused else s.refused ++ [id]) ∧
        (p.afterAnswer s' = .ok mv.after.phase ∨
          p.afterAnswer s' = .error .allRefused ∧ mv.after.phase = .losing .allRefused)

theorem received?_of_answer? {a : SubAck} (h : mv.answer? = some a) :
    mv.received? = some (.subAck a) := by
  unfold Move.answer? at h
  split at h
  · rename_i hrec
    obtain rfl := Option.some.inj h
    exact hrec
  · cases h

/-- Answers are read while the subscriptions are served. -/
theorem exists_serving_of_answer? {a : SubAck} (h : mv.answer? = some a) :
    ∃ s, mv.before.phase = .serving s := by
  obtain ⟨-, s, -, hphase, -⟩ := received?_eq_some_iff.1 (received?_of_answer? h)
  exact ⟨s, hphase⟩

/-- An answer is credited to what its identifier stands for. -/
theorem credits_of_step? {s : Serving} {a : SubAck} {id : UInt32}
    (h : p.step? mv.world mv.before mv.input = some (mv.after, mv.effects))
    (hphase : mv.before.phase = .serving s) (ha : mv.answer? = some a)
    (hl : s.pending.lookup a.packetId = some id) : mv.Credits p s a id := by
  obtain ⟨hi, s', c, hs, hr⟩ := received?_eq_some_iff.1 (received?_of_answer? ha)
  obtain rfl := Phase.serving.inj (hphase.symm.trans hs)
  rw [hi] at h
  simp only [step?, link?, hphase, served?, hr, onPacket, hl] at h
  refine ⟨hl, { s with
    connection := c
    pending := s.pending.filter fun e => e.1 ≠ a.packetId
    refused := if a.isGrant then s.refused else s.refused ++ [id] }, rfl, rfl, ?_⟩
  obtain ⟨b, after, hok, hb, -⟩ | ⟨e, herr, hb, -⟩ := proceed_cases (Option.some.inj h)
  · obtain ⟨b', hans, hpair⟩ := map_eq_ok_iff.1 hok
    obtain ⟨rfl, -⟩ := Prod.mk.inj hpair
    rw [hb]
    exact .inl hans
  · have hans := map_eq_error_iff.1 herr
    obtain rfl := afterAnswer_eq_error hans
    exact .inr ⟨hans, hb⟩

/-- What a subscriber remembers in a phase, if its broker has been sent the packets. -/
def Phase.serving? : Phase → Option Serving
  | .serving s | .delivering s _ _ | .reporting s _ => some s
  | _ => none

/-- What a move does about the subscriptions of its connection, after some others. -/
structure Subscribes (p : Subscriber) (ms : List Move) (mv : Move) : Prop where
  /-- The packets are written back to back, as long as each of them can be sent. -/
  sends (c : Connection) (keepAlive : UInt16) (present : Bool) :
    mv.before.phase = .welcoming c keepAlive present → mv.input = .taken →
      (Effect.written mv.effects).map Except.ok <+:
        (packets c.limits.subscriptionIdentifiers 0 p.interests).map Subscribe.encode
  /-- If all of them are sent, the last 65535 are remembered; otherwise the connection is lost. -/
  remembers (c : Connection) (keepAlive : UInt16) (present : Bool) :
    mv.before.phase = .welcoming c keepAlive present → mv.input = .taken →
      (∃ e, mv.after.phase = .losing e) ∨
        (Effect.written mv.effects).map Except.ok =
          (packets c.limits.subscriptionIdentifiers 0 p.interests).map Subscribe.encode ∧
        ∃ s, mv.after.phase.serving? = some s ∧ s.pending = p.kept
  /-- The first answer with the identifier of a packet is credited to the last packet that has this
  identifier. -/
  credits (s : Serving) (a : SubAck) (k : Nat) (i : Interest) :
    mv.before.phase = .serving s → mv.answer? = some a → a.packetId = packetIdAt k →
      k < p.interests.length → (∀ b ∈ answers ms, a.packetId ≠ b.packetId) →
        p.interests[latest p.interests.length k]? = some i → mv.Credits p s a i.id

/-- What is written for the subscriptions of a connection, and what is remembered of them. -/
theorem sends_of_taken? {w : Surroundings} {st' : State} {es : List Effect} {c : Connection}
    {keepAlive : UInt16} {present : Bool} (hphase : st.phase = .welcoming c keepAlive present)
    (hid : c.nextId = 1) (h : p.taken? w st = some (st', es)) :
    (Effect.written es).map Except.ok <+:
        (packets c.limits.subscriptionIdentifiers 0 p.interests).map Subscribe.encode ∧
      ((∃ e, st'.phase = .losing e) ∨
        (Effect.written es).map Except.ok =
          (packets c.limits.subscriptionIdentifiers 0 p.interests).map Subscribe.encode ∧
        ∃ s, st'.phase.serving? = some s ∧ s.pending = p.kept) := by
  have hfirst : c.nextId = packetIdAt 0 := hid
  have hlost (frames : List Bytes) :
      Effect.written (frames.map Effect.write ++ [.count .sessionDisconnected, .hangUp]) =
        frames := by
    rw [Effect.written_append, Effect.written_map_write]
    exact List.append_nil frames
  rw [taken?, hphase] at h
  dsimp only at h
  split at h
  · -- one of the packets cannot be sent
    rename_i written e hs
    obtain ⟨frames, rfl, hframes, -⟩ := subscribeAll_spec hfirst hs
    obtain ⟨rfl, rfl⟩ := Prod.mk.inj (Option.some.inj h)
    rw [hlost]
    exact ⟨hframes, .inl ⟨e, rfl⟩⟩
  · rename_i written c' pending hs
    have hkept := pending_of_subscribeAll hid hs
    obtain ⟨frames, rfl, hframes, hall⟩ := subscribeAll_spec hfirst hs
    obtain ⟨hsent, -⟩ := hall c' pending rfl
    obtain ⟨b, after, hok, hb, rfl⟩ | ⟨e, herr, hb, rfl⟩ := proceed_cases (Option.some.inj h)
    · obtain ⟨b', hans, hpair⟩ := map_eq_ok_iff.1 hok
      obtain ⟨rfl, rfl⟩ := Prod.mk.inj hpair
      rw [List.append_nil, Effect.written_map_write, hb]
      refine ⟨hframes, .inr ⟨hsent, ?_⟩⟩
      rcases afterAnswer_eq_ok hans with ⟨-, rfl⟩ | ⟨-, rfl⟩
      · exact ⟨_, rfl, hkept⟩
      · exact ⟨_, rfl, hkept⟩
    · rw [hlost]
      exact ⟨hframes, .inl ⟨e, hb⟩⟩

/-- **What is sent for the subscriptions, and what each answer is credited to.** -/
theorem Run.subscribes {shutdown : Bool} (h : Run p (p.start shutdown) (ms ++ [mv]) st) :
    p.Subscribes ms mv := by
  obtain ⟨hrun, hstep⟩ := h.split
  have hexp := hrun.expects
  have hsends {c : Connection} {keepAlive : UInt16} {present : Bool}
      (hphase : mv.before.phase = .welcoming c keepAlive present) (hi : mv.input = .taken) := by
    rw [hphase] at hexp
    rw [hi] at hstep
    exact sends_of_taken? hphase hexp.1 hstep
  refine ⟨fun c keepAlive present hphase hi => (hsends hphase hi).1,
    fun c keepAlive present hphase hi => (hsends hphase hi).2, ?_⟩
  intro s a k i hphase ha hid hk hfresh hi
  rw [hphase] at hexp
  refine credits_of_step? hstep hphase ha ?_
  have hkept := lookup_kept hi hk
  rw [← hid, lookup_eq_some_iff_mem (nodup_kept p)] at hkept
  rw [hexp, lookup_outcome_eq_some_iff (nodup_kept p)]
  exact ⟨hkept, hfresh⟩

end Subscriber

end TopicBridge
