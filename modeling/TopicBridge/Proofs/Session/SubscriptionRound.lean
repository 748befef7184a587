/-
**The subscriptions of a connection and their answers.**

On each connection a subscriber sends all its subscriptions, one after the other, and the broker
answers them in any order, between whatever else it sends.  What a subscriber remembers of this is a
function of the answers that it has read on the connection; once none is missing it has handed over
what has been refused, and keeps nothing.

Main definitions:

* `Subscriber.round` — the subscriptions of a connection under the identifiers of their packets;
* `Subscriber.answers` — the answers that have been read on the current connection;
* `Subscriber.settle`, `Subscriber.outcome` — what answers leave open, and what they refuse;
* `SessionEvent.refusedAfter`, `Subscriber.reported` — what has been refused according to the events
  that were handed over;
* `Serving.Books`, `Phase.Booked` — the subscriber remembers what it should.

Main results:

* `Subscriber.nodup_round` — no two packets have the same identifier, up to 65535 subscriptions;
* `Subscriber.mem_outcome_fst_iff`, `Subscriber.mem_outcome_snd_iff` — what is open has no answer,
  and what is refused has a first answer that says so;
* `Run.booked` — **what is remembered and reported is the outcome of the answers.**
-/

import Mathlib.Tactic.SplitIfs
import TopicBridge.Proofs.Session.SubscriberRun

set_option autoImplicit false

namespace TopicBridge

open Mqtt

/-- What is taken to be refused after an event. -/
def SessionEvent.refusedAfter (refused : List UInt32) : SessionEvent → List UInt32
  | .subscribed refused => refused
  | _ => refused

namespace Subscriber

/-! ### The packets of a round -/

/-- Some subscriptions under consecutive packet identifiers, with the identifiers that come with
their messages. -/
def numbered : UInt16 → List Interest → List (UInt16 × UInt32)
  | _, [] => []
  | id, i :: rest => (id, i.id) :: numbered (Connection.nextAfter id) rest

/-- The subscriptions of a connection under the identifiers of their packets. -/
def round (p : Subscriber) : List (UInt16 × UInt32) := numbered 1 p.interests

theorem map_snd_numbered (l : List Interest) (id : UInt16) :
    (numbered id l).map Prod.snd = l.map Interest.id := by
  induction l generalizing id with
  | nil => rfl
  | cons i rest ih => simp [numbered, ih]

theorem toNat_nextAfter (id : UInt16) (h : id.toNat + 1 < 65536) :
    (Connection.nextAfter id).toNat = id.toNat + 1 := by
  have hsucc : (id + 1).toNat = id.toNat + 1 := by
    rw [UInt16.toNat_add]
    exact Nat.mod_eq_of_lt h
  -- it does not start again, and so the identifier 0 is not skipped
  have hne : id + 1 ≠ 0 := by
    intro hzero
    rw [hzero] at hsucc
    cases hsucc
  rw [Connection.nextAfter, if_neg hne, hsucc]

theorem toNat_le_of_mem_numbered {l : List Interest} {id : UInt16} {e : UInt16 × UInt32}
    (h : id.toNat + l.length ≤ 65536) (he : e ∈ numbered id l) : id.toNat ≤ e.1.toNat := by
  induction l generalizing id with
  | nil => cases he
  | cons i rest ih =>
      rw [List.length_cons] at h
      rcases List.mem_cons.1 he with rfl | he
      · exact Nat.le_refl _
      · cases rest with
        | nil => cases he
        | cons j rest =>
            rw [List.length_cons] at h
            have hnext := toNat_nextAfter id (by omega)
            have hle := ih (by rw [hnext, List.length_cons]; omega) he
            omega

/-- Consecutive packet identifiers differ as long as they do not start again. -/
theorem nodup_numbered {l : List Interest} {id : UInt16} (h : id.toNat + l.length ≤ 65536) :
    ((numbered id l).map Prod.fst).Nodup := by
  induction l generalizing id with
  | nil => exact List.nodup_nil
  | cons i rest ih =>
      rw [List.length_cons] at h
      cases rest with
      | nil => simp [numbered]
      | cons j rest =>
          rw [List.length_cons] at h
          have hnext := toNat_nextAfter id (by omega)
          have hlen : (Connection.nextAfter id).toNat + (j :: rest).length ≤ 65536 := by
            rw [hnext, List.length_cons]
            omega
          refine List.nodup_cons.2 ⟨fun hmem => ?_, ih hlen⟩
          obtain ⟨e, he, heq⟩ := List.mem_map.1 hmem
          have hle := toNat_le_of_mem_numbered hlen he
          rw [heq] at hle
          dsimp only at hle
          omega

/-- Up to 65535 subscriptions of a connection have different packet identifiers. -/
theorem nodup_round {p : Subscriber} (h : p.interests.length ≤ 65535) :
    (p.round.map Prod.fst).Nodup :=
  nodup_numbered (by simp only [UInt16.toNat_one]; omega)

/-- What is unanswered after the packets have been sent. -/
theorem subscribeAll_eq_ok {withIds : Bool} {l : List Interest} {c c' : Connection}
    {pending pending' : List (UInt16 × UInt32)} {written written' : List Bytes}
    (h : subscribeAll withIds c l pending written = (written', .ok (c', pending')))
    (hn : ((pending ++ numbered c.nextId l).map Prod.fst).Nodup) :
    pending' = pending ++ numbered c.nextId l := by
  induction l generalizing c pending written with
  | nil =>
      obtain ⟨-, hok⟩ := Prod.mk.inj h
      obtain ⟨-, rfl⟩ := Prod.mk.inj (Except.ok.inj hok)
      exact (List.append_nil _).symm
  | cons i rest ih =>
      simp only [subscribeAll] at h
      split at h
      · cases (Prod.mk.inj h).2
      · -- no earlier packet has the new identifier
        have hkeep : (pending.filter fun e => e.1 ≠ c.allocateId.1) = pending := by
          refine List.filter_eq_self.2 fun e he => ?_
          rw [decide_eq_true_eq]
          rintro heq
          rw [List.map_append, List.nodup_append] at hn
          exact hn.2.2 e.1 (List.mem_map_of_mem he) c.nextId (by simp [numbered]) heq
        rw [hkeep] at h
        have hrest := ih h (by simpa [numbered, Connection.allocateId] using hn)
        rw [hrest, List.append_assoc]
        rfl

/-! ### Answers -/

/-- The answer to a subscription that is read. -/
def Move.answer? (mv : Move) : Option SubAck :=
  match mv.received? with
  | some (.subAck a) => some a
  | _ => none

/-- The answers that have been read on the current connection, oldest first. -/
def answers (ms : List Move) : List SubAck := (current ms).filterMap Move.answer?

/-- What an answer leaves of the open subscriptions and adds to the refused ones. -/
def settle (x : List (UInt16 × UInt32) × List UInt32) (a : SubAck) :
    List (UInt16 × UInt32) × List UInt32 :=
  match x.1.lookup a.packetId with
  | none => x
  | some interest =>
    (x.1.filter fun e => e.1 ≠ a.packetId, if a.isGrant then x.2 else x.2 ++ [interest])

/-- What answers leave open of some subscriptions, and what they refuse. -/
def outcome (sent : List (UInt16 × UInt32)) (as : List SubAck) :
    List (UInt16 × UInt32) × List UInt32 :=
  as.foldl settle (sent, [])

variable {sent : List (UInt16 × UInt32)} {as : List SubAck} {a : SubAck}

@[simp] theorem outcome_nil : outcome sent [] = (sent, []) := rfl

theorem outcome_concat : outcome sent (as ++ [a]) = settle (outcome sent as) a := by
  simp [outcome, List.foldl_append]

theorem settle_of_lookup_eq_none {x : List (UInt16 × UInt32) × List UInt32}
    (h : x.1.lookup a.packetId = none) : settle x a = x := by
  rw [settle, h]

theorem settle_of_lookup_eq_some {x : List (UInt16 × UInt32) × List UInt32} {interest : UInt32}
    (h : x.1.lookup a.packetId = some interest) :
    settle x a =
      (x.1.filter fun e => e.1 ≠ a.packetId, if a.isGrant then x.2 else x.2 ++ [interest]) := by
  rw [settle, h]

/-- Whatever an answer says, its identifier is not open any more. -/
theorem settle_fst (x : List (UInt16 × UInt32) × List UInt32) (a : SubAck) :
    (settle x a).1 = x.1.filter fun e => e.1 ≠ a.packetId := by
  cases h : x.1.lookup a.packetId with
  | some interest => rw [settle_of_lookup_eq_some h]
  | none =>
      rw [settle_of_lookup_eq_none h]
      refine (List.filter_eq_self.2 fun e he => ?_).symm
      have hne := List.lookup_eq_none_iff.1 h e he
      rw [bne_iff_ne] at hne
      exact decide_eq_true hne.symm

theorem outcome_fst (sent : List (UInt16 × UInt32)) (as : List SubAck) :
    (outcome sent as).1 = sent.filter fun e => as.all fun a => e.1 ≠ a.packetId := by
  induction as using List.reverseRecOn with
  | nil => exact (List.filter_eq_self.2 fun _ _ => rfl).symm
  | append_singleton as a ih =>
      rw [outcome_concat, settle_fst, ih, List.filter_filter]
      refine List.filter_congr fun e _ => ?_
      rw [List.all_append, List.all_cons, List.all_nil, Bool.and_true, Bool.and_comm]

theorem mem_outcome_fst_iff {e : UInt16 × UInt32} :
    e ∈ (outcome sent as).1 ↔ e ∈ sent ∧ ∀ a ∈ as, e.1 ≠ a.packetId := by
  rw [outcome_fst, List.mem_filter, List.all_eq_true]
  simp only [decide_eq_true_eq]

theorem lookup_eq_some_iff_mem {α β : Type} [BEq α] [LawfulBEq α] {l : List (α × β)} {k : α} {v : β}
    (hn : (l.map Prod.fst).Nodup) : l.lookup k = some v ↔ (k, v) ∈ l := by
  rw [List.lookup_eq_some_iff]
  constructor
  · rintro ⟨l₁, l₂, rfl, -⟩
    exact List.mem_append_right _ (List.mem_cons_self ..)
  · intro hmem
    obtain ⟨l₁, l₂, rfl⟩ := List.append_of_mem hmem
    refine ⟨l₁, l₂, rfl, fun e he => ?_⟩
    rw [List.map_append, List.nodup_append] at hn
    rw [bne_iff_ne]
    exact (hn.2.2 e.1 (List.mem_map_of_mem he) k (by simp)).symm

/-- With different identifiers, the open subscription of an identifier is the one that was sent. -/
theorem lookup_outcome_eq_some_iff (hn : (sent.map Prod.fst).Nodup) {id : UInt16}
    {interest : UInt32} :
    (outcome sent as).1.lookup id = some interest ↔
      (id, interest) ∈ sent ∧ ∀ a ∈ as, id ≠ a.packetId := by
  have hsub : ((outcome sent as).1.map Prod.fst).Nodup := by
    rw [outcome_fst]
    exact (List.filter_sublist.map Prod.fst).nodup hn
  rw [lookup_eq_some_iff_mem hsub, mem_outcome_fst_iff]

/-- What is refused has a first answer that says so. -/
theorem mem_outcome_snd_iff (hn : (sent.map Prod.fst).Nodup) {interest : UInt32} :
    interest ∈ (outcome sent as).2 ↔
      ∃ e ∈ sent, e.2 = interest ∧
        ∃ a, (as.find? fun a => a.packetId = e.1) = some a ∧ a.isGrant = false := by
  induction as using List.reverseRecOn with
  | nil => simp
  | append_singleton as a ih =>
      rw [outcome_concat]
      cases hl : (outcome sent as).1.lookup a.packetId with
      | none =>
          -- nothing is open under this identifier: nothing was sent, or it has an answer
          rw [settle_of_lookup_eq_none hl, ih]
          refine exists_congr fun e => and_congr_right fun he => and_congr_right fun _ => ?_
          rw [List.find?_append]
          cases hf : as.find? fun a => a.packetId = e.1 with
          | some b => simp
          | none =>
              have hne : a.packetId ≠ e.1 := by
                intro heq
                have hopen : (outcome sent as).1.lookup e.1 = some e.2 := by
                  refine (lookup_outcome_eq_some_iff hn).2 ⟨he, fun b hb => ?_⟩
                  have hb' := List.find?_eq_none.1 hf b hb
                  simpa [eq_comm] using hb'
                rw [heq, hopen] at hl
                cases hl
              simp [hne]
      | some refused =>
          -- the first answer to what is open: it adds to the refused ones if it is no grant
          rw [settle_of_lookup_eq_some hl]
          obtain ⟨hsent, hfirst⟩ := (lookup_outcome_eq_some_iff hn).1 hl
          have hnew : as.find? (fun b => b.packetId = a.packetId) = none := by
            refine List.find?_eq_none.2 fun b hb => ?_
            simpa [eq_comm] using hfirst b hb
          have hmem : interest ∈ (if a.isGrant then (outcome sent as).2
              else (outcome sent as).2 ++ [refused]) ↔
                interest ∈ (outcome sent as).2 ∨ a.isGrant = false ∧ interest = refused := by
            cases a.isGrant <;> simp
          rw [hmem, ih]
          constructor
          · rintro (⟨e, he, hid, b, hb, hgrant⟩ | ⟨hgrant, rfl⟩)
            · exact ⟨e, he, hid, b, by rw [List.find?_append, hb]; rfl, hgrant⟩
            · exact ⟨_, hsent, rfl, a, by rw [List.find?_append, hnew]; simp, hgrant⟩
          · rintro ⟨e, he, hid, b, hb, hgrant⟩
            rw [List.find?_append] at hb
            cases hf : as.find? fun a => a.packetId = e.1 with
            | some b' =>
                rw [hf] at hb
                obtain rfl := Option.some.inj hb
                exact .inl ⟨e, he, hid, b', hf, hgrant⟩
            | none =>
                -- the new answer is the first one, and no other packet has its identifier
                rw [hf, Option.none_or, List.find?_singleton] at hb
                split_ifs at hb with heq
                obtain rfl := Option.some.inj hb
                rw [decide_eq_true_eq] at heq
                have hlast := (lookup_eq_some_iff_mem hn).2 he
                rw [← heq, (lookup_eq_some_iff_mem hn).2 hsent, Option.some.injEq] at hlast
                exact .inr ⟨hgrant, by rw [← hid, hlast]⟩

/-! ### What a subscriber remembers -/

/-- What has been refused according to some events. -/
def reported (es : List SessionEvent) : List UInt32 := es.foldl SessionEvent.refusedAfter []

/-- A subscriber remembers the outcome of the answers as long as some are missing.  After that it
has reported what was refused, and remembers nothing. -/
def Serving.Books (s : Serving) (x : List (UInt16 × UInt32) × List UInt32) (told : List UInt32) :
    Prop :=
  (x.1 ≠ [] ∧ s.pending = x.1 ∧ s.refused = x.2) ∨
    (x.1 = [] ∧ s.pending = [] ∧ s.refused = [] ∧ told = x.2)

/-- In each phase a subscriber remembers what it should. -/
def Phase.Booked (p : Subscriber) (ms : List Move) : Phase → Prop
  | .greeting c _ => c.nextId = 1
  | .welcoming c _ _ => c.nextId = 1 ∧ answers ms = []
  | .serving s => s.Books (outcome p.round (answers ms)) (reported (handed ms))
  | .delivering s _ _ => s.Books (outcome p.round (answers ms)) (reported (handed ms))
  | .reporting s refused =>
    (outcome p.round (answers ms)).1 = [] ∧ s.pending = [] ∧ s.refused = [] ∧
      refused = (outcome p.round (answers ms)).2
  | _ => True

variable {p : Subscriber} {ms : List Move} {mv : Move} {st : State}

theorem answers_concat_of_isWelcome (h : mv.isWelcome) : answers (ms ++ [mv]) = [] := by
  rw [answers, current, since_concat_of_pos h, List.filterMap_nil]

theorem answers_concat (h : mv.isWelcome = false) :
    answers (ms ++ [mv]) = answers ms ++ mv.answer?.toList := by
  rw [answers, current, since_concat_of_neg h, filterMap_concat]
  rfl

theorem handed_concat : handed (ms ++ [mv]) = handed ms ++ mv.handed?.toList :=
  filterMap_concat _

/-- Only a report changes what has been reported. -/
theorem reported_handed_concat (h : ∀ refused, mv.handed? ≠ some (.subscribed refused)) :
    reported (handed (ms ++ [mv])) = reported (handed ms) := by
  rw [handed_concat]
  cases he : mv.handed? with
  | none => simp
  | some e =>
      cases e with
      | subscribed refused => exact absurd he (h refused)
      | _ => simp [reported, List.foldl_append, SessionEvent.refusedAfter]

theorem answer?_of_received? {packet : Packet} (h : mv.received? = some packet)
    (hno : ∀ a, packet ≠ .subAck a) : mv.answer? = none := by
  unfold Move.answer?
  split
  · rename_i a ha
    exact absurd (Option.some.inj (h.symm.trans ha)) (hno a)
  · rfl

theorem answer?_of_input (h : mv.input ≠ .link .packet) : mv.answer? = none := by
  unfold Move.answer?
  split
  · rename_i a ha
    exact absurd (received?_eq_some_iff.1 ha).1 h
  · rfl

theorem answers_concat_of_answer?_eq_none (h : mv.isWelcome = false) (ha : mv.answer? = none) :
    answers (ms ++ [mv]) = answers ms := by
  rw [answers_concat h, ha]
  exact List.append_nil _

theorem outcome_answers_concat (h : mv.received? = some (.subAck a)) :
    outcome sent (answers (ms ++ [mv])) = settle (outcome sent (answers ms)) a := by
  obtain ⟨-, s, c, hphase, -⟩ := received?_eq_some_iff.1 h
  have hconnected : mv.before.phase.isConnected := by
    rw [hphase]
    rfl
  have hans : mv.answer? = some a := by simp [Move.answer?, h]
  rw [answers_concat (isWelcome_of_isConnected hconnected), hans]
  exact outcome_concat

theorem Serving.Books.pending_eq {s : Serving} {x : List (UInt16 × UInt32) × List UInt32}
    {told : List UInt32} (h : s.Books x told) : s.pending = x.1 := by
  rcases h with ⟨-, hp, -⟩ | ⟨hx, hp, -⟩
  · exact hp
  · rw [hx, hp]

/-- A move without an effect on the outcome and without a report leaves the books as they are. -/
theorem Serving.Books.concat {s s' : Serving}
    (h : s.Books (outcome p.round (answers ms)) (reported (handed ms)))
    (ha : outcome p.round (answers (ms ++ [mv])) = outcome p.round (answers ms))
    (hh : ∀ refused, mv.handed? ≠ some (.subscribed refused)) (hp : s'.pending = s.pending)
    (hr : s'.refused = s.refused) :
    s'.Books (outcome p.round (answers (ms ++ [mv]))) (reported (handed (ms ++ [mv]))) := by
  rw [ha, reported_handed_concat hh]
  unfold Serving.Books
  rw [hp, hr]
  exact h

/-- When the last answer is there a subscriber reports what was refused. -/
theorem Phase.Booked.of_afterAnswer {s : Serving} {b : Phase}
    {x : List (UInt16 × UInt32) × List UInt32} (hx : outcome p.round (answers ms) = x)
    (hp : s.pending = x.1) (hr : s.refused = x.2) (h : p.afterAnswer s = .ok b) :
    b.Booked p ms := by
  rcases afterAnswer_eq_ok h with ⟨hpending, rfl⟩ | ⟨hpending, rfl⟩
  · refine .inl ⟨?_, ?_, ?_⟩ <;> rw [hx]
    · rwa [← hp]
    · exact hp
    · exact hr
  · refine ⟨?_, hpending, rfl, ?_⟩ <;> rw [hx]
    · rwa [← hp]
    · exact hr

theorem Phase.Booked.of_update? {a b : Phase} {f : Connection → Connection}
    (hbook : a.Booked p ms) (hf : ∀ c, (f c).nextId = c.nextId) (hup : a.update? f = some b)
    (hans : a.isConnected → answers (ms ++ [mv]) = answers ms)
    (htold : reported (handed (ms ++ [mv])) = reported (handed ms)) : b.Booked p (ms ++ [mv]) := by
  cases a with
  | greeting c limit =>
      cases hup
      exact (hf c).trans hbook
  | welcoming c keepAlive present =>
      cases hup
      exact ⟨(hf c).trans hbook.1, (hans rfl).trans hbook.2⟩
  | serving s | delivering s m id | reporting s refused =>
      cases hup
      simp only [Phase.Booked, hans rfl, htold]
      exact hbook
  | _ => cases hup

/-- Every step keeps the books. -/
theorem Phase.Booked.step (hn : (p.round.map Prod.fst).Nodup)
    (h : Step p mv.before.phase mv.input mv.after.phase mv.effects)
    (hbook : mv.before.phase.Booked p ms) : mv.after.phase.Booked p (ms ++ [mv]) := by
  generalize ha : mv.before.phase = a, hi : mv.input = i, hb : mv.after.phase = b,
    he : mv.effects = es at h
  rw [ha] at hbook
  have hsame (hcon : a.isConnected) (hnone : mv.answer? = none) :
      answers (ms ++ [mv]) = answers ms :=
    answers_concat_of_answer?_eq_none (isWelcome_of_isConnected (by rwa [ha])) hnone
  have hread {packet : Packet} {s : Serving} {c : Connection} (hs : a = .serving s)
      (hin : i = .link .packet) (hr : s.connection.receive = .ok (some (packet, c))) :
      mv.received? = some packet ∧ ∀ refused, mv.handed? ≠ some (.subscribed refused) :=
    ⟨received?_eq_some_iff.2 ⟨hi.trans hin, s, c, ha.trans hs, hr⟩, by simp [Move.handed?, hi, hin]⟩
  cases h with
  | stop => trivial
  | away hb' => cases b <;> trivial
  | opened hc => exact hc
  | heard hf hin hup =>
      refine hbook.of_update? hf hup (fun hcon => hsame hcon ?_) ?_
      · exact answer?_of_input (by simpa [hi] using hin)
      · exact reported_handed_concat (by simp [Move.handed?, hi])
  | accepted hr hg =>
      refine ⟨?_, answers_concat_of_isWelcome (by simp [Move.isWelcome, Move.welcomed?, ha, hb])⟩
      exact (nextId_of_greet hg).trans ((nextId_of_receive hr).trans hbook)
  | subscribed hs hans =>
      obtain ⟨hid, hnone⟩ := hbook
      have hpending := subscribeAll_eq_ok hs (by rw [hid]; exact hn)
      have hx : outcome p.round (answers (ms ++ [mv])) = (p.round, []) := by
        rw [hsame rfl (answer?_of_input (by simp [hi])), hnone, outcome_nil]
      refine of_afterAnswer hx ?_ rfl hans
      rw [hpending, hid]
      rfl
  | repeated hr | offered hr | released hr =>
      obtain ⟨hrec, hquiet⟩ := hread rfl rfl hr
      refine hbook.concat ?_ hquiet rfl rfl
      rw [hsame rfl (answer?_of_received? hrec (by simp))]
  | own hr _ _ hack =>
      obtain ⟨hrec, hquiet⟩ := hread rfl rfl hr
      obtain ⟨hp, hrefused, -⟩ := acknowledge_eq_ok hack
      refine hbook.concat ?_ hquiet hp hrefused
      rw [hsame rfl (answer?_of_received? hrec (by simp))]
  | answered hr hl hans =>
      rename_i s c x interest
      obtain ⟨hrec, -⟩ := hread rfl rfl hr
      have hx : outcome p.round (answers (ms ++ [mv])) = _ := outcome_answers_concat hrec
      have hp := hbook.pending_eq
      rw [hp] at hl
      rw [settle_of_lookup_eq_some hl] at hx
      rcases hbook with ⟨-, -, hrefused⟩ | ⟨hnil, -, -⟩
      · exact of_afterAnswer hx (by rw [hp]) (by rw [hrefused]) hans
      · rw [hnil] at hl
        cases hl
  | @ignored s c packet k hr hm hrel hl _ =>
      obtain ⟨hrec, hquiet⟩ := hread rfl rfl hr
      refine hbook.concat ?_ hquiet rfl rfl
      by_cases hsub : ∃ x, packet = .subAck x
      · -- an answer to nothing that is open
        obtain ⟨x, rfl⟩ := hsub
        have hlook := hl x rfl
        rw [hbook.pending_eq] at hlook
        rw [outcome_answers_concat hrec, settle_of_lookup_eq_none hlook]
      · rw [hsame rfl (answer?_of_received? hrec fun x hx => hsub ⟨x, hx⟩)]
  | pinged =>
      refine hbook.concat ?_ (by simp [Move.handed?, hi]) rfl rfl
      rw [hsame rfl (answer?_of_input (by simp [hi]))]
  | handed hack =>
      obtain ⟨hp, hrefused, -⟩ := acknowledge_eq_ok hack
      refine hbook.concat ?_ (by simp [Move.handed?, hi, State.offer?, ha]) hp hrefused
      rw [hsame rfl (answer?_of_input (by simp [hi]))]
  | @reported s refused k _ =>
      obtain ⟨hx, hp, hrefused, htold⟩ := hbook
      have htold' : Subscriber.reported (Subscriber.handed (ms ++ [mv])) =
          refused := by
        rw [handed_concat]
        simp [Subscriber.reported, Move.handed?, hi, State.offer?, ha, SessionEvent.refusedAfter]
      refine .inr ?_
      rw [hsame rfl (answer?_of_input (by simp [hi])), htold']
      exact ⟨hx, hp, hrefused, htold⟩

/-- **What is remembered and reported is the outcome of the answers.** -/
theorem Run.booked {shutdown : Bool} (h : Run p (p.start shutdown) ms st)
    (hlen : p.interests.length ≤ 65535) : st.phase.Booked p ms := by
  refine h.induction (fun ms st => st.phase.Booked p ms) ?_ fun ms mv ih _ hstep => ?_
  · cases shutdown <;> trivial
  · exact ih.step (nodup_round hlen) hstep

end Subscriber

end TopicBridge
