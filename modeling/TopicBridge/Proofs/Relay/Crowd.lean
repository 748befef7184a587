/-
**More subscriptions than packet identifiers.**

A registry has a filter for each topic that its rules name, and nothing limits the number of rules.
A packet identifier has 16 bits.  Up to 65535 filters of a flow each has a packet of its own
identifier, and each answer is credited to the filter that it answers.  A registry with one filter
more is accepted like any other: then two packets that are on their way together have the same
identifier, there is no entry for the first of the two any more, and its answer is credited to the
second.

Main definitions:

* `Subscriber.TellsApart` — how far the packets of a subscriber can be told apart;
* `Relay.crowd` — settings with a rule for each of the first numbers.

Main results:

* `Serves.map_text_eq` — rules with different filters are served one by one;
* `Relay.subscriptions_of_run` — **the subscriptions of a relay, their packets and their answers**;
* `Relay.crowd_shares_packetId` — 65536 filters are accepted, and two packets have one identifier.
-/

import Mathlib.Tactic.IntervalCases
import TopicBridge.Proofs.Relay.Setup
import TopicBridge.Proofs.Rule.Collection
import TopicBridge.Proofs.Session.PacketIds

set_option autoImplicit false

namespace TopicBridge

open Mqtt

/-! ### Packets that can be told apart -/

namespace Subscriber

variable {p : Subscriber}

theorem map_packetId_packets (withIds : Bool) (p : Subscriber) :
    (packets withIds 0 p.interests).map Subscribe.packetId = p.round.map Prod.fst := by
  refine List.ext_getElem ?_ fun k _ _ => ?_
  · rw [List.length_map, List.length_map, packets, List.length_mapIdx, length_round]
  · simp only [packets, round_eq, List.getElem_map, List.getElem_mapIdx, subscribePacket,
      Nat.zero_add]

/-- How far the packets of a subscriber with `n` subscriptions can be told apart. -/
structure TellsApart (p : Subscriber) (n : Nat) : Prop where
  length_eq : p.interests.length = n
  /-- Each packet has an identifier. -/
  packetId_ne (withIds : Bool) : ∀ q ∈ packets withIds 0 p.interests, q.packetId ≠ 0
  /-- The identifiers differ exactly with at most 65535 subscriptions. -/
  nodup_iff (withIds : Bool) :
    ((packets withIds 0 p.interests).map Subscribe.packetId).Nodup ↔ n ≤ 65535
  /-- What is remembered has that many entries, and no more. -/
  length_kept : p.kept.length = min n 65535
  /-- An answer is credited to what it answers if no later packet has its identifier. -/
  latest_eq_iff (k : Nat) : k < n → (latest n k = k ↔ n ≤ k + 65535)

theorem tellsApart (p : Subscriber) : p.TellsApart p.interests.length where
  length_eq := rfl
  packetId_ne withIds q hq := by
    have hmem : q.packetId ∈ p.round.map Prod.fst := by
      rw [← map_packetId_packets withIds]
      exact List.mem_map_of_mem hq
    obtain ⟨e, he, hid⟩ := List.mem_map.1 hmem
    rw [← hid]
    exact ne_zero_of_mem_round he
  nodup_iff withIds := by rw [map_packetId_packets, nodup_round_iff]
  length_kept := p.length_kept
  latest_eq_iff _ := latest_eq_iff

/-- Where the broker sets no limit all packets are sent. -/
theorem exists_subscribeAll_eq_ok {withIds : Bool} {l : List Interest} {c : Connection}
    {pending : List (UInt16 × UInt32)} {before : List Bytes}
    (hlimit : c.limits.maximumPacketSize = none) (hfault : c.fault = none)
    (hids : ∀ i ∈ l, i.id.toNat ≤ VarInt.maxValue) :
    ∃ written c' pending', subscribeAll withIds c l pending before =
      (written, .ok (c', pending')) := by
  induction l generalizing c pending before with
  | nil => exact ⟨before, c, pending, rfl⟩
  | cons i l ih =>
      obtain ⟨hid, hids⟩ := List.forall_mem_cons.1 hids
      obtain ⟨bytes, hbytes⟩ : ∃ bytes, (subscribePacket c.nextId i withIds).encode = .ok bytes :=
        exists_encode_subscribePacket_iff.2 fun _ => hid
      have hadmits : Connection.admits c.limits bytes.length := by
        rw [Connection.admits_iff, hlimit]
        intro limit h
        cases h
      have hsend : c.allocateId.2.send (.subscribe (subscribePacket c.nextId i withIds)) =
          .ok bytes := Connection.send_eq_ok_iff.2 ⟨hbytes, hadmits, hfault⟩
      obtain ⟨written, c', pending', hall⟩ :
          ∃ written c' pending', subscribeAll withIds c.allocateId.2 l
            ((pending.filter fun e => e.1 ≠ c.allocateId.1) ++ [(c.allocateId.1, i.id)])
            (before ++ [bytes]) = (written, .ok (c', pending')) := ih hlimit hfault hids
      refine ⟨written, c', pending', ?_⟩
      rw [subscribeAll]
      simp only [Connection.allocateId] at hsend hall ⊢
      rw [hsend]
      exact hall

/-- Where the broker sets no limit, a subscriber that has something to subscribe to sends it all. -/
theorem exists_step_of_welcoming {b : Backoff} (hne : p.interests ≠ [])
    (hids : ∀ i ∈ p.interests, i.id.toNat ≤ VarInt.maxValue) :
    ∃ written s, p.step? ⟨0, false⟩ ⟨.welcoming {} 60 false, b⟩ .taken =
        some (⟨.serving s, b⟩, written) ∧ s.pending = p.kept ∧
      (Effect.written written).map Except.ok =
        (packets true 0 p.interests).map Subscribe.encode := by
  obtain ⟨frames, c, pending, hall⟩ :
      ∃ frames c pending, subscribeAll true {} p.interests [] [] =
        (frames, .ok (c, pending)) := exists_subscribeAll_eq_ok rfl rfl hids
  have hpending : pending = p.kept := pending_of_subscribeAll rfl hall
  have hopen : pending.isEmpty = false := by
    rw [hpending, List.isEmpty_eq_false_iff, ← List.length_pos_iff, length_kept]
    have hpos := List.length_pos_iff.2 hne
    omega
  have hstep : p.taken? ⟨0, false⟩ ⟨.welcoming {} 60 false, b⟩ =
      some (⟨.serving ⟨c, .start 60 0, pending, [], []⟩, b⟩, frames.map Effect.write) := by
    simp only [taken?]
    rw [hall]
    simp only [afterAnswer, hopen, Bool.not_false, if_true, Except.map,
      proceed, List.append_nil]
  obtain ⟨-, ⟨e, he⟩ | ⟨hsent, -⟩⟩ := sends_of_taken? rfl rfl hstep
  · cases he
  · exact ⟨_, _, hstep, hpending, hsent⟩

/-- With 65536 subscriptions, numbered from 1 on, the first and the last packet have the identifier
1, and what is remembered under it is the last. -/
theorem wraps_of_length_eq (hlen : p.interests.length = 65536)
    (hid : ∀ k i, p.interests[k]? = some i → i.id = UInt32.ofNat (k + 1)) :
    ((packets true 0 p.interests).map Subscribe.packetId)[0]? = some 1 ∧
      ((packets true 0 p.interests).map Subscribe.packetId)[65535]? = some 1 ∧
      p.kept.length = 65535 ∧ p.kept.lookup 1 = some 65536 ∧ ∀ e ∈ p.kept, e.2 ≠ 1 := by
  have hplace {k : Nat} (hk : k < p.interests.length) :
      ((packets true 0 p.interests).map Subscribe.packetId)[k]? =
        some (packetIdAt k) := by
    rw [map_packetId_packets, round_eq, List.getElem?_map,
      List.getElem?_mapIdx, List.getElem?_eq_getElem hk]
    rfl
  refine ⟨hplace (by omega), hplace (by omega), ?_, ?_, ?_⟩
  · rw [length_kept, hlen]
    rfl
  · obtain ⟨last, hlast⟩ : ∃ last, p.interests[65535]? = some last :=
      ⟨_, List.getElem?_eq_getElem (by omega)⟩
    have hlatest : p.interests[latest p.interests.length 0]? = some last := by
      rw [hlen]
      exact hlast
    have hlookup := lookup_kept hlatest (by omega)
    rw [hid 65535 last hlast] at hlookup
    exact hlookup
  · intro e he
    rw [kept, round_eq] at he
    obtain ⟨k, i, hk, hi, rfl⟩ := exists_of_mem_drop_mapIdx he
    have hlt := (List.getElem?_eq_some_iff.1 hi).1
    have hnat : (UInt32.ofNat (k + 1)).toNat = k + 1 :=
      UInt32.toNat_ofNat_of_lt' (by rw [UInt32.size]; omega)
    dsimp only
    rw [hid k i hi]
    intro hone
    rw [hone, UInt32.toNat_one] at hnat
    omega

end Subscriber

/-! ### Topics that are numbers -/

namespace Topic

/-- A text of one level is a pattern if it has no character with a meaning. -/
theorem patternError?_eq_none {s : String} (hne : s ≠ "") (hsize : s.utf8ByteSize ≤ maxSize)
    (h : ∀ c ∈ s.toList, c ≠ '\x00' ∧ c ≠ '/' ∧ c ≠ '+' ∧ c ≠ '#') : patternError? s = none := by
  have hzero : '\x00' ∉ s.toList := fun hmem => (h _ hmem).1 rfl
  have hslash : '/' ∉ s.toList := fun hmem => (h _ hmem).2.1 rfl
  have hplus : '+' ∉ s.toList := fun hmem => (h _ hmem).2.2.1 rfl
  have hhash : '#' ∉ s.toList := fun hmem => (h _ hmem).2.2.2 rfl
  have htext : textError? s = none := by
    rw [textError?, if_neg hne, if_neg (Nat.not_lt.2 hsize), if_neg hzero]
  have hlevel : levelError? true s = none := by
    rw [levelError?, if_neg hne, if_neg hhash, if_neg fun hboth => hplus hboth.1]
  rw [patternError?, htext]
  dsimp only
  rw [split_of_not_mem hslash, levelsError?, List.isEmpty_nil, hlevel]
  rfl

/-- A number has few digits. -/
theorem utf8ByteSize_repr_le (n : Nat) : n.repr.utf8ByteSize ≤ n / 10 + 1 := by
  have hdigit {d : Nat} (hd : d < 10) : (String.singleton d.digitChar).utf8ByteSize = 1 := by
    rw [String.utf8ByteSize_singleton]
    interval_cases d <;> rfl
  induction n using Nat.strongRecOn with
  | ind n ih =>
      rcases Nat.lt_or_ge n 10 with hlt | hge
      · rw [Nat.repr_of_lt hlt, hdigit hlt]
        omega
      · have hless := ih (n / 10) (by omega)
        rw [Nat.repr_of_ge hge, String.utf8ByteSize_append, hdigit (by omega)]
        omega

/-- Different numbers are written with different digits. -/
theorem eq_of_repr_eq {m n : Nat} (h : m.repr = n.repr) : m = n := by
  have hdigits : Nat.toDigits 10 m = Nat.toDigits 10 n := by
    rw [Nat.repr_eq_ofList_toDigits, Nat.repr_eq_ofList_toDigits, ← String.toList_inj] at h
    rwa [String.toList_ofList, String.toList_ofList] at h
  rw [← Nat.ofDigitChars_ten_toDigits (n := m), hdigits, Nat.ofDigitChars_ten_toDigits]

theorem patternError?_repr {n : Nat} (h : n ≤ 65535) : patternError? n.repr = none := by
  have hsize := utf8ByteSize_repr_le n
  refine patternError?_eq_none Nat.repr_ne_empty (by rw [maxSize]; omega) fun c hc => ?_
  rw [Nat.repr_eq_ofList_toDigits, String.toList_ofList] at hc
  have hdigit := Nat.isDigit_of_mem_toDigits (by decide) (by decide) hc
  refine ⟨?_, ?_, ?_, ?_⟩ <;> rintro rfl <;> exact absurd hdigit (by decide)

end Topic

/-! ### Filters that differ -/

/-- What has been made of the parts of a list keeps what each of them has. -/
theorem map_eq_map_of_mapM {ε α β γ : Type} {f : α → Except ε β} {g : β → γ} {k : α → γ}
    {l : List α} {made : List β} (h : l.mapM f = .ok made)
    (hf : ∀ a b, f a = .ok b → g b = k a) : made.map g = l.map k := by
  induction l generalizing made with
  | nil =>
      obtain rfl : [] = made := Except.ok.inj h
      rfl
  | cons a l ih =>
      rw [List.mapM_cons, bind_eq_ok_iff] at h
      obtain ⟨b, hb, h⟩ := h
      rw [bind_eq_ok_iff] at h
      obtain ⟨more, hmore, h⟩ := h
      obtain rfl : b :: more = made := Except.ok.inj h
      rw [List.map_cons, List.map_cons, hf a b hb, ih hmore]

theorem Rule.text_of_read {s : RuleSettings} {index : Nat} {common : Option String} {r : Rule}
    (h : read s index common = .ok r) : r.source.text = s.sourceTopic := by
  rw [read, bind_eq_ok_iff] at h
  obtain ⟨source, hsource, h⟩ := h
  rw [bind_eq_ok_iff] at h
  obtain ⟨dest, -, h⟩ := h
  rw [bind_eq_ok_iff] at h
  obtain ⟨_, -, h⟩ := h
  rw [bind_eq_ok_iff] at h
  obtain ⟨filters, -, h⟩ := h
  rw [mapError_eq_ok_iff] at hsource
  split at h
  · cases h
  · cases h
    exact Pattern.parse_eq_ok_iff.1 hsource

namespace Registry

variable {settings : List RuleSettings} {common : Option String} {rules : List Rule}

/-- The rules have the source topics of their settings. -/
theorem map_text_of_compileAll (h : compileAll settings common = .ok rules) :
    (rules.map fun r => r.source.text) = settings.map RuleSettings.sourceTopic := by
  have hmap : (rules.map fun r => r.source.text) =
      settings.zipIdx.map fun x => x.1.sourceTopic :=
    map_eq_map_of_mapM h fun a b hb => Rule.text_of_read (mapError_eq_ok_iff.1 hb)
  have hfst : (settings.zipIdx.map fun x => x.1.sourceTopic) =
      (settings.zipIdx.map Prod.fst).map RuleSettings.sourceTopic := by
    rw [List.map_map]
    rfl
  rw [hmap, hfst, List.zipIdx_map_fst]

/-- Rules without a prefix are never refused: their filters are patterns as they stand. -/
theorem exists_interests_of_bare (flow : Flow) (h : ∀ r ∈ rules, r.topicPrefix = none) :
    ∃ found, TopicBridge.interests flow rules = .ok found := by
  cases hfound : TopicBridge.interests flow rules with
  | ok found => exact ⟨found, rfl⟩
  | error e =>
      obtain ⟨before, r, after, hrules, -, why, hunfit, -⟩ :=
        foldlM_addInterest_eq_error_iff.1 hfound
      have hr : r ∈ rules := by
        have hmem : r ∈ rules.filter fun r => r.appliesTo flow := by
          rw [hrules]
          exact List.mem_append_right _ (List.mem_cons_self ..)
        exact (List.mem_filter.1 hmem).1
      have hfilter : r.subscriptionFilter flow = (r.inbound flow).text := by
        cases flow <;> simp only [Rule.subscriptionFilter, h r hr]
      rw [Rule.Unfit, hfilter, Pattern.parse_text] at hunfit
      cases hunfit

end Registry

/-- **Rules with different filters are served one by one**, in their order. -/
theorem Serves.map_text_eq {flow : Flow} {rules : List Rule} {found : List Interest}
    (h : Serves flow rules found) (hn : (asked flow rules).Nodup) :
    (found.map fun i => i.filter.text) = asked flow rules := by
  -- both stand in the order of the rules, and both have the same texts
  have hfound : (found.map fun i => i.filter.text).Pairwise fun s t =>
      (asked flow rules).idxOf s < (asked flow rules).idxOf t := List.pairwise_map.2 h.order
  have hasked : (asked flow rules).Pairwise fun s t =>
      (asked flow rules).idxOf s < (asked flow rules).idxOf t := by
    rw [List.pairwise_iff_getElem]
    intro j k hj hk hjk
    rw [hn.idxOf_getElem, hn.idxOf_getElem]
    exact hjk
  have hnodup : (found.map fun i => i.filter.text).Nodup := by
    refine hfound.imp ?_
    rintro s t hlt rfl
    exact Nat.lt_irrefl _ hlt
  have hperm : (found.map fun i => i.filter.text).Perm (asked flow rules) := by
    refine (List.perm_ext_iff_of_nodup hnodup hn).2 fun filter => ?_
    rw [← h.mem_iff, List.mem_map]
  refine hperm.eq_of_pairwise ?_ hfound hasked
  intro s t _ _ hst hts
  exact absurd hst (Nat.lt_asymm hts)

namespace Relay

/-! ### The subscriptions of a relay -/

/-- **The subscriptions of a relay, their packets and their answers.**  On every connection the
packets are sent back to back, none with the identifier zero.  With at most 65535 filters their
identifiers differ, what is remembered has an entry for each, and each answer is credited to what it
answers; with more of them none of this is so. -/
theorem subscriptions_of_run {r : Relay} {process : String} {flow : Flow} {shutdown : Bool}
    {ms : List Subscriber.Move} {mv : Subscriber.Move} {st : Subscriber.State}
    (h : Subscriber.Run (r.lane process flow).subscriber
      ((r.lane process flow).subscriber.start shutdown) (ms ++ [mv]) st) :
    (r.lane process flow).subscriber.Subscribes ms mv ∧
      (r.lane process flow).subscriber.TellsApart (r.registry.interests flow).length :=
  ⟨h.subscribes, Subscriber.tellsApart _⟩

/-- What the broker of the relay with overlapping filters says before it answers the second
subscription: it accepts the connection, and refuses that subscription. -/
def refusingSecond : List Subscriber.Input :=
  [.taken, .link .opened, .link (.arrived [0x20, 3, 0, 0, 0, 0x90, 4, 0, 2, 0, 0x87]),
    .link .packet, .taken]

/-- The first answer that comes in is credited to the second filter, which it answers. -/
theorem subscriptions_of_run_overlap :
    ∃ ms mv st s a, Subscriber.Run (overlap.lane "1" .forward).subscriber
        ((overlap.lane "1" .forward).subscriber.start false) (ms ++ [mv]) st ∧
      mv.before.phase = .serving s ∧ mv.answer? = some a ∧ a.packetId = 2 ∧
      a.isGrant = false ∧ mv.Credits (overlap.lane "1" .forward).subscriber s a 2 ∧
      (overlap.lane "1" .forward).subscriber.TellsApart 2 := by
  have hfacts : ((overlap.lane "1" .forward).subscriber.play? (Subscriber.timed 0 refusingSecond)
        [] ((overlap.lane "1" .forward).subscriber.start false)).bind (fun played =>
      ((overlap.lane "1" .forward).subscriber.step? ⟨0, false⟩ played.2 (.link .packet)).bind
        fun next => (Subscriber.Move.answer?
          ⟨⟨0, false⟩, played.2, .link .packet, next.1, next.2⟩).map
            fun a => (a.packetId, a.isGrant, (Subscriber.answers played.1).length)) =
      some (2, false, 0) := by decide +kernel
  obtain ⟨⟨ms, st⟩, hplay, hnext⟩ := Option.bind_eq_some_iff.1 hfacts
  dsimp only at hnext
  obtain ⟨⟨st', es⟩, hstep, hread⟩ := Option.bind_eq_some_iff.1 hnext
  obtain ⟨a, ha, hvalues⟩ := Option.map_eq_some_iff.1 hread
  simp only [Prod.mk.injEq, List.length_eq_zero_iff] at hvalues
  obtain ⟨hid, hgrant, hfresh⟩ := hvalues
  have hrun : Subscriber.Run (overlap.lane "1" .forward).subscriber
      ((overlap.lane "1" .forward).subscriber.start false)
      (ms ++ [⟨⟨0, false⟩, st, .link .packet, st', es⟩]) st' :=
    @Subscriber.Run.snoc _ _ _ ⟨_, _, _, _, _⟩ (Subscriber.Run.nil.of_play? hplay) hstep
  obtain ⟨s, hphase⟩ := Subscriber.exists_serving_of_answer? ha
  obtain ⟨hsubscribes, hapart⟩ := subscriptions_of_run hrun
  have hcredits := hsubscribes.credits s a 1 _ hphase ha hid (by decide)
    (by rw [hfresh]; exact List.forall_mem_nil _) rfl
  exact ⟨ms, _, st', s, a, hrun, hphase, ha, hid, hgrant, hcredits, hapart⟩

/-! ### Too many filters -/

/-- A rule that carries the topic with a number over as it is. -/
def carrying (k : Nat) : RuleSettings where
  sourceTopic := k.repr
  destTopic := k.repr

/-- Settings with a rule for each of the first `n` numbers. -/
def crowd (n : Nat) : Config where
  source := { host := "a" }
  destination := { host := "b" }
  rules := (List.range n).map carrying

theorem exists_compile_carrying {k : Nat} (h : k ≤ 65535) (index : Nat) :
    ∃ r, Rule.compile (carrying k) index none = .ok r := by
  obtain ⟨topic, htopic⟩ : ∃ topic, Pattern.parse k.repr = .ok topic :=
    ⟨⟨k.repr, Topic.patternError?_repr h⟩, Pattern.parse_eq_ok_iff.2 rfl⟩
  have hcheck : topic.checkTemplate topic = .ok () := Pattern.checkTemplate_eq_ok_iff.2 rfl
  refine ⟨⟨(carrying k).label index, topic, topic, .oneWay, [], .atLeastOnce, none⟩,
    mapError_eq_ok_iff.2 ?_⟩
  rw [Rule.read, carrying, htopic]
  simp only [Except.mapError, bind, Except.bind, hcheck]
  rfl

theorem validate_crowd {n : Nat} (h : 0 < n) : (crowd n).validate = .ok () := by
  have hrules : rulesProblem? (crowd n).rules = none := by
    rw [rulesProblem?, List.findSome?_eq_none_iff]
    rintro ⟨s, index⟩ hs
    obtain ⟨k, -, rfl⟩ := List.mem_map.1 (List.fst_mem_of_mem_zipIdx hs)
    rfl
  have hne : (crowd n).rules ≠ [] := by
    intro hnil
    have hlen := congrArg List.length hnil
    rw [crowd, List.length_map, List.length_range, List.length_nil] at hlen
    omega
  rw [Config.validate_eq_ok_iff, Config.problem?, if_neg hne, hrules]
  rfl

/-- Up to 65536 numbers are accepted, and each gets a filter. -/
theorem exists_new_crowd {n : Nat} (hpos : 0 < n) (hn : n ≤ 65536) :
    ∃ r, Relay.new (Files.ofList []) "relay" (crowd n) = .ok r ∧
      ((r.registry.interests .forward).map fun i => i.filter.text) =
        (List.range n).map Nat.repr := by
  obtain ⟨rules, hrules⟩ : ∃ rules, Registry.compileAll (crowd n).rules none = .ok rules := by
    refine exists_mapM_iff.2 ?_
    rintro ⟨s, index⟩ hs
    obtain ⟨k, hk, rfl⟩ := List.mem_map.1 (List.fst_mem_of_mem_zipIdx hs)
    have hlt := List.mem_range.1 hk
    exact exists_compile_carrying (by omega) index
  have hbare : ∀ r ∈ rules, r.topicPrefix = none := by
    intro r hr
    obtain ⟨⟨s, index⟩, hs, hc⟩ := exists_of_mem_mapM hrules hr
    obtain ⟨k, -, rfl⟩ := List.mem_map.1 (List.fst_mem_of_mem_zipIdx hs)
    exact (Rule.of_read_eq_ok (mapError_eq_ok_iff.1 hc)).2
  obtain ⟨forward, hforward⟩ := Registry.exists_interests_of_bare .forward hbare
  obtain ⟨reverse, hreverse⟩ := Registry.exists_interests_of_bare .reverse hbare
  have hbuild : Registry.build (crowd n) = .ok ⟨rules, forward, reverse⟩ := by
    have hcompile : Registry.compileAll (crowd n).rules (crowd n).relay.trimmedPrefix? =
        .ok rules := hrules
    rw [Registry.build, Registry.ofRules, hcompile]
    simp only [bind, Except.bind, hforward, hreverse]
    rfl
  have hasked : asked .forward (rules.filter fun r => r.appliesTo .forward) =
      (List.range n).map Nat.repr := by
    have hall : (rules.filter fun r => r.appliesTo .forward) = rules :=
      List.filter_eq_self.2 fun _ _ => rfl
    rw [hall]
    refine (Registry.map_text_of_compileAll hrules).trans ?_
    rw [crowd, List.map_map]
    rfl
  have hnodup : (asked .forward (rules.filter fun r => r.appliesTo .forward)).Nodup := by
    rw [hasked]
    exact List.nodup_range.map fun _ _ => Topic.eq_of_repr_eq
  have hserves := (interests_refuses_or_serves .forward rules).2.2 forward hforward
  have hsource : Connector.ofEndpoint (Files.ofList []) (crowd 1).source =
      .ok ⟨"a:1883", 30000, none⟩ := by rfl
  have hdestination : Connector.ofEndpoint (Files.ofList []) (crowd 1).destination =
      .ok ⟨"b:1883", 30000, none⟩ := by rfl
  refine ⟨⟨crowd n, "relay", ⟨rules, forward, reverse⟩, ⟨"a:1883", 30000, none⟩,
    ⟨"b:1883", 30000, none⟩⟩, ?_, (hserves.map_text_eq hnodup).trans hasked⟩
  unfold Relay.new
  -- the brokers do not depend on the rules
  rw [validate_crowd hpos, hbuild, show (crowd n).source = (crowd 1).source by rfl,
    show (crowd n).destination = (crowd 1).destination by rfl, hsource, hdestination]
  rfl

/-- **65536 filters are accepted, and two packets have one identifier.**  On a connection whose
broker sets no limit all packets are sent.  The first and the last of them have the identifier 1,
which stands for the last filter then; there is no entry for the first. -/
theorem crowd_shares_packetId :
    ∃ r written b s, Relay.new (Files.ofList []) "relay" (crowd 65536) = .ok r ∧
      ((r.registry.interests .forward).map fun i => i.filter.text) =
        (List.range 65536).map Nat.repr ∧
      (r.lane "1" .forward).subscriber.step? ⟨0, false⟩ ⟨.welcoming {} 60 false, b⟩ .taken =
        some (⟨.serving s, b⟩, written) ∧
      (Effect.written written).map Except.ok =
        (Subscriber.packets true 0 (r.registry.interests .forward)).map Subscribe.encode ∧
      ((Subscriber.packets true 0 (r.registry.interests .forward)).map Subscribe.packetId)[0]? =
        some 1 ∧
      ((Subscriber.packets true 0 (r.registry.interests .forward)).map
        Subscribe.packetId)[65535]? = some 1 ∧
      s.pending.length = 65535 ∧ s.pending.lookup 1 = some 65536 ∧ ∀ e ∈ s.pending, e.2 ≠ 1 := by
  obtain ⟨r, hnew, htexts⟩ := exists_new_crowd (n := 65536) (by decide) (by decide)
  have hlen : (r.lane "1" .forward).subscriber.interests.length = 65536 := by
    have hlen := congrArg List.length htexts
    rwa [List.length_map, List.length_map, List.length_range] at hlen
  have hid (k : Nat) (i : Interest)
      (hi : (r.lane "1" .forward).subscriber.interests[k]? = some i) :
      i.id = UInt32.ofNat (k + 1) := by
    obtain ⟨hk, rfl⟩ := List.getElem?_eq_some_iff.1 hi
    exact (Registry.collects_interests (build_of_new hnew) .forward).id_getElem k hk
  have hne : (r.lane "1" .forward).subscriber.interests ≠ [] := by
    rw [← List.length_pos_iff]
    omega
  have hfit : ∀ i ∈ (r.lane "1" .forward).subscriber.interests,
      i.id.toNat ≤ VarInt.maxValue := by
    intro i hi
    obtain ⟨k, hk⟩ := List.mem_iff_getElem?.1 hi
    have hlt := (List.getElem?_eq_some_iff.1 hk).1
    rw [hid k i hk]
    exact VarInt.toNat_ofNat_le (by rw [VarInt.maxValue]; omega)
  obtain ⟨written, s, hstep, hkept, hsent⟩ :=
    Subscriber.exists_step_of_welcoming (b := .start 1000 60000) hne hfit
  obtain ⟨hfirst, hlast, hcount, hlookup, hnone⟩ :=
    Subscriber.wraps_of_length_eq hlen hid
  rw [← hkept] at hcount hlookup hnone
  exact ⟨r, written, _, s, hnew, htexts, hstep, hsent, hfirst, hlast, hcount, hlookup, hnone⟩

end Relay

end TopicBridge
