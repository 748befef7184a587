/-
**Of the copies of a message one is kept.**

A broker may send a copy of a message for each filter that matches it, or one copy for all of them,
or something in between: it marks the copies with the identifiers of the filters, and no identifier
marks two of them.  Whatever it chooses and in whatever order the copies come in, just one is not
dropped as a duplicate, as long as what has been refused stays the same.  The one that is kept bears
the first identifier of the filters that match and have not been refused.  That is the lowest of
them: identifiers would start again only after more filters than can be told apart in a packet.

Main definitions:

* `Registry.wanted` — the identifiers under which a message is expected;
* `TopicBridge.Copies` — the ways in which a broker may deliver a message;
* `Registry.IsAnnounced` — the filters of a flow have been subscribed to under their identifiers.

Main results:

* `Registry.decide_eq_duplicate_of_mark` — a copy that is marked is dropped unless it bears the
  first identifier;
* `Registry.pairwise_id_lt_of_isAnnounced` — the identifiers of such filters increase;
* `Registry.exists_copy_kept` — **exactly one copy is kept**, and it bears the lowest identifier.
-/

import TopicBridge.Proofs.Relay.Overlap
import TopicBridge.Proofs.Session.Sending

set_option autoImplicit false

namespace TopicBridge

open Mqtt

/-- Some messages are the copies as which a broker delivers one message: they are all on its topic,
each is marked with some of the identifiers, and each identifier marks one of them. -/
structure Copies (ids : List UInt32) (topic : String) (copies : List Message) : Prop where
  topic_eq : ∀ m ∈ copies, m.topic = topic
  marked : ∀ m ∈ copies, m.properties.subscriptionIdentifiers ≠ []
  known : ∀ m ∈ copies, m.properties.subscriptionIdentifiers ⊆ ids
  once : ∀ id ∈ ids, copies.countP (fun m => id ∈ m.properties.subscriptionIdentifiers) = 1

instance (ids : List UInt32) (topic : String) (copies : List Message) :
    Decidable (Copies ids topic copies) :=
  decidable_of_iff
    ((copies.all fun m => m.topic == topic && m.properties.subscriptionIdentifiers != [] &&
        m.properties.subscriptionIdentifiers.all ids.contains) &&
      ids.all fun id =>
        copies.countP (fun m => id ∈ m.properties.subscriptionIdentifiers) == 1) <| by
    simp only [Bool.and_eq_true, List.all_eq_true, beq_iff_eq, bne_iff_ne, List.contains_iff_mem]
    constructor
    · rintro ⟨hcopies, honce⟩
      exact ⟨fun m hm => (hcopies m hm).1.1, fun m hm => (hcopies m hm).1.2,
        fun m hm => (hcopies m hm).2, honce⟩
    · rintro ⟨htopic, hmarked, hknown, honce⟩
      exact ⟨fun m hm => ⟨⟨htopic m hm, hmarked m hm⟩, fun _ hid => hknown m hm hid⟩, honce⟩

theorem Mqtt.Properties.mem_toList_of_mem {p : Properties} {id : UInt32}
    (h : id ∈ p.subscriptionIdentifiers) : ⟨.subscriptionIdentifier, id⟩ ∈ p.toList := by
  have hmem := List.mem_map_of_mem (f := Property.mk .subscriptionIdentifier) h
  simp only [Properties.toList, List.mem_append]
  simp only [hmem, true_or, or_true]

namespace Registry

variable {c : Config} {g : Registry} {flow : Flow} {topic : String} {refused : List UInt32}
  {m : Message} {now : WallTime}

/-! ### The identifiers of a message -/

/-- The identifiers under which a message is expected: those of the filters that match its topic and
that the broker has not refused. -/
def wanted (g : Registry) (flow : Flow) (topic : String) (refused : List UInt32) : List UInt32 :=
  ((g.interests flow).filter fun i => i.id ∉ refused ∧ i.filter.matches? topic).map Interest.id

theorem owner?_eq_head?_wanted : g.owner? flow topic refused = (g.wanted flow topic refused).head? := by
  rw [owner?, wanted, List.head?_map, List.head?_filter]
  congr 2
  funext i
  rw [Bool.eq_iff_iff]
  simp

/-- A copy that is marked is dropped unless it bears the first identifier that is wanted. -/
theorem decide_eq_duplicate_of_mark {id : UInt32} {rest : List UInt32}
    (hwanted : g.wanted flow m.topic refused = id :: rest)
    (hmark : m.properties.subscriptionIdentifiers ≠ []) :
    g.decide flow refused m now = .duplicate ↔ id ∉ m.properties.subscriptionIdentifiers := by
  have howner : g.owner? flow m.topic refused = some id := by
    rw [owner?_eq_head?_wanted, hwanted]
    rfl
  rw [decide_eq_duplicate_iff, isDuplicate_iff, howner]
  constructor
  · rintro ⟨-, owner, heq, hno⟩
    rwa [Option.some.inj heq]
  · intro hno
    exact ⟨hmark, id, rfl, hno⟩

/-! ### The order of the identifiers -/

/-- The filters of a flow have been subscribed to on some connection, each under its identifier.
Before that no broker can mark what it sends. -/
def IsAnnounced (g : Registry) (flow : Flow) : Prop :=
  ∃ conn frames sent, Subscriber.subscribeAll true conn (g.interests flow) [] [] = (frames, .ok sent)

/-- An identifier that stands in a packet is not too large for it. -/
theorem toNat_le_of_send {conn : Connection} {id : UInt16} {i : Interest} {bytes : Bytes}
    (h : conn.send (.subscribe (Subscriber.subscribePacket id i true)) = .ok bytes) :
    i.id.toNat ≤ VarInt.maxValue := by
  obtain ⟨header, -, hrest⟩ := bind_eq_ok_iff.1 (Connection.encode_of_send h)
  obtain ⟨properties, hproperties, -⟩ := bind_eq_ok_iff.1 hrest
  obtain ⟨size, -, hentries⟩ := bind_eq_ok_iff.1 hproperties
  obtain ⟨entries, hwrite, -⟩ := bind_eq_ok_iff.1 hentries
  obtain ⟨parts, hparts, -⟩ := bind_eq_ok_iff.1 hwrite
  -- the identifier is one of the entries that have been written
  have hmem : i.id ∈ (Subscriber.subscribePacket id i true).properties.subscriptionIdentifiers :=
    List.mem_singleton_self _
  obtain ⟨entry, hentry⟩ := exists_of_mem_of_mapM hparts (Properties.mem_toList_of_mem hmem)
  obtain ⟨value, hvalue, -⟩ := bind_eq_ok_iff.1 hentry
  have hid : VarInt.write i.id = .ok value := hvalue
  by_contra hlarge
  rw [VarInt.write, if_neg hlarge] at hid
  cases hid

theorem toNat_le_of_subscribeAll {conn : Connection} {l : List Interest}
    {pending : List (UInt16 × UInt32)} {written frames : List Bytes}
    {sent : Connection × List (UInt16 × UInt32)}
    (h : Subscriber.subscribeAll true conn l pending written = (frames, .ok sent)) :
    ∀ i ∈ l, i.id.toNat ≤ VarInt.maxValue := by
  induction l generalizing conn pending written with
  | nil => nofun
  | cons i rest ih =>
      simp only [Subscriber.subscribeAll] at h
      split at h
      · cases (Prod.mk.inj h).2
      · rename_i bytes hsend
        exact List.forall_mem_cons.2 ⟨toNat_le_of_send hsend, ih h⟩

/-- The identifiers of filters that have been subscribed to increase: so many filters that they
start again could not have been announced. -/
theorem pairwise_id_lt_of_isAnnounced (hb : build c = .ok g) (h : g.IsAnnounced flow) :
    (g.interests flow).Pairwise fun i j => i.id < j.id := by
  refine pairwise_id_lt hb ?_
  obtain ⟨conn, frames, sent, hsent⟩ := h
  have hsmall : ∀ id ∈ firstIds (g.interests flow).length, id.toNat ≤ VarInt.maxValue := by
    rw [← map_id_interests hb flow]
    exact List.forall_mem_map.2 (toNat_le_of_subscribeAll hsent)
  by_contra hmany
  -- among so many identifiers there would be one that is just too large
  have hmem : UInt32.ofNat (VarInt.maxValue + 1) ∈ firstIds (g.interests flow).length := by
    refine List.mem_map.2 ⟨VarInt.maxValue, List.mem_range.2 ?_, rfl⟩
    rw [UInt32.size] at hmany
    rw [VarInt.maxValue]
    omega
  exact absurd (hsmall _ hmem) (by decide)

/-! ### The copy that is kept -/

/-- **Of the copies of a message exactly one is kept**, whichever they are and whenever they come
in: the one that bears the first identifier that is wanted, which is the lowest. -/
theorem exists_copy_kept (hb : build c = .ok g) (hne : g.wanted flow topic refused ≠ [])
    {arrivals : List (Message × WallTime)}
    (h : Copies (g.wanted flow topic refused) topic (arrivals.map Prod.fst)) :
    ∃ kept id, arrivals.filter (fun a => g.decide flow refused a.1 a.2 ≠ .duplicate) = [kept] ∧
      id ∈ kept.1.properties.subscriptionIdentifiers ∧
      (g.wanted flow topic refused).head? = some id ∧
      (g.IsAnnounced flow → ∀ other ∈ g.wanted flow topic refused, id ≤ other) := by
  obtain ⟨id, rest, hwanted⟩ := List.exists_cons_of_ne_nil hne
  -- a copy is kept if and only if it bears the first identifier
  have hkept : ∀ a ∈ arrivals, g.decide flow refused a.1 a.2 ≠ .duplicate ↔
      id ∈ a.1.properties.subscriptionIdentifiers := by
    intro a ha
    have hmem := List.mem_map_of_mem (f := Prod.fst) ha
    rw [ne_eq, decide_eq_duplicate_of_mark (h.topic_eq _ hmem ▸ hwanted) (h.marked _ hmem), not_not]
  have hone : (arrivals.filter fun a =>
      g.decide flow refused a.1 a.2 ≠ .duplicate).length = 1 := by
    rw [← h.once id (by simp [hwanted]), List.countP_map, List.countP_eq_length_filter]
    congr 1
    refine List.filter_congr fun a ha => ?_
    rw [Bool.eq_iff_iff, decide_eq_true_iff, hkept a ha]
    simp
  obtain ⟨kept, hsingle⟩ := List.length_eq_one_iff.1 hone
  have hin : kept ∈ arrivals.filter fun a => g.decide flow refused a.1 a.2 ≠ .duplicate := by
    rw [hsingle]
    exact List.mem_singleton_self _
  obtain ⟨hmem, hnot⟩ := List.mem_filter.1 hin
  refine ⟨kept, id, hsingle, (hkept kept hmem).1 (by simpa using hnot), by rw [hwanted]; rfl, ?_⟩
  intro hannounced other hother
  have hlt : (g.wanted flow topic refused).Pairwise (· < ·) := by
    rw [wanted, List.pairwise_map]
    exact (pairwise_id_lt_of_isAnnounced hb hannounced).filter _
  rw [hwanted] at hlt hother
  rcases List.mem_cons.1 hother with rfl | hlater
  · exact UInt32.le_refl _
  · exact UInt32.le_of_lt ((List.pairwise_cons.1 hlt).1 other hlater)

/-- Settings with four rules whose filters all match the topic `a/b`. -/
def layered : Config where
  source := { host := "a" }
  destination := { host := "b" }
  rules := [{ sourceTopic := "a/#", destTopic := "w/#" }, { sourceTopic := "+/b", destTopic := "x/+" },
    { sourceTopic := "a/+", destTopic := "y/+" }, { sourceTopic := "a/b", destTopic := "z" }]

/-- A copy of a message on `a/b`, marked with some identifiers. -/
def layeredCopy (ids : List UInt32) : Message where
  topic := "a/b"
  payload := []
  qos := .atLeastOnce
  retain := false
  properties := { subscriptionIdentifiers := ids }

/-- A copy for the last filter comes in, and then one for the second and the third. -/
def layeredArrivals : List (Message × WallTime) :=
  [(layeredCopy [4], .beforeEpoch), (layeredCopy [3, 2], .beforeEpoch)]

/-- If the broker has refused the first filter, the later copy is kept, and bears the lowest of the
other identifiers. -/
theorem exists_copy_kept_layered :
    ∃ g kept, Registry.build layered = .ok g ∧ g.wanted .forward "a/b" [1] = [2, 3, 4] ∧
      g.IsAnnounced .forward ∧ Copies [2, 3, 4] "a/b" (layeredArrivals.map Prod.fst) ∧
      layeredArrivals.filter (fun a => g.decide .forward [1] a.1 a.2 ≠ .duplicate) = [kept] ∧
      2 ∈ kept.1.properties.subscriptionIdentifiers ∧
      ∀ other ∈ g.wanted .forward "a/b" [1], 2 ≤ other := by
  have hfacts : (Registry.build layered).toOption.map (fun g =>
      (g.wanted .forward "a/b" [1],
        (Subscriber.subscribeAll true {} (g.interests .forward) [] []).2.toOption.isSome)) =
      some ([2, 3, 4], true) := by decide +kernel
  obtain ⟨g, hbuild, hg⟩ := Option.map_eq_some_iff.1 hfacts
  obtain ⟨hwanted, hsent⟩ := Prod.mk.inj hg
  have hb := toOption_eq_some_iff.1 hbuild
  have hannounced : g.IsAnnounced .forward := by
    obtain ⟨sent, hsome⟩ := Option.isSome_iff_exists.1 hsent
    exact ⟨{}, _, sent, Prod.ext rfl (toOption_eq_some_iff.1 hsome)⟩
  have hcopies : Copies [2, 3, 4] "a/b" (layeredArrivals.map Prod.fst) := by decide +kernel
  obtain ⟨kept, id, hkept, hid, hfirst, hlowest⟩ :=
    exists_copy_kept hb (by rw [hwanted]; simp) (hwanted ▸ hcopies)
  obtain rfl : 2 = id := by
    rw [hwanted] at hfirst
    exact Option.some.inj hfirst
  exact ⟨g, kept, hb, hwanted, hannounced, hcopies, hkept, hid, hlowest hannounced⟩

end Registry

end TopicBridge
