/-
**Which bytes of a packet are looked at.**

The body of a packet consists of the fields of its type, and of bytes that are left behind them.  A
message ends with its payload and the answer to a subscription with its codes, so that nothing is
left behind them.  The other bodies end with a property list that may be left out if nothing is
left: behind such a list, and behind the first byte and the length of an answer to a ping, nobody
looks.  Bytes may stand there, and the packet is the same whichever they are.

Main definitions:

* `Mqtt.Reader.Splits` — which bytes a reader takes, and what it leaves;
* `Mqtt.Properties.Closes` — a property list at the end of a body;
* `Mqtt.Packet.Fields` — the fields of a packet, and what may be left behind them;
* `Mqtt.Decoder.Accepts` — the parts of a frame that is accepted.

Main results:

* `Reader.Splits.bind` — one part of a body behind the other;
* `Packet.splits` — a body is its fields and what is left behind them;
* `Packet.Fields.of_left_ne_nil` — where something may be left, anything may;
* `Decoder.accounts` — **what is accepted, and which of its bytes are not looked at**.
-/

import TopicBridge.Proofs.Mqtt.Limit

set_option autoImplicit false

namespace TopicBridge.Mqtt

/-! ### Readers -/

namespace Reader

variable {α β : Type} {m : Reader α} {f : α → Reader β} {P : Bytes → α → Prop}
  {F F' : Bytes → Bytes → α → Prop} {G : α → Bytes → Bytes → β → Prop}

/-- What a reader takes and what it leaves of some bytes, if it gives a value: it may be that what
it takes depends on what is left. -/
def Splits (m : Reader α) (parts : Bytes → Bytes → α → Prop) : Prop :=
  ∀ bytes left a, m bytes = .ok a left ↔ ∃ fields, bytes = fields ++ left ∧ parts fields left a

theorem Splits.of_iff (h : Splits m F)
    (hiff : ∀ fields left a, F' fields left a ↔ F fields left a) : Splits m F' := by
  intro bytes left a
  rw [h bytes left a]
  exact exists_congr fun fields => and_congr_right fun _ => (hiff fields left a).symm

theorem Recognizes.splits (h : Recognizes m P) : Splits m fun fields _ a => P fields a := by
  intro bytes left a
  constructor
  · exact h.spelled
  · rintro ⟨fields, rfl, hspells⟩
    exact h.takes hspells left

theorem throw_splits (e : DecodeError) : Splits (throw e : Reader α) fun _ _ _ => False :=
  (throw_recognizes e).splits

theorem rest_splits : Splits rest fun fields left a => left = [] ∧ a = fields := by
  intro bytes left a
  constructor
  · intro h
    cases h
    exact ⟨bytes, (List.append_nil bytes).symm, rfl, rfl⟩
  · rintro ⟨fields, rfl, rfl, rfl⟩
    rw [List.append_nil]
    rfl

/-- One part of a body behind the other. -/
theorem Splits.bind (hm : Splits m F) (hf : ∀ a, Splits (f a) (G a)) :
    Splits (m >>= f) fun fields left b =>
      ∃ a front back, fields = front ++ back ∧ F front (back ++ left) a ∧ G a back left b := by
  intro bytes left b
  constructor
  · intro h
    obtain ⟨a, mid, hfirst, hsecond⟩ := exists_of_bind h
    obtain ⟨front, rfl, hfront⟩ := (hm _ _ _).1 hfirst
    obtain ⟨back, rfl, hback⟩ := (hf a _ _ _).1 hsecond
    exact ⟨front ++ back, (List.append_assoc ..).symm, a, front, back, rfl, hfront, hback⟩
  · rintro ⟨fields, rfl, a, front, back, rfl, hfront, hback⟩
    have hfirst : m (front ++ back ++ left) = .ok a (back ++ left) :=
      (hm _ _ _).2 ⟨front, List.append_assoc .., hfront⟩
    rw [bind_of_ok hfirst]
    exact (hf a _ _ _).2 ⟨back, rfl, hback⟩

theorem Splits.map (hm : Splits m F) (g : α → β) :
    Splits (m >>= fun a => pure (g a)) fun fields left b => ∃ a, F fields left a ∧ b = g a := by
  refine (hm.bind fun a => (pure_recognizes (g a)).splits).of_iff ?_
  intro fields left b
  constructor
  · rintro ⟨a, hfields, rfl⟩
    exact ⟨a, fields, [], (List.append_nil fields).symm, hfields, rfl, rfl⟩
  · rintro ⟨a, front, back, rfl, hfront, rfl, rfl⟩
    rw [List.append_nil]
    exact ⟨a, hfront, rfl⟩

/-- What stands behind a check is read if the check is passed. -/
theorem Splits.guard {c : Prop} [Decidable c] {e : DecodeError} {g : PUnit → Reader α}
    (hm : Splits m F) :
    Splits (if c then (throw e : Reader PUnit) >>= g else m)
      fun fields left a => ¬c ∧ F fields left a := by
  intro bytes left a
  by_cases hc : c
  · rw [if_pos hc]
    refine iff_of_false (by intro h; cases h) ?_
    rintro ⟨fields, -, hnot, -⟩
    exact hnot hc
  · rw [if_neg hc, hm bytes left a]
    exact exists_congr fun fields => and_congr_right fun _ => (and_iff_right hc).symm

/-- What stands behind a comparison is read if both sides are the same. -/
theorem Splits.guard_ne {γ : Type} [DecidableEq γ] {x y : γ} {e : DecodeError}
    {g : PUnit → Reader α} (hm : Splits m F) :
    Splits (if x ≠ y then (throw e : Reader PUnit) >>= g else m)
      fun fields left a => x = y ∧ F fields left a :=
  hm.guard.of_iff fun _ _ _ => and_congr_left' not_not.symm

/-- A byte, and what stands behind it. -/
theorem Splits.byte_bind {f : UInt8 → Reader β} {G : UInt8 → Bytes → Bytes → β → Prop}
    (hf : ∀ c, Splits (f c) (G c)) :
    Splits (byte >>= f) fun fields left b => ∃ c tail, fields = c :: tail ∧ G c tail left b := by
  refine (byte_recognizes.splits.bind hf).of_iff ?_
  intro fields left b
  constructor
  · rintro ⟨c, tail, rfl, htail⟩
    exact ⟨c, [c], tail, rfl, rfl, htail⟩
  · rintro ⟨c, front, tail, rfl, rfl, htail⟩
    exact ⟨c, tail, rfl, htail⟩

/-- A part that is left out where nothing is left. -/
theorem Splits.optional (hm : Splits m F) (a₀ : α) :
    Splits (atEnd >>= fun ended => if ended then pure a₀ else m) fun fields left a =>
      fields = [] ∧ left = [] ∧ a = a₀ ∨ fields ++ left ≠ [] ∧ F fields left a := by
  intro bytes left a
  cases bytes with
  | nil =>
      constructor
      · intro h
        obtain ⟨rfl, rfl⟩ := of_pure h
        exact ⟨[], rfl, .inl ⟨rfl, rfl, rfl⟩⟩
      · rintro ⟨fields, hnil, ⟨rfl, rfl, rfl⟩ | ⟨hne, -⟩⟩
        · rfl
        · exact absurd hnil.symm hne
  | cons b bytes =>
      refine (hm (b :: bytes) left a).trans ?_
      constructor
      · rintro ⟨fields, hbytes, hfields⟩
        exact ⟨fields, hbytes, .inr ⟨hbytes ▸ List.cons_ne_nil b bytes, hfields⟩⟩
      · rintro ⟨fields, hbytes, ⟨rfl, rfl, -⟩ | ⟨-, hfields⟩⟩
        · cases hbytes
        · exact ⟨fields, hbytes, hfields⟩

end Reader

open Reader

/-! ### Bodies -/

/-- The bytes are a property list at the end of a body, behind which something may be left, or there
are none and nothing is left. -/
inductive Properties.Closes : Bytes → Bytes → Properties → Prop where
  | omitted : Closes [] [] {}
  | given {list : Bytes} {p : Properties} (h : Spells list p) (left : Bytes) : Closes list left p

/-- The fields of a packet end with a property list. -/
def Properties.Ends (fields : Bytes) : Prop :=
  ∃ front list p, fields = front ++ list ∧ Properties.Spells list p

/-- Where something is left behind a property list, the list is there, and anything may be left. -/
theorem Properties.Closes.of_left_ne_nil {list left : Bytes} {p : Properties}
    (h : Properties.Closes list left p) (hne : left ≠ []) :
    Properties.Spells list p ∧ ∀ left', Properties.Closes list left' p := by
  cases h with
  | omitted => exact absurd rfl hne
  | given h _ => exact ⟨h, .given h⟩

theorem Properties.readOptional_splits : Splits Properties.readOptional Properties.Closes := by
  refine (Properties.recognizes.splits.optional {}).of_iff ?_
  intro fields left p
  constructor
  · rintro (_ | ⟨h, left⟩)
    · exact .inl ⟨rfl, rfl, rfl⟩
    · exact .inr ⟨List.append_ne_nil_of_left_ne_nil h.ne_nil left, h⟩
  · rintro (⟨rfl, rfl, rfl⟩ | ⟨-, h⟩)
    · exact .omitted
    · exact .given h left

/-- The fields of `ConnAck`: whether a session is there, a code, and a property list. -/
def ConnAck.Fields (fields left : Bytes) (a : ConnAck) : Prop :=
  ∃ acknowledge list, fields = acknowledge :: a.reasonCode.code :: list ∧
    acknowledge &&& 0xFE = 0 ∧ a.sessionPresent = decide (acknowledge &&& 1 ≠ 0) ∧
    Properties.Closes list left a.properties

theorem ConnAck.Fields.of_left_ne_nil {fields left : Bytes} {a : ConnAck} (h : a.Fields fields left)
    (hne : left ≠ []) : Properties.Ends fields ∧ ∀ left', a.Fields fields left' := by
  obtain ⟨acknowledge, list, rfl, hbits, hsession, hlist⟩ := h
  obtain ⟨hspells, hany⟩ := hlist.of_left_ne_nil hne
  exact ⟨⟨[acknowledge, a.reasonCode.code], list, _, rfl, hspells⟩, fun left' =>
    ⟨acknowledge, list, rfl, hbits, hsession, hany left'⟩⟩

theorem ConnAck.splits (flags : UInt8) :
    Splits (ConnAck.read flags) fun fields left a => flags = 0 ∧ a.Fields fields left := by
  refine (Splits.guard_ne <| .byte_bind fun acknowledge => .guard_ne <| .byte_bind fun code =>
    Properties.readOptional_splits.map _).of_iff ?_
  rintro fields left ⟨session, ⟨code⟩, p⟩
  refine and_congr_right fun _ => ?_
  constructor
  · rintro ⟨acknowledge, list, rfl, hbits, hsession, hlist⟩
    obtain rfl : session = _ := hsession
    exact ⟨acknowledge, code :: list, rfl, hbits, code, list, rfl, p, hlist, rfl⟩
  · rintro ⟨acknowledge, _, rfl, hbits, code', list, rfl, p', hlist, ha⟩
    cases ha
    exact ⟨acknowledge, list, rfl, hbits, rfl, hlist⟩

/-- The number of a message takes two bytes, if the message is to be acknowledged. -/
def Publish.SpellsId (qos : QoS) (bytes : Bytes) (id? : Option UInt16) : Prop :=
  qos = .atMostOnce ∧ bytes = [] ∧ id? = none ∨
    qos ≠ .atMostOnce ∧ ∃ id, id ≠ 0 ∧ bytes = Bytes.ofUInt16 id ∧ id? = some id

theorem Publish.readId_splits (qos : QoS) :
    Splits (Publish.readId qos) fun fields _ id? => SpellsId qos fields id? := by
  rw [Publish.readId]
  split
  · rename_i hqos
    refine (pure_recognizes none).splits.of_iff ?_
    intro fields left id?
    rw [SpellsId, and_iff_right hqos, or_iff_left fun h => h.1 hqos]
  · rename_i hqos
    refine (twoBytes_recognizes.splits.bind fun id =>
      Splits.guard (pure_recognizes (some id)).splits).of_iff ?_
    intro fields left id?
    rw [SpellsId, and_iff_right hqos, or_iff_right fun h => hqos h.1]
    constructor
    · rintro ⟨id, hne, rfl, rfl⟩
      exact ⟨id, _, [], (List.append_nil _).symm, rfl, hne, rfl, rfl⟩
    · rintro ⟨id, front, back, rfl, rfl, hne, rfl, rfl⟩
      exact ⟨id, hne, List.append_nil _, rfl⟩

/-- The fields of a message, which are all of its body, and the flags in the first byte. -/
structure Publish.Fields (flags : UInt8) (fields : Bytes) (p : Publish) : Prop where
  qos_eq : QoS.ofNat? ((flags >>> 1) &&& 3).toNat = some p.qos
  dup_eq : p.dup = decide (flags &&& 8 ≠ 0)
  retain_eq : p.retain = decide (flags &&& 1 ≠ 0)
  dup_of_qos : p.qos = .atMostOnce → p.dup = false
  topic_ne : p.topic ≠ ""
  topic_plus : '+' ∉ p.topic.toList
  topic_hash : '#' ∉ p.topic.toList
  parts : ∃ topic id list, fields = topic ++ (id ++ (list ++ p.payload)) ∧
    SpellsText topic p.topic ∧ SpellsId p.qos id p.packetId ∧ Properties.Spells list p.properties

theorem Publish.splits (flags : UInt8) :
    Splits (Publish.read flags) fun fields left p => left = [] ∧ p.Fields flags fields := by
  simp only [Publish.read]
  split
  · rename_i hqos
    refine (throw_splits _).of_iff ?_
    intro fields left p
    refine iff_false_intro ?_
    rintro ⟨-, hfields⟩
    rw [hfields.qos_eq] at hqos
    cases hqos
  · rename_i qos hqos
    refine (Splits.guard <| text_recognizes.splits.bind fun topic => .guard <|
      (Publish.readId_splits qos).bind fun id => Properties.recognizes.splits.bind fun list =>
        .guard <| rest_splits.map _).of_iff ?_
    rintro fields left ⟨dup, qos', retain, topic, id?, payload, p⟩
    constructor
    · rintro ⟨rfl, hbits, hdup, hretain, hfirst, hne, hplus, hhash, t, i, l, rfl, ht, hi, hl⟩
      obtain rfl : dup = _ := hdup
      obtain rfl : retain = _ := hretain
      obtain rfl := Option.some.inj (hqos.symm.trans hbits)
      refine ⟨?_, topic, t, _, rfl, ht, not_or.2 ⟨hplus, hhash⟩, id?, i, _, rfl, hi, p, l, payload,
        rfl, hl, hne, payload, ⟨rfl, rfl⟩, rfl⟩
      rintro ⟨hzero, hset⟩
      exact of_decide_eq_false (hfirst hzero) hset
    · rintro ⟨hdup, topic', t, _, rfl, ht, hwild, id', i, _, rfl, hi, p', l, _, rfl, hl, hne, _,
        ⟨rfl, rfl⟩, hp⟩
      cases hp
      obtain ⟨hplus, hhash⟩ := not_or.1 hwild
      refine ⟨rfl, hqos, rfl, rfl, fun hzero => decide_eq_false fun hset => hdup ⟨hzero, hset⟩,
        hne, hplus, hhash, t, i, l, rfl, ht, hi, hl⟩

/-- The fields of an acknowledgement: a number, which may be all, or else a code and a property
list, of which nothing is kept. -/
inductive Ack.Fields : Bytes → Bytes → Ack → Prop where
  | short (id : UInt16) : Fields (Bytes.ofUInt16 id) [] ⟨id, .success⟩
  | long (id : UInt16) (code : UInt8) {list left : Bytes} {p : Properties}
      (h : Properties.Closes list left p) :
      Fields (Bytes.ofUInt16 id ++ code :: list) left ⟨id, ⟨code⟩⟩

theorem Ack.Fields.of_left_ne_nil {fields left : Bytes} {a : Ack} (h : a.Fields fields left)
    (hne : left ≠ []) : Properties.Ends fields ∧ ∀ left', a.Fields fields left' := by
  cases h with
  | short id => exact absurd rfl hne
  | long id code hlist =>
      obtain ⟨hspells, hany⟩ := hlist.of_left_ne_nil hne
      refine ⟨⟨Bytes.ofUInt16 id ++ [code], _, _, ?_, hspells⟩, fun left' =>
        .long id code (hany left')⟩
      rw [List.append_assoc, List.singleton_append]

theorem Ack.splits (expected flags : UInt8) :
    Splits (Ack.read expected flags) fun fields left a =>
      flags = expected ∧ a.Fields fields left := by
  refine (Splits.guard_ne <| twoBytes_recognizes.splits.bind fun id =>
    (byte_recognizes.splits.optional 0).bind fun code =>
      Properties.readOptional_splits.map fun _ => Ack.mk id ⟨code⟩).of_iff ?_
  intro fields left a
  refine and_congr_right fun _ => ?_
  constructor
  · rintro (_ | ⟨id, code, hlist⟩)
    · exact ⟨_, _, [], (List.append_nil _).symm, rfl, 0, [], [], rfl, .inl ⟨rfl, rfl, rfl⟩, {},
        .omitted, rfl⟩
    · exact ⟨id, _, _, rfl, rfl, code, [code], _, rfl, .inr ⟨List.cons_ne_nil _ _, rfl⟩, _, hlist,
        rfl⟩
  · rintro ⟨id, _, _, rfl, rfl, code, _, list, rfl, hcode, p, hlist, rfl⟩
    rcases hcode with ⟨rfl, hnone, rfl⟩ | ⟨-, rfl⟩
    · obtain ⟨rfl, rfl⟩ := List.append_eq_nil_iff.1 hnone
      rw [List.append_nil, List.append_nil]
      exact .short id
    · exact .long id code hlist

/-- The fields of `SubAck`, which are all of its body: a number, a property list and codes. -/
def SubAck.Fields (fields : Bytes) (a : SubAck) : Prop :=
  ∃ list, fields = Bytes.ofUInt16 a.packetId ++ (list ++ a.reasonCodes.map ReasonCode.code) ∧
    Properties.Spells list a.properties ∧ a.reasonCodes ≠ []

theorem SubAck.splits (flags : UInt8) :
    Splits (SubAck.read flags) fun fields left a => flags = 0 ∧ left = [] ∧ a.Fields fields := by
  refine (Splits.guard_ne <| twoBytes_recognizes.splits.bind fun id =>
    Properties.recognizes.splits.bind fun p => rest_splits.bind fun codes => .guard <|
      (pure_recognizes (SubAck.mk id (codes.map ReasonCode.mk) p)).splits).of_iff ?_
  rintro fields left ⟨id, codes, p⟩
  refine and_congr_right fun _ => ?_
  constructor
  · rintro ⟨rfl, list, rfl, hlist, hne⟩
    have hcodes : (codes.map ReasonCode.code).map ReasonCode.mk = codes := by
      rw [List.map_map]
      exact List.map_id codes
    refine ⟨id, _, _, rfl, rfl, p, list, _, rfl, hlist, _, _, [], (List.append_nil _).symm,
      ⟨rfl, rfl⟩, ?_, rfl, ?_⟩
    · simpa using hne
    · rw [hcodes]
  · rintro ⟨id', _, _, rfl, rfl, p', list, _, rfl, hlist, codes', front, _, rfl, ⟨hnone, rfl⟩, hne,
      rfl, ha⟩
    cases ha
    obtain rfl : left = [] := hnone
    have hbytes : (codes'.map ReasonCode.mk).map ReasonCode.code = codes' := by
      rw [List.map_map]
      exact List.map_id codes'
    refine ⟨rfl, list, ?_, hlist, ?_⟩
    · rw [hbytes, List.append_nil]
    · simpa using hne

/-- The fields of `Disconnect`: none, or a code and a property list. -/
inductive Disconnect.Fields : Bytes → Bytes → Disconnect → Prop where
  | short : Fields [] [] {}
  | long (code : UInt8) {list left : Bytes} {p : Properties} (h : Properties.Closes list left p) :
      Fields (code :: list) left ⟨⟨code⟩, p⟩

theorem Disconnect.Fields.of_left_ne_nil {fields left : Bytes} {p : Disconnect}
    (h : p.Fields fields left) (hne : left ≠ []) :
    Properties.Ends fields ∧ ∀ left', p.Fields fields left' := by
  cases h with
  | short => exact absurd rfl hne
  | long code hlist =>
      obtain ⟨hspells, hany⟩ := hlist.of_left_ne_nil hne
      exact ⟨⟨[code], _, _, rfl, hspells⟩, fun left' => .long code (hany left')⟩

theorem Disconnect.splits (flags : UInt8) :
    Splits (Disconnect.read flags) fun fields left p => flags = 0 ∧ p.Fields fields left := by
  refine (Splits.guard_ne <| Splits.optional (.byte_bind fun code =>
    Properties.readOptional_splits.map fun p => Disconnect.mk ⟨code⟩ p) {}).of_iff ?_
  intro fields left p
  refine and_congr_right fun _ => ?_
  constructor
  · rintro (_ | ⟨code, hlist⟩)
    · exact .inl ⟨rfl, rfl, rfl⟩
    · exact .inr ⟨List.cons_ne_nil _ _, code, _, rfl, _, hlist, rfl⟩
  · rintro (⟨rfl, rfl, rfl⟩ | ⟨-, code, list, rfl, p', hlist, rfl⟩)
    · exact .short
    · exact .long code hlist

/-! ### Packets -/

namespace Packet

/-- The fields of a packet, by the type and the flags in the first byte, and what may be left behind
them. -/
def Fields (type flags : UInt8) (fields left : Bytes) : Packet → Prop
  | connAck a => type = 2 ∧ flags = 0 ∧ a.Fields fields left
  | publish p => type = 3 ∧ left = [] ∧ p.Fields flags fields
  | pubAck a => type = 4 ∧ flags = 0 ∧ a.Fields fields left
  | pubRec a => type = 5 ∧ flags = 0 ∧ a.Fields fields left
  | pubRel a => type = 6 ∧ flags = 2 ∧ a.Fields fields left
  | pubComp a => type = 7 ∧ flags = 0 ∧ a.Fields fields left
  | subAck a => type = 9 ∧ flags = 0 ∧ left = [] ∧ a.Fields fields
  | pingResp => type = 13 ∧ flags = 0 ∧ fields = []
  | disconnect p => type = 14 ∧ flags = 0 ∧ p.Fields fields left
  | connect _ | subscribe _ | pingReq => False

/-- **A body is its fields and what is left behind them.** -/
theorem splits (type flags : UInt8) :
    Splits (reader type flags) fun fields left p => p.Fields type flags fields left := by
  unfold reader
  split
  case h_1 =>
    refine ((ConnAck.splits flags).map connAck).of_iff fun fields left p => ?_
    cases p <;> simp [Fields]
  case h_2 =>
    refine ((Publish.splits flags).map publish).of_iff fun fields left p => ?_
    cases p <;> simp [Fields]
  case h_3 =>
    refine ((Ack.splits 0 flags).map pubAck).of_iff fun fields left p => ?_
    cases p <;> simp [Fields]
  case h_4 =>
    refine ((Ack.splits 0 flags).map pubRec).of_iff fun fields left p => ?_
    cases p <;> simp [Fields]
  case h_5 =>
    refine ((Ack.splits 2 flags).map pubRel).of_iff fun fields left p => ?_
    cases p <;> simp [Fields]
  case h_6 =>
    refine ((Ack.splits 0 flags).map pubComp).of_iff fun fields left p => ?_
    cases p <;> simp [Fields]
  case h_7 =>
    refine ((SubAck.splits flags).map subAck).of_iff fun fields left p => ?_
    cases p <;> simp [Fields, and_assoc]
  case h_8 =>
    refine (Splits.guard_ne (pure_recognizes pingResp).splits).of_iff fun fields left p => ?_
    cases p <;> simp [Fields]
  case h_9 =>
    refine ((Disconnect.splits flags).map disconnect).of_iff fun fields left p => ?_
    cases p <;> simp [Fields]
  case h_10 =>
    refine (throw_splits _).of_iff fun fields left p => ?_
    cases p <;> simp_all [Fields]

/-- **Where something may be left, anything may**: behind a property list, and behind the length of
an answer to a ping. -/
theorem Fields.of_left_ne_nil {type flags : UInt8} {fields left : Bytes} {p : Packet}
    (h : p.Fields type flags fields left) (hne : left ≠ []) :
    (p = pingResp ∧ fields = [] ∨ Properties.Ends fields) ∧
      ∀ left', p.Fields type flags fields left' := by
  cases p with
  | connAck p | pubAck p | pubRec p | pubRel p | pubComp p | disconnect p =>
      obtain ⟨htype, hflags, hfields⟩ := h
      obtain ⟨hends, hany⟩ := hfields.of_left_ne_nil hne
      exact ⟨.inr hends, fun left' => ⟨htype, hflags, hany left'⟩⟩
  | pingResp => exact ⟨.inl ⟨rfl, h.2.2⟩, fun _ => h⟩
  | publish p => exact absurd h.2.1 hne
  | subAck a => exact absurd h.2.2.1 hne
  | connect _ | subscribe _ | pingReq => exact h.elim

theorem ofFrame_eq_ok_iff {f : Frame} {p : Packet} :
    ofFrame f = .ok p ↔
      ∃ fields left, f.body = fields ++ left ∧ p.Fields f.type f.flags fields left := by
  constructor
  · intro h
    obtain ⟨left, hread⟩ := exists_of_value h
    obtain ⟨fields, hbody, hfields⟩ := (splits _ _ _ _ _).1 hread
    exact ⟨fields, left, hbody, hfields⟩
  · rintro ⟨fields, left, hbody, hfields⟩
    have hread := (splits _ _ _ _ _).2 ⟨fields, hbody, hfields⟩
    rw [ofFrame, value, hread]

end Packet

/-! ### Frames -/

namespace Decoder

variable {d : Decoder} {bytes rest : Bytes} {p : Packet}

/-- The parts of a frame that a decoder accepts as a packet: the first byte, the length, the fields
and what is left behind them. -/
structure Accepts (d : Decoder) (first : UInt8) (size fields left : Bytes) (p : Packet) : Prop where
  spells : VarInt.Spells size (fields ++ left).length
  size_le : 1 + size.length + (fields ++ left).length ≤ d.limit
  fields : p.Fields (first >>> 4) (first &&& 0x0F) fields left

theorem decode_eq_some_iff :
    d.decode bytes = .ok (some (p, rest)) ↔
      ∃ first size fields left, bytes = first :: (size ++ (fields ++ left ++ rest)) ∧
        d.Accepts first size fields left p := by
  constructor
  · intro h
    obtain ⟨f, hsplit, hpacket⟩ := exists_of_decode h
    obtain ⟨size, rfl, hspells, hle⟩ := Frame.split_eq_some_iff.1 hsplit
    obtain ⟨fields, left, hbody, hfields⟩ := Packet.ofFrame_eq_ok_iff.1 hpacket
    rw [hbody] at hspells hle ⊢
    exact ⟨f.first, size, fields, left, rfl, hspells, hle, hfields⟩
  · rintro ⟨first, size, fields, left, rfl, hspells, hle, hfields⟩
    have hsplit : Frame.split d.limit (first :: (size ++ (fields ++ left ++ rest))) =
        .ok (some (⟨first, fields ++ left⟩, rest)) :=
      Frame.split_eq_some_iff.2 ⟨size, rfl, hspells, hle⟩
    have hpacket : Packet.ofFrame ⟨first, fields ++ left⟩ = .ok p :=
      Packet.ofFrame_eq_ok_iff.2 ⟨fields, left, rfl, hfields⟩
    rw [decode_of_split hsplit, hpacket]
    rfl

/-- **What is accepted, and which of its bytes are not looked at.**  A packet is read of a frame if
and only if the frame consists of the fields of the packet and of what may be left behind them.
Nothing is left behind a message and behind the answer to a subscription.  Elsewhere bytes may be
left only behind a property list, or behind the length of an answer to a ping; and the packet is the
same whichever bytes stand there, and if none do. -/
theorem accounts (d : Decoder) (p : Packet) :
    (∀ bytes rest, d.decode bytes = .ok (some (p, rest)) ↔
      ∃ first size fields left, bytes = first :: (size ++ (fields ++ left ++ rest)) ∧
        d.Accepts first size fields left p) ∧
    ∀ first size fields left, d.Accepts first size fields left p →
      (∀ m, p = .publish m → left = []) ∧ (∀ a, p = .subAck a → left = []) ∧
        (left ≠ [] →
          (p = .pingResp ∧ fields = [] ∨ Properties.Ends fields) ∧
            ∀ size' left', VarInt.Spells size' (fields ++ left').length →
              1 + size'.length + (fields ++ left').length ≤ d.limit → ∀ more,
                d.decode (first :: (size' ++ (fields ++ left' ++ more))) =
                  .ok (some (p, more))) := by
  refine ⟨fun bytes rest => decode_eq_some_iff, ?_⟩
  intro first size fields left h
  refine ⟨?_, ?_, ?_⟩
  · rintro m rfl
    exact h.fields.2.1
  · rintro a rfl
    exact h.fields.2.2.1
  · intro hne
    obtain ⟨hends, hany⟩ := h.fields.of_left_ne_nil hne
    refine ⟨hends, ?_⟩
    intro size' left' hspells hle more
    exact decode_eq_some_iff.2 ⟨first, size', fields, left', rfl, hspells, hle, hany left'⟩

/-- An acknowledgement is accepted though its fields do not account for the last byte of its body,
which stands behind a property list without entries. -/
theorem decode_pubAck_leftover :
    (default : Decoder).decode [0x40, 5, 0, 3, 0, 0, 0xFF] = .ok (some (.pubAck ⟨3, ⟨0⟩⟩, [])) ∧
      ¬∃ first size fields, [0x40, 5, 0, 3, 0, 0, 0xFF] = first :: (size ++ fields) ∧
        VarInt.Spells size fields.length ∧
        (Packet.pubAck ⟨3, ⟨0⟩⟩).Fields (first >>> 4) (first &&& 0x0F) fields [] := by
  have hone : ∀ b : UInt8, b < 128 → VarInt.Spells [b] b.toNat := fun b hb =>
    ⟨.last hb, Nat.le_add_left 1 3⟩
  constructor
  · have hlist : Properties.Spells [0] {} := ⟨[0], [], [], rfl, hone 0 (by decide), .nil, rfl⟩
    exact decode_eq_some_iff.2 ⟨0x40, [5], [0, 3, 0, 0], [0xFF], rfl, hone 5 (by decide), by decide,
      rfl, rfl, .long 3 0 (.given hlist [0xFF])⟩
  · rintro ⟨first, size, fields, hbytes, hsize, -, -, hfields⟩
    obtain ⟨-, htail⟩ := List.cons.inj hbytes
    -- the length can be read in one way only
    have hread : VarInt.read [5, 0, 3, 0, 0, 0xFF] = .ok (5, [0, 3, 0, 0, 0xFF]) := rfl
    rw [htail, hsize.read fields] at hread
    obtain ⟨-, hbody⟩ := Prod.mk.inj (Except.ok.inj hread)
    cases hfields with
    | short id => cases hbody
    | long id code hlist =>
        obtain rfl : _ = [0, 0xFF] := (List.cons.inj (List.cons.inj (List.cons.inj hbody).2).2).2
        cases hlist with
        | given hspells _ =>
            obtain ⟨lead, body, es, hsection, hlead, -⟩ := hspells
            have hread : VarInt.read [0, 0xFF] = .ok (0, [0xFF]) := rfl
            rw [hsection, hlead.read body] at hread
            obtain ⟨hlen, rfl⟩ := Prod.mk.inj (Except.ok.inj hread)
            cases hlen

end Decoder

end TopicBridge.Mqtt
