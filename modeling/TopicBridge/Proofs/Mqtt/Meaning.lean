/-
**What the entries of a property list mean.**

A property list is read entry by entry, and the entries of one identifier do not look at those of
another.  So what a list means can be said of each identifier alone, by the values that the list
gives for it: of some identifiers all values are kept, of some the last, and of those that nobody
looks at none.  It does not matter in which order the entries of different identifiers stand, nor
whether there are entries that are not kept.  A list of which a part is not an entry means nothing:
it is an error wherever that part stands.

Main definitions:

* `Mqtt.Keep`, `PropertyId.keep` — which values of an identifier are kept;
* `Mqtt.Properties.given`, `Properties.values` — the values that entries give for an identifier, and
  those that a property list has;
* `Mqtt.Properties.ReadsAs` — what becomes of the lists that begin with some entries.

Main results:

* `Properties.values_ofList` — a property list has what is kept of the values that are given;
* `Properties.ofList_eq_of_filter` — entries that are not kept change nothing;
* `Properties.entries_of_cut`, `Properties.entries_of_unknown` — a part of an entry and a code that
  nobody knows are errors;
* `Properties.readsAs` — **what a property list means, and when it means nothing**.
-/

import TopicBridge.Proofs.Mqtt.Spelling

set_option autoImplicit false

namespace TopicBridge.Mqtt

/-! ### What is kept -/

/-- Which of the values that a list gives for an identifier are kept. -/
inductive Keep where
  | last
  | all
  | nothing
  deriving DecidableEq, Repr

/-- The values that are kept of some. -/
def Keep.of {α : Type} : Keep → List α → List α
  | last, values => values.getLast?.toList
  | all, values => values
  | nothing, _ => []

theorem Keep.of_cons_of {α : Type} (k : Keep) (v : α) (values : List α) :
    k.of (v :: k.of values) = k.of (v :: values) := by
  cases k with
  | last =>
      rcases List.eq_nil_or_concat values with rfl | ⟨front, latest, rfl⟩
      · rfl
      · simp [Keep.of, List.getLast?_cons]
  | all => rfl
  | nothing => rfl

/-- What is kept of the values of an identifier: all that a message or a subscription may have many
of, the last of what it has one of, and nothing of what nobody looks at. -/
def PropertyId.keep : PropertyId → Keep
  | subscriptionIdentifier => .all
  | userProperty => .all
  | authenticationMethod => .nothing
  | authenticationData => .nothing
  | requestProblemInformation => .nothing
  | willDelayInterval => .nothing
  | requestResponseInformation => .nothing
  | responseInformation => .nothing
  | serverReference => .nothing
  | wildcardSubscriptionAvailable => .nothing
  | sharedSubscriptionAvailable => .nothing
  | _ => .last

namespace Property

/-- The value of an entry, if it is one of this identifier. -/
def valueOf? (id : PropertyId) (e : Property) : Option id.form.Value :=
  if h : e.id = id then some (h ▸ e.value) else none

/-- The entry is one of those that something is kept of. -/
def isKept (e : Property) : Bool := e.id.keep ≠ .nothing

theorem valueOf?_self (id : PropertyId) (v : id.form.Value) : valueOf? id ⟨id, v⟩ = some v := by
  rw [valueOf?, dif_pos rfl]

theorem valueOf?_of_ne {id : PropertyId} {e : Property} (h : e.id ≠ id) : valueOf? id e = none :=
  dif_neg h

end Property

namespace Properties

/-- The values that entries give for an identifier, in order. -/
def given (id : PropertyId) (es : List Property) : List id.form.Value :=
  es.filterMap (Property.valueOf? id)

/-- The values that a property list has for an identifier. -/
def values (p : Properties) : (id : PropertyId) → List id.form.Value
  | .payloadFormatIndicator => p.payloadFormatIndicator.toList
  | .messageExpiryInterval => p.messageExpiryInterval.toList
  | .contentType => p.contentType.toList
  | .responseTopic => p.responseTopic.toList
  | .correlationData => p.correlationData.toList
  | .subscriptionIdentifier => p.subscriptionIdentifiers
  | .sessionExpiryInterval => p.sessionExpiryInterval.toList
  | .assignedClientIdentifier => p.assignedClientIdentifier.toList
  | .serverKeepAlive => p.serverKeepAlive.toList
  | .authenticationMethod => []
  | .authenticationData => []
  | .requestProblemInformation => []
  | .willDelayInterval => []
  | .requestResponseInformation => []
  | .responseInformation => []
  | .serverReference => []
  | .reasonString => p.reasonString.toList
  | .receiveMaximum => p.receiveMaximum.toList
  | .topicAliasMaximum => p.topicAliasMaximum.toList
  | .topicAlias => p.topicAlias.toList
  | .maximumQoS => p.maximumQoS.toList
  | .retainAvailable => p.retainAvailable.toList
  | .userProperty => p.userProperties
  | .maximumPacketSize => p.maximumPacketSize.toList
  | .wildcardSubscriptionAvailable => []
  | .subscriptionIdentifiersAvailable => p.subscriptionIdentifiersAvailable.toList
  | .sharedSubscriptionAvailable => []

variable {id : PropertyId} {e : Property} {es : List Property}

/-- An entry does not touch the values of another identifier. -/
theorem values_cons_of_ne (h : e.id ≠ id) (p : Properties) :
    (p.cons e).values id = p.values id := by
  obtain ⟨id', v⟩ := e
  cases id' <;> cases id <;> try rfl
  -- what is left are the identifiers that are the same
  all_goals exact absurd rfl h

theorem toList_or_some {α : Type} (o : Option α) (v : α) :
    (o.or (some v)).toList = Keep.last.of (v :: o.toList) := by
  cases o <;> rfl

/-- An entry stands in front of the values that its identifier has already. -/
theorem values_cons_self (id : PropertyId) (v : id.form.Value) (p : Properties) :
    (p.cons ⟨id, v⟩).values id = id.keep.of (v :: p.values id) := by
  cases id with
  | subscriptionIdentifier | userProperty => rfl
  | authenticationMethod | authenticationData | requestProblemInformation | willDelayInterval
  | requestResponseInformation | responseInformation | serverReference
  | wildcardSubscriptionAvailable | sharedSubscriptionAvailable => rfl
  | _ => exact toList_or_some _ v

/-- **A property list has what is kept of the values that are given.** -/
theorem values_ofList (id : PropertyId) (es : List Property) :
    (ofList es).values id = id.keep.of (given id es) := by
  induction es with
  | nil => cases id <;> rfl
  | cons e es ih =>
      rw [ofList_cons]
      by_cases h : e.id = id
      · obtain ⟨id', v⟩ := e
        obtain rfl : id' = id := h
        have hgiven : given id' (⟨id', v⟩ :: es) = v :: given id' es :=
          List.filterMap_cons_some (Property.valueOf?_self id' v)
        rw [values_cons_self, ih, hgiven, Keep.of_cons_of]
      · have hgiven : given id (e :: es) = given id es :=
          List.filterMap_cons_none (Property.valueOf?_of_ne h)
        rw [values_cons_of_ne h, ih, hgiven]

/-- A property list is its values. -/
theorem ext_values {p q : Properties} (h : ∀ id, p.values id = q.values id) : p = q := by
  have hone : ∀ {α : Type} {a b : Option α}, a.toList = b.toList → a = b := by
    rintro α (_ | a) (_ | b) hsame <;> cases hsame <;> rfl
  cases p
  cases q
  rw [mk.injEq]
  exact ⟨hone (h .payloadFormatIndicator), hone (h .messageExpiryInterval), hone (h .contentType),
    hone (h .responseTopic), hone (h .correlationData), h .subscriptionIdentifier,
    hone (h .sessionExpiryInterval), hone (h .assignedClientIdentifier),
    hone (h .serverKeepAlive), hone (h .reasonString), hone (h .receiveMaximum),
    hone (h .topicAliasMaximum), hone (h .topicAlias), hone (h .maximumQoS),
    hone (h .retainAvailable), h .userProperty, hone (h .maximumPacketSize),
    hone (h .subscriptionIdentifiersAvailable)⟩

/-- Lists that give the same values for each identifier of which something is kept mean the same. -/
theorem ofList_eq_of_given {es' : List Property}
    (h : ∀ id : PropertyId, id.keep ≠ .nothing → given id es' = given id es) :
    ofList es' = ofList es := by
  refine ext_values fun id => ?_
  rw [values_ofList, values_ofList]
  by_cases hkeep : id.keep = .nothing
  · rw [hkeep]
    rfl
  · rw [h id hkeep]

/-- The values of an identifier of which something is kept are those that the kept entries give. -/
theorem given_filter_isKept (hkeep : id.keep ≠ .nothing) (es : List Property) :
    given id (es.filter Property.isKept) = given id es := by
  rw [given, given, List.filterMap_filter]
  refine List.filterMap_congr fun e _ => ?_
  split
  · rfl
  · rename_i hnot
    refine (Property.valueOf?_of_ne ?_).symm
    rintro rfl
    exact hnot (decide_eq_true hkeep)

/-- **Entries that are not kept change nothing**, wherever they stand. -/
theorem ofList_eq_of_filter {es' : List Property}
    (h : es'.filter Property.isKept = es.filter Property.isKept) : ofList es' = ofList es := by
  refine ofList_eq_of_given fun id hkeep => ?_
  rw [← given_filter_isKept hkeep es', h, given_filter_isKept hkeep]

/-! ### Lists that mean nothing -/

theorem entriesFrom_of_error {seen : List Property} {bytes tail : Bytes} {why : DecodeError}
    (hne : bytes ≠ []) (h : Property.read bytes = .error why tail) :
    entriesFrom seen bytes = .error why := by
  rw [entriesFrom, if_neg (by simpa using hne)]
  split
  · rename_i hread
    rw [h] at hread
    cases hread
  · rename_i hread
    rw [h] at hread
    cases hread
    rfl

variable {lead body bad more : Bytes} {why : DecodeError}

/-- What is read behind some entries decides whether the list is one. -/
theorem entries_append_of_error {tail : Bytes} (hbody : Lists body es) (hne : bad ≠ [])
    (h : Property.read bad = .error why tail) : entries (body ++ bad) = .error why := by
  rw [entries, entriesFrom_of_lists hbody]
  exact entriesFrom_of_error hne h

/-- A list that ends inside an entry is an error. -/
theorem entries_of_cut {entry : Bytes} (hbody : Lists body es) (he : Property.Spells entry e)
    (hcut : bad <+: entry) (hne : bad ≠ []) (hshort : bad.length < entry.length) :
    entries (body ++ bad) = .error .insufficientData := by
  obtain ⟨tail, hread⟩ := Property.recognizes.missing he hcut hshort
  exact entries_append_of_error hbody hne hread

theorem ofCode?_eq_none {c : UInt8} (h : ∀ id : PropertyId, id.code ≠ c) :
    PropertyId.ofCode? c = none := by
  cases hid : PropertyId.ofCode? c with
  | none => rfl
  | some id => exact absurd (PropertyId.code_of_ofCode? hid) (h id)

/-- A code that nobody knows is an error where an entry should stand. -/
theorem entries_of_unknown {c : UInt8} (hbody : Lists body es)
    (hc : ∀ id : PropertyId, id.code ≠ c) (bytes : Bytes) :
    entries (body ++ c :: bytes) = .error (.invalidPropertyId c) := by
  have hread : Property.read (c :: bytes) = .error (.invalidPropertyId c) bytes := by
    have hbyte : Reader.byte (c :: bytes) = .ok c bytes := rfl
    rw [Property.read, Reader.bind_of_ok hbyte, ofCode?_eq_none hc]
    rfl
  exact entries_append_of_error hbody (List.cons_ne_nil _ _) hread

theorem value_read_of_error (hlead : VarInt.Spells lead body.length)
    (h : entries body = .error why) (more : Bytes) :
    read.value (lead ++ body ++ more) = .error why := by
  have hsize := Reader.varInt_recognizes.takes hlead
  have hbody := Reader.takes_take body
  have hread : read (lead ++ body ++ more) = .error why more := by
    rw [read, List.append_assoc, hsize.bind_append, hbody.bind_append, h]
    rfl
  rw [Reader.value, hread]

/-! ### What becomes of a list -/

/-- What becomes of the property lists that begin with the entries `es`, which `body` spells. -/
structure ReadsAs (body : Bytes) (es : List Property) : Prop where
  /-- Behind its length the list is read, and nothing of what stands behind it; each identifier has
  then what is kept of the values that are given for it. -/
  whole : ∀ {lead : Bytes}, VarInt.Spells lead body.length → ∀ more,
    ∃ p : Properties, read (lead ++ body ++ more) = .ok p more ∧
      ∀ id : PropertyId, p.values id = id.keep.of (given id es)
  /-- A list with the same kept entries, whatever other entries stand among them, means the same. -/
  skipped : ∀ {lead lead' body' : Bytes} {es' : List Property}, VarInt.Spells lead body.length →
    VarInt.Spells lead' body'.length → Lists body' es' →
    es'.filter Property.isKept = es.filter Property.isKept → ∀ more more',
      read.value (lead' ++ body' ++ more') = read.value (lead ++ body ++ more)
  /-- A list that ends inside an entry is an error, whatever stands behind it. -/
  cut : ∀ {lead entry bad : Bytes} {e : Property}, Property.Spells entry e → bad <+: entry →
    bad ≠ [] → bad.length < entry.length → VarInt.Spells lead (body ++ bad).length → ∀ more,
      read.value (lead ++ (body ++ bad) ++ more) = .error .insufficientData
  /-- So is a list with an identifier that nobody knows, whatever follows in it. -/
  unknown : ∀ {lead bytes : Bytes} {c : UInt8}, (∀ id : PropertyId, id.code ≠ c) →
    VarInt.Spells lead (body ++ c :: bytes).length → ∀ more,
      read.value (lead ++ (body ++ c :: bytes) ++ more) = .error (.invalidPropertyId c)
  /-- So is every list that does not go on with entries until its end. -/
  otherwise : ∀ {lead bytes : Bytes}, (¬∃ es', Lists (body ++ bytes) es') →
    VarInt.Spells lead (body ++ bytes).length → ∀ more,
      ∃ why, read.value (lead ++ (body ++ bytes) ++ more) = .error why
  /-- And where the bytes end before the list does, some are missing. -/
  missing : ∀ {lead part : Bytes}, VarInt.Spells lead body.length → part <+: lead ++ body →
    part.length < (lead ++ body).length → read.value part = .error .insufficientData

theorem spells_of_lists (hlead : VarInt.Spells lead body.length) (hbody : Lists body es) :
    Spells (lead ++ body) (ofList es) := ⟨lead, body, es, rfl, hlead, hbody, rfl⟩

/-- **What a property list means, and when it means nothing.**  A list of entries, in any order and
with any repetitions, is read as a whole and no further: of each identifier the values are kept that
`PropertyId.keep` says, and the entries of which nothing is kept change nothing.  A list that ends
inside an entry, or in which anything but an entry stands, is not read at all. -/
theorem readsAs (hbody : Lists body es) : ReadsAs body es where
  whole := by
    intro lead hlead more
    have hread := recognizes.takes (spells_of_lists hlead hbody) more
    exact ⟨ofList es, hread, fun id => values_ofList id es⟩
  skipped := by
    intro lead lead' body' es' hlead hlead' hbody' hsame more more'
    have hread := recognizes.takes (spells_of_lists hlead hbody) more
    have hread' := recognizes.takes (spells_of_lists hlead' hbody') more'
    rw [ofList_eq_of_filter hsame] at hread'
    rw [Reader.value, Reader.value, hread, hread']
  cut := by
    intro lead entry bad e he hcut hne hshort hlead more
    exact value_read_of_error hlead (entries_of_cut hbody he hcut hne hshort) more
  unknown := by
    intro lead bytes c hc hlead more
    exact value_read_of_error hlead (entries_of_unknown hbody hc bytes) more
  otherwise := by
    intro lead bytes hnone hlead more
    cases hall : entries (body ++ bytes) with
    | ok es' => exact absurd ⟨es', entries_eq_ok_iff.1 hall⟩ hnone
    | error why => exact ⟨why, value_read_of_error hlead hall more⟩
  missing := by
    intro lead part hlead hpart hshort
    obtain ⟨tail, hread⟩ := recognizes.missing (spells_of_lists hlead hbody) hpart hshort
    rw [Reader.value, hread]

/-- A list with a repeated identifier, one of which nothing is kept and a number in more groups than
it needs. -/
theorem readsAs_repeated :
    Lists [0x24, 1, 0x17, 0, 0x0B, 0x85, 0x00, 0x24, 0]
        [⟨.maximumQoS, (1 : UInt8)⟩, ⟨.requestProblemInformation, (0 : UInt8)⟩,
          ⟨.subscriptionIdentifier, (5 : UInt32)⟩, ⟨.maximumQoS, (0 : UInt8)⟩] ∧
      ReadsAs [0x24, 1, 0x17, 0, 0x0B, 0x85, 0x00, 0x24, 0]
        [⟨.maximumQoS, (1 : UInt8)⟩, ⟨.requestProblemInformation, (0 : UInt8)⟩,
          ⟨.subscriptionIdentifier, (5 : UInt32)⟩, ⟨.maximumQoS, (0 : UInt8)⟩] := by
  have hgroups : VarInt.Spells [0x85, 0x00] 5 := ⟨.more (by decide) (.last (by decide)), by decide⟩
  have hlists : Lists ([0x24, 1] ++ ([0x17, 0] ++ ([0x0B, 0x85, 0x00] ++ ([0x24, 0] ++ []))))
      [⟨.maximumQoS, (1 : UInt8)⟩, ⟨.requestProblemInformation, (0 : UInt8)⟩,
        ⟨.subscriptionIdentifier, (5 : UInt32)⟩, ⟨.maximumQoS, (0 : UInt8)⟩] :=
    .cons ⟨[1], rfl, rfl⟩ (.cons ⟨[0], rfl, rfl⟩
      (.cons ⟨[0x85, 0x00], rfl, hgroups⟩ (.cons ⟨[0], rfl, rfl⟩ .nil)))
  exact ⟨hlists, readsAs hlists⟩

end Properties

end TopicBridge.Mqtt
