/-
**What a relay that is set up has to say of itself.**

A relay opens its sessions with packets that are made from the settings alone: the requests to
connect, and the subscriptions; and it marks with its name what it publishes.  Setting up is meant
to fail for every reason of configuration, so that a relay that is set up can write all of these.
It can as far as filters are concerned, which are patterns and so never too long.  But no text of
the settings that is written as it stands is looked at: a client identifier, a user name, a password
and the name of the relay may be longer than a text on the wire, and the name may be empty, if it is
that of the client.

Main definitions:

* `Endpoint.Fits` — what is said to a broker at the start is not too long;
* `Relay.Introduces` — when the packets of a relay have a written form.

Main results:

* `Mqtt.Properties.exists_encode_iff`, `Mqtt.Connect.exists_encode_iff`,
  `Mqtt.Subscribe.exists_encode_iff` — what the written forms ask for;
* `Relay.introduces_of_new` — **what this comes to for the settings that are accepted**;
* `Relay.new_nameless` — a relay without a name, and one that cannot connect.
-/

import TopicBridge.Proofs.Mqtt.RoundTrip
import TopicBridge.Proofs.Relay.Overlap
import TopicBridge.Proofs.Rule.Outbound

set_option autoImplicit false

namespace TopicBridge

/-! ### Written forms -/

theorem exists_mapM_iff {ε α β : Type} {f : α → Except ε β} {l : List α} :
    (∃ made, l.mapM f = .ok made) ↔ ∀ a ∈ l, ∃ b, f a = .ok b := by
  induction l with
  | nil => exact iff_of_true ⟨[], rfl⟩ (by simp)
  | cons a l ih =>
      rw [List.forall_mem_cons, ← ih]
      simp only [List.mapM_cons, bind_eq_ok_iff]
      constructor
      · rintro ⟨_, b, hb, made, hmade, -⟩
        exact ⟨⟨b, hb⟩, made, hmade⟩
      · rintro ⟨⟨b, hb⟩, made, hmade⟩
        exact ⟨_, b, hb, made, hmade, rfl⟩

namespace Mqtt

theorem exists_writeBinary_iff {field : Bytes} :
    (∃ bytes, writeBinary field = .ok bytes) ↔ field.length ≤ 65535 := by
  rw [writeBinary]
  split_ifs with h <;> simp [h]

/-- An optional field can be written if it is missing, or if it can be written as it is. -/
theorem exists_getD_iff {α : Type} {write : α → Except EncodeError Bytes} {field : Option α} :
    (∃ bytes, (field.map write).getD (.ok []) = .ok bytes) ↔
      ∀ a ∈ field, ∃ bytes, write a = .ok bytes := by
  cases field <;> simp

/-- The values that can be written: those of the standard's sizes. -/
def ValueForm.Fits : (form : ValueForm) → form.Value → Prop
  | byte, _ => True
  | twoBytes, _ => True
  | fourBytes, _ => True
  | varInt, v => UInt32.toNat v ≤ VarInt.maxValue
  | text, s => String.utf8ByteSize s ≤ 65535
  | binary, v => List.length v ≤ 65535
  | textPair, (key, value) => String.utf8ByteSize key ≤ 65535 ∧ String.utf8ByteSize value ≤ 65535

theorem ValueForm.exists_write_iff {form : ValueForm} {v : form.Value} :
    (∃ bytes, form.write v = .ok bytes) ↔ form.Fits v := by
  cases form with
  | byte | twoBytes | fourBytes => exact iff_of_true ⟨_, rfl⟩ trivial
  | varInt =>
      simp only [write, VarInt.write, Fits]
      split_ifs with h <;> simp [h]
  | text => exact exists_writeText_iff
  | binary => exact exists_writeBinary_iff
  | textPair =>
      obtain ⟨key, value⟩ := v
      refine Iff.trans ?_ (and_congr exists_writeText_iff exists_writeText_iff)
      simp only [write, bind_eq_ok_iff]
      constructor
      · rintro ⟨_, k, hk, w, hw, -⟩
        exact ⟨⟨k, hk⟩, w, hw⟩
      · rintro ⟨⟨k, hk⟩, w, hw⟩
        exact ⟨_, k, hk, w, hw, rfl⟩

/-- A property list has a written form if each of its values has one, and it is not too long. -/
theorem Properties.exists_encode_iff {p : Properties} :
    (∃ bytes, p.encode = .ok bytes) ↔ (UInt32.ofNat p.encodedSize).toNat ≤ VarInt.maxValue ∧
      ∀ e ∈ p.toList, e.id.form.Fits e.value := by
  have hentry (e : Property) : (∃ bytes, e.write = .ok bytes) ↔ e.id.form.Fits e.value := by
    rw [← ValueForm.exists_write_iff]
    simp only [Property.write, bind_eq_ok_iff]
    constructor
    · rintro ⟨_, v, hv, -⟩
      exact ⟨v, hv⟩
    · rintro ⟨v, hv⟩
      exact ⟨_, v, hv, rfl⟩
  simp only [← hentry]
  rw [← exists_mapM_iff]
  simp only [encode, writeAll, bind_eq_ok_iff, VarInt.write]
  split_ifs with h
  · constructor
    · rintro ⟨_, _, -, _, ⟨parts, hparts, -⟩, -⟩
      exact ⟨h, parts, hparts⟩
    · rintro ⟨-, parts, hparts⟩
      exact ⟨_, _, rfl, _, ⟨parts, hparts, rfl⟩, rfl⟩
  · exact iff_of_false (by simp) fun hsize => h hsize.1

/-- What a request to connect asks of its parts. -/
theorem Connect.exists_encode_iff {p : Connect} :
    (∃ bytes, p.encode = .ok bytes) ↔ (∃ header, Frame.header 0x10 p.bodySize = .ok header) ∧
      (∃ properties, p.properties.encode = .ok properties) ∧ p.clientId.utf8ByteSize ≤ 65535 ∧
        (∀ s ∈ p.username, s.utf8ByteSize ≤ 65535) ∧ ∀ b ∈ p.password, b.length ≤ 65535 := by
  have huser : (∃ bytes, (p.username.map writeText).getD (.ok []) = .ok bytes) ↔
      ∀ s ∈ p.username, s.utf8ByteSize ≤ 65535 :=
    exists_getD_iff.trans (forall₂_congr fun _ _ => exists_writeText_iff)
  have hpass : (∃ bytes, (p.password.map writeBinary).getD (.ok []) = .ok bytes) ↔
      ∀ b ∈ p.password, b.length ≤ 65535 :=
    exists_getD_iff.trans (forall₂_congr fun _ _ => exists_writeBinary_iff)
  have hclient : (∃ bytes, writeText p.clientId = .ok bytes) ↔ p.clientId.utf8ByteSize ≤ 65535 :=
    exists_writeText_iff
  rw [← huser, ← hpass, ← hclient]
  obtain ⟨protocol, hprotocol⟩ : ∃ bytes, writeText "MQTT" = .ok bytes :=
    exists_writeText_iff.2 (by decide)
  simp only [encode, bind_eq_ok_iff]
  constructor
  · rintro ⟨_, header, hheader, _, -, properties, hproperties, client, hc, user, hu, pass, hp, -⟩
    exact ⟨⟨header, hheader⟩, ⟨properties, hproperties⟩, ⟨client, hc⟩, ⟨user, hu⟩, pass, hp⟩
  · rintro ⟨⟨header, hheader⟩, ⟨properties, hproperties⟩, ⟨client, hc⟩, ⟨user, hu⟩, pass, hp⟩
    exact ⟨_, header, hheader, protocol, hprotocol, properties, hproperties, client, hc, user, hu,
      pass, hp, rfl⟩

/-- What a request to subscribe asks of its parts. -/
theorem Subscribe.exists_encode_iff {p : Subscribe} :
    (∃ bytes, p.encode = .ok bytes) ↔ (∃ header, Frame.header 0x82 p.bodySize = .ok header) ∧
      (∃ properties, p.properties.encode = .ok properties) ∧
        ∀ s ∈ p.subscriptions, s.filter.utf8ByteSize ≤ 65535 := by
  have hone (s : Subscription) :
      (∃ bytes, s.encode = .ok bytes) ↔ s.filter.utf8ByteSize ≤ 65535 := by
    refine Iff.trans ?_ exists_writeText_iff
    simp only [Subscription.encode, bind_eq_ok_iff]
    constructor
    · rintro ⟨_, filter, hfilter, -⟩
      exact ⟨filter, hfilter⟩
    · rintro ⟨filter, hfilter⟩
      exact ⟨_, filter, hfilter, rfl⟩
  simp only [← hone]
  rw [← exists_mapM_iff]
  simp only [encode, bind_eq_ok_iff]
  constructor
  · rintro ⟨_, header, hheader, properties, hproperties, all, hall, -⟩
    exact ⟨⟨header, hheader⟩, ⟨properties, hproperties⟩, all, hall⟩
  · rintro ⟨⟨header, hheader⟩, ⟨properties, hproperties⟩, all, hall⟩
    exact ⟨_, header, hheader, properties, hproperties, all, hall, rfl⟩

namespace Properties

/-- A property that is not there adds nothing. -/
theorem append_entry?_none (id : PropertyId) {front l : List Property} (h : front = l) :
    front ++ entry? id none = l :=
  (List.append_nil front).trans h

/-- The entries of a list with nothing but what a client says of itself. -/
theorem toList_own (ids : List UInt32) (expiry size : Option UInt32)
    (marks : List (String × String)) :
    toList {
      subscriptionIdentifiers := ids
      sessionExpiryInterval := expiry
      userProperties := marks
      maximumPacketSize := size } =
    ids.map (Property.mk .subscriptionIdentifier) ++ entry? .sessionExpiryInterval expiry ++
      marks.map (Property.mk .userProperty) ++ entry? .maximumPacketSize size := by
  -- from the last entry to the first
  refine append_entry?_none .subscriptionIdentifiersAvailable ?_
  refine congrArg (· ++ entry? .maximumPacketSize size) ?_
  refine congrArg (· ++ marks.map (Property.mk .userProperty)) ?_
  refine append_entry?_none .retainAvailable ?_
  refine append_entry?_none .maximumQoS ?_
  refine append_entry?_none .topicAlias ?_
  refine append_entry?_none .topicAliasMaximum ?_
  refine append_entry?_none .receiveMaximum ?_
  refine append_entry?_none .reasonString ?_
  refine append_entry?_none .serverKeepAlive ?_
  refine append_entry?_none .assignedClientIdentifier ?_
  rfl

end Properties

theorem VarInt.size_le (n : UInt32) : VarInt.size n ≤ 4 := by
  unfold VarInt.size
  repeat' split
  all_goals decide

theorem VarInt.toNat_ofNat_le {n : Nat} (h : n ≤ maxValue) : (UInt32.ofNat n).toNat ≤ maxValue := by
  rwa [toNat_ofNat h]

end Mqtt

open Mqtt

/-! ### What sessions say at the start -/

/-- What is said to a broker at the start is not too long. -/
structure Endpoint.Fits (e : Endpoint) (process suffix : String) : Prop where
  clientId : (e.clientId process suffix).utf8ByteSize ≤ 65535
  username : ∀ s ∈ e.username, s.utf8ByteSize ≤ 65535
  password : ∀ s ∈ e.password, s.utf8ByteSize ≤ 65535

namespace SessionSettings

variable {s : SessionSettings} {cleanStart : Bool} {expiry : Option UInt32}

/-- The properties of a request to connect are one number, or two. -/
theorem toList_connect_properties : (s.connect cleanStart expiry).properties.toList =
    Properties.entry? .sessionExpiryInterval expiry ++ [⟨.maximumPacketSize, s.maxPacketSize⟩] := by
  refine (Properties.toList_own [] expiry (some s.maxPacketSize) []).trans ?_
  cases expiry <;> rfl

theorem encodedSize_connect_properties_le (s : SessionSettings) (cleanStart : Bool)
    (expiry : Option UInt32) : (s.connect cleanStart expiry).properties.encodedSize ≤ 10 := by
  rw [Properties.encodedSize, toList_connect_properties]
  cases expiry with
  | none => exact (by decide : 5 ≤ 10)
  | some e => exact Nat.le_refl 10

theorem exists_encode_connect_properties :
    ∃ bytes, (s.connect cleanStart expiry).properties.encode = .ok bytes := by
  have hsize := encodedSize_connect_properties_le s cleanStart expiry
  refine Properties.exists_encode_iff.2 ⟨VarInt.toNat_ofNat_le ?_, ?_⟩
  · rw [VarInt.maxValue]
    exact hsize.trans (by decide)
  · rw [toList_connect_properties]
    cases expiry with
    | none => exact List.forall_mem_singleton.2 trivial
    | some e => exact List.forall_mem_cons.2 ⟨trivial, List.forall_mem_singleton.2 trivial⟩

/-- The longest texts leave a request to connect short enough for a frame. -/
theorem bodySize_connect_le (hclient : s.clientId.utf8ByteSize ≤ 65535)
    (huser : ∀ t ∈ s.username, t.utf8ByteSize ≤ 65535)
    (hpassword : ∀ t ∈ s.password, t.utf8ByteSize ≤ 65535) :
    (s.connect cleanStart expiry).bodySize ≤ VarInt.maxValue := by
  have hid : textSize (s.connect cleanStart expiry).clientId ≤ 65537 := by
    simp only [textSize, connect]
    omega
  have hu : ((s.connect cleanStart expiry).username.map textSize).getD 0 ≤ 65537 := by
    simp only [connect]
    cases hs : s.username with
    | none => exact Nat.zero_le _
    | some t =>
        have ht := huser t hs
        simp only [Option.map_some, Option.getD_some, textSize]
        omega
  have hw : ((s.connect cleanStart expiry).password.map fun bytes => 2 + bytes.length).getD 0 ≤
      65537 := by
    simp only [connect]
    cases hs : s.password with
    | none => exact Nat.zero_le _
    | some t =>
        have ht := hpassword t hs
        simp only [Option.map_some, Option.getD_some, Bytes.length_ofString]
        omega
  have hsize := encodedSize_connect_properties_le s cleanStart expiry
  have hlen := VarInt.size_le (UInt32.ofNat (s.connect cleanStart expiry).properties.encodedSize)
  rw [Connect.bodySize, Properties.wireSize, VarInt.maxValue]
  omega

/-- A request to connect can be written exactly if none of its texts is too long. -/
theorem exists_encode_connect_iff : (∃ bytes, (s.connect cleanStart expiry).encode = .ok bytes) ↔
    s.clientId.utf8ByteSize ≤ 65535 ∧ (∀ t ∈ s.username, t.utf8ByteSize ≤ 65535) ∧
      ∀ t ∈ s.password, t.utf8ByteSize ≤ 65535 := by
  have hpassword : (∀ b ∈ (s.connect cleanStart expiry).password, b.length ≤ 65535) ↔
      ∀ t ∈ s.password, t.utf8ByteSize ≤ 65535 := by
    cases hp : s.password <;> simp [connect, hp, Bytes.length_ofString]
  rw [Connect.exists_encode_iff, hpassword]
  constructor
  · rintro ⟨-, -, htexts⟩
    exact htexts
  · intro h
    exact ⟨⟨_, Frame.header_of_le (bodySize_connect_le h.1 h.2.1 h.2.2)⟩,
      exists_encode_connect_properties, h⟩

end SessionSettings

/-- A pattern is not too long for a text on the wire. -/
theorem Pattern.utf8ByteSize_text_le (p : Pattern) : p.text.utf8ByteSize ≤ 65535 := by
  have h := p.isPattern
  unfold Topic.patternError? Topic.textError? at h
  split_ifs at h with hempty hlong
  all_goals simp_all [Topic.maxSize]

namespace Subscriber

variable {i : Interest} {id : UInt16} {withId : Bool}

theorem toList_subscribePacket_properties : (subscribePacket id i withId).properties.toList =
    if withId then [⟨.subscriptionIdentifier, i.id⟩] else [] := by
  refine (Properties.toList_own (if withId then [i.id] else []) none none []).trans ?_
  cases withId <;> rfl

theorem encodedSize_subscribePacket_properties_le (i : Interest) (id : UInt16) (withId : Bool) :
    (subscribePacket id i withId).properties.encodedSize ≤ 5 := by
  rw [Properties.encodedSize, toList_subscribePacket_properties]
  cases withId with
  | false => exact Nat.zero_le 5
  | true => exact Nat.add_le_add_left (VarInt.size_le i.id) 1

/-- A subscription can be written exactly if its identifier is not too large: the filter never is
too long. -/
theorem exists_encode_subscribePacket_iff :
    (∃ bytes, (subscribePacket id i withId).encode = .ok bytes) ↔
      (withId → i.id.toNat ≤ VarInt.maxValue) := by
  have hsize := encodedSize_subscribePacket_properties_le i id withId
  have hproperties : (∃ bytes, (subscribePacket id i withId).properties.encode = .ok bytes) ↔
      (withId → i.id.toNat ≤ VarInt.maxValue) := by
    rw [Properties.exists_encode_iff, toList_subscribePacket_properties]
    have hfit := VarInt.toNat_ofNat_le (hsize.trans (by decide : 5 ≤ VarInt.maxValue))
    cases withId with
    | false => exact iff_of_true ⟨hfit, by simp⟩ nofun
    | true =>
        rw [if_pos rfl, List.forall_mem_singleton]
        exact ⟨fun h _ => h.2, fun h => ⟨hfit, h rfl⟩⟩
  rw [Subscribe.exists_encode_iff, hproperties]
  have hfilter := i.filter.utf8ByteSize_text_le
  refine ⟨fun h => h.2.1, fun h => ⟨⟨_, Frame.header_of_le ?_⟩, h, ?_⟩⟩
  · have hlen := VarInt.size_le (UInt32.ofNat (subscribePacket id i withId).properties.encodedSize)
    rw [Subscribe.bodySize, Properties.wireSize, VarInt.maxValue]
    simp only [subscribePacket, textSize, List.foldr_cons, List.foldr_nil] at hsize hlen ⊢
    omega
  · exact List.forall_mem_singleton.2 hfilter

end Subscriber

/-- The mark of a relay can be written exactly if the name of the relay is not too long. -/
theorem exists_encode_mark_iff {name : String} :
    (∃ bytes, Properties.encode { userProperties := [(Message.originKey, name)] } = .ok bytes) ↔
      name.utf8ByteSize ≤ 65535 := by
  have hlist : Properties.toList { userProperties := [(Message.originKey, name)] } =
      [⟨.userProperty, (Message.originKey, name)⟩] :=
    Properties.toList_own [] none none [(Message.originKey, name)]
  rw [Properties.exists_encode_iff, Properties.encodedSize, hlist, List.forall_mem_singleton]
  refine ⟨fun h => h.2.2, fun h => ⟨VarInt.toNat_ofNat_le ?_, by decide, h⟩⟩
  have hkey : Message.originKey.utf8ByteSize = 16 := by decide
  show 1 + (4 + Message.originKey.utf8ByteSize + name.utf8ByteSize) + 0 ≤ 268435455
  omega

/-! ### Relays that are set up -/

/-- The identifiers of the first filters are small enough to be written if there are not too many
filters. -/
theorem Registry.forall_mem_firstIds_iff {n : Nat} :
    (∀ id ∈ firstIds n, id.toNat ≤ VarInt.maxValue) ↔ n ≤ VarInt.maxValue := by
  have hmem (id : UInt32) : id ∈ firstIds n ↔ ∃ k < n, UInt32.ofNat (k + 1) = id := by
    simp [firstIds]
  constructor
  · intro h
    by_contra hn
    have hlarge := h _ ((hmem _).2 ⟨VarInt.maxValue, Nat.lt_of_not_le hn, rfl⟩)
    exact absurd hlarge (by decide)
  · intro h id hid
    obtain ⟨k, hk, rfl⟩ := (hmem id).1 hid
    exact VarInt.toNat_ofNat_le (Nat.le_trans hk h)

/-- Settings that are accepted do not give the relay an empty name themselves. -/
theorem Config.relay_id_ne_of_validate {c : Config} (h : c.validate = .ok ()) :
    c.relay.id ≠ some "" := by
  have hproblem := Config.validate_eq_ok_iff.1 h
  simp only [Config.problem?, Option.or_eq_none_iff] at hproblem
  have hrelay : c.relay.problem? = none := by simpa using hproblem.2
  rw [RelayOptions.problem?] at hrelay
  split_ifs at hrelay with hempty
  exact hempty

namespace Relay

/-- The suffix of a session's client identifier. -/
def suffix (flow : Flow) (role : String) : String := s!"{(flowNames flow).2}-{role}"

/-- When a relay that is set up has a name, and when its packets have a written form. -/
structure Introduces (generated process : String) (c : Config) (r : Relay) : Prop where
  /-- The name is empty if it is that of the client, and that is empty. -/
  id_eq_empty_iff : r.id = "" ↔ c.relay.id = none ∧ c.source.clientIdBase.getD generated = ""
  /-- The subscriber can ask to connect if none of the texts for its broker is too long. -/
  source_iff (flow : Flow) :
    (∃ bytes, ((r.lane process flow).subscriber.settings.connect false
      (some Subscriber.sessionExpiry)).encode = .ok bytes) ↔
    (c.endpoint (sides flow).1).Fits process (suffix flow "sub")
  /-- So can the publisher. -/
  sink_iff (flow : Flow) :
    (∃ bytes, ((r.lane process flow).publisher.settings.connect true none).encode = .ok bytes) ↔
    (c.endpoint (sides flow).2).Fits process (suffix flow "pub")
  /-- All subscriptions can be written, unless there are more than identifiers for them. -/
  subscribe_iff (flow : Flow) :
    (∀ i ∈ (r.lane process flow).subscriber.interests, ∀ id withId, ∃ bytes,
      (Subscriber.subscribePacket id i withId).encode = .ok bytes) ↔
    (r.registry.interests flow).length ≤ VarInt.maxValue
  /-- The mark can be written if the name is not too long. -/
  mark_iff :
    (∃ bytes, Properties.encode { userProperties := [(Message.originKey, r.id)] } = .ok bytes) ↔
    r.id.utf8ByteSize ≤ 65535

variable {files : Files} {generated process : String} {c : Config} {r : Relay}

/-- What setting up a relay comes to. -/
theorem of_new (h : Relay.new files generated c = .ok r) :
    c.validate = .ok () ∧ r.config = c ∧ r.id = c.relayId?.getD generated := by
  unfold Relay.new at h
  obtain ⟨u, hvalid, h⟩ := bind_eq_ok_iff.1 h
  obtain ⟨registry, -, h⟩ := bind_eq_ok_iff.1 h
  obtain ⟨source, -, h⟩ := bind_eq_ok_iff.1 h
  obtain ⟨destination, -, h⟩ := bind_eq_ok_iff.1 h
  obtain rfl := Except.ok.inj h
  exact ⟨hvalid, rfl, rfl⟩

theorem exists_encode_session_iff {flow : Flow} {side : Side} {role : String} {cleanStart : Bool}
    {expiry : Option UInt32} :
    (∃ bytes, ((r.session process flow side role).connect cleanStart expiry).encode = .ok bytes) ↔
      (r.config.endpoint side).Fits process (suffix flow role) := by
  rw [SessionSettings.exists_encode_connect_iff]
  exact ⟨fun h => ⟨h.1, h.2.1, h.2.2⟩, fun h => ⟨h.clientId, h.username, h.password⟩⟩

/-- **When a relay that is set up has a name, and when its packets have a written form.** -/
theorem introduces_of_new (h : Relay.new files generated c = .ok r) :
    r.Introduces generated process c := by
  obtain ⟨hvalid, hconfig, hid⟩ := of_new h
  have hnamed := Config.relay_id_ne_of_validate hvalid
  refine ⟨?_, fun flow => ?_, fun flow => ?_, fun flow => ?_, exists_encode_mark_iff⟩
  · rw [hid, Config.relayId?]
    cases hown : c.relay.id with
    | none => simp
    | some name =>
        refine iff_of_false (fun hempty => hnamed ?_) nofun
        rw [hown]
        exact congrArg some hempty
  · rw [← hconfig]
    exact exists_encode_session_iff
  · rw [← hconfig]
    exact exists_encode_session_iff
  · have hids := Registry.map_id_interests (build_of_new h) flow
    rw [← Registry.forall_mem_firstIds_iff, ← hids, List.forall_mem_map]
    refine forall₂_congr fun i _ => ?_
    simp only [Subscriber.exists_encode_subscribePacket_iff]
    exact ⟨fun hall => hall 0 true rfl, fun hid _ _ _ => hid⟩

/-- The relay with overlapping filters has a name, and finds words for everything. -/
theorem introduces_overlap :
    Relay.new (Files.ofList []) "relay" overlapping = .ok overlap ∧
      overlap.Introduces "relay" "1" overlapping ∧ overlap.id = "relay" :=
  ⟨new_overlapping, introduces_of_new new_overlapping, rfl⟩

/-- The same settings with a name for the client at the source. -/
def clientNamed (base : String) : Config :=
  { overlapping with source := { host := "a", clientIdBase := some base } }

/-- They are accepted, whatever the name. -/
theorem new_clientNamed (base : String) :
    Relay.new (Files.ofList []) "relay" (clientNamed base) =
      .ok { overlap with config := clientNamed base, id := base } := by
  have hvalid : (clientNamed base).validate = .ok () := by rfl
  have hbuild : Registry.build overlapping = .ok overlap.registry := build_of_new new_overlapping
  have hsource :
      Connector.ofEndpoint (Files.ofList []) overlapping.source = .ok overlap.source := by
    rfl
  have hdestination : Connector.ofEndpoint (Files.ofList []) overlapping.destination =
      .ok overlap.destination := by rfl
  -- neither the rules nor the connectors depend on the name
  have hbuild' : Registry.build (clientNamed base) = .ok overlap.registry := hbuild
  have hsource' : Connector.ofEndpoint (Files.ofList []) (clientNamed base).source =
      .ok overlap.source := hsource
  have hdestination' : Connector.ofEndpoint (Files.ofList []) (clientNamed base).destination =
      .ok overlap.destination := hdestination
  unfold Relay.new
  rw [hvalid, hbuild', hsource', hdestination']
  rfl

/-- **Settings are accepted that leave the relay without a name**, and settings with which it can
neither connect nor mark its messages. -/
theorem new_nameless :
    (∃ r, Relay.new (Files.ofList []) "relay" (clientNamed "") = .ok r ∧ r.id = "") ∧
      ∃ r, Relay.new (Files.ofList []) "relay" (clientNamed (Registry.letters 65536)) = .ok r ∧
        (∀ bytes, ((r.lane "1" .forward).subscriber.settings.connect false
          (some Subscriber.sessionExpiry)).encode ≠ .ok bytes) ∧
        ∀ bytes, Properties.encode { userProperties := [(Message.originKey, r.id)] } ≠
          .ok bytes := by
  refine ⟨⟨_, new_clientNamed "", rfl⟩, _, new_clientNamed (Registry.letters 65536),
    fun bytes hbytes => ?_, fun bytes hbytes => ?_⟩
  · have hfits : Endpoint.Fits (clientNamed (Registry.letters 65536)).source "1"
        (suffix .forward "sub") := exists_encode_session_iff.1 ⟨bytes, hbytes⟩
    have hlen := hfits.clientId
    rw [Endpoint.clientId, clientNamed, Option.getD_some, String.utf8ByteSize_append,
      String.utf8ByteSize_append, Registry.utf8ByteSize_letters] at hlen
    omega
  · have hlen : (Registry.letters 65536).utf8ByteSize ≤ 65535 :=
      exists_encode_mark_iff.1 ⟨bytes, hbytes⟩
    rw [Registry.utf8ByteSize_letters] at hlen
    exact absurd hlen (by decide)

end Relay

end TopicBridge
