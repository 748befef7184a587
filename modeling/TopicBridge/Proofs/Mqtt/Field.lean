/-
**What is written is read back: fields and properties.**

Whoever reads a field takes just the bytes that were written for it and gives back its value,
whatever stands behind them.  This is said of a reader, some bytes and a value by `Reader.Takes`,
which holds of one field after another if it holds of each.

Main definitions:

* `Mqtt.Reader.Takes` — a reader takes some bytes and gives a value;
* `Mqtt.IsText`, `ValueForm.Writable`, `Properties.Writable` — what has a written form that can be
  read: texts without the character U+0000, and no field above its limit.

Main results:

* `Bytes.zero_mem_ofString_iff` — the byte zero stands for nothing but the character U+0000;
* `ValueForm.exists_write`, `Property.exists_write` — a value and an entry are read back;
* `Properties.ofList_toList` — the entries of a property list mean that list;
* `Properties.exists_encode` — **a property list is read back**, and takes as many bytes as its
  length says.
-/

import TopicBridge.Mqtt.Properties

set_option autoImplicit false

namespace TopicBridge

/-! ### The byte zero -/

namespace Bytes

theorem ofString_eq_flatMap (s : String) : ofString s = s.toList.flatMap String.utf8EncodeChar := by
  have h : s.toByteArray = s.toList.utf8Encode := String.utf8Encode_toList.symm
  simp only [ofString, String.toUTF8, h, List.utf8Encode]
  simp

theorem ofNat_ne_zero {n : Nat} (hpos : 0 < n) (hlt : n < 256) : UInt8.ofNat n ≠ 0 := by
  intro h
  have hn := congrArg UInt8.toNat h
  simp only [UInt8.toNat_ofNat', UInt8.toNat_zero] at hn
  omega

theorem zero_mem_utf8EncodeChar_iff (c : Char) : 0 ∈ String.utf8EncodeChar c ↔ c = '\x00' := by
  constructor
  · intro h
    simp only [String.utf8EncodeChar] at h
    split at h
    · -- one byte: the number of the character itself
      rename_i hle
      rcases Nat.eq_zero_or_pos c.val.toNat with hzero | hpos
      · exact Char.ext (UInt32.toNat_inj.1 hzero)
      · exact absurd (List.mem_singleton.1 h).symm (ofNat_ne_zero hpos (by omega))
    · -- several bytes: each of them is marked by its high bits
      exfalso
      split at h
      · simp only [List.mem_cons, List.not_mem_nil, or_false] at h
        rcases h with h | h <;> exact ofNat_ne_zero (by omega) (by omega) h.symm
      · split at h
        · simp only [List.mem_cons, List.not_mem_nil, or_false] at h
          rcases h with h | h | h <;> exact ofNat_ne_zero (by omega) (by omega) h.symm
        · simp only [List.mem_cons, List.not_mem_nil, or_false] at h
          rcases h with h | h | h | h <;> exact ofNat_ne_zero (by omega) (by omega) h.symm
  · rintro rfl
    decide

theorem zero_mem_ofString_iff (s : String) : 0 ∈ ofString s ↔ '\x00' ∈ s.toList := by
  simp [ofString_eq_flatMap, zero_mem_utf8EncodeChar_iff]

end Bytes

namespace Mqtt

/-! ### Lengths -/

namespace VarInt

variable {n : Nat}

theorem toNat_ofNat (h : n ≤ maxValue) : (UInt32.ofNat n).toNat = n := by
  rw [maxValue] at h
  exact UInt32.toNat_ofNat_of_lt' (Nat.lt_of_le_of_lt h (by decide))

theorem write_ofNat (h : n ≤ maxValue) : write (UInt32.ofNat n) = .ok (encode n) := by
  rw [write, toNat_ofNat h, if_pos h]

theorem length_encode_ofNat (h : n ≤ maxValue) : (encode n).length = size (UInt32.ofNat n) := by
  have hlen := length_encode (n := UInt32.ofNat n) (by rwa [toNat_ofNat h])
  rwa [toNat_ofNat h] at hlen

end VarInt

/-! ### Readers -/

namespace Reader

variable {α β : Type} {m : Reader α} {f : α → Reader β} {bytes more tail : Bytes} {a : α} {b : β}

/-- The reader takes just these bytes, whatever stands behind them, and gives this value. -/
def Takes (m : Reader α) (bytes : Bytes) (a : α) : Prop := ∀ more, m (bytes ++ more) = .ok a more

theorem bind_of_ok (h : m bytes = .ok a tail) : (m >>= f) bytes = f a tail := by
  simp only [bind, EStateM.bind, h]

theorem Takes.bind_append (h : Takes m bytes a) (more : Bytes) :
    (m >>= f) (bytes ++ more) = f a more :=
  bind_of_ok (h more)

theorem Takes.bind {bytes' : Bytes} (h : Takes m bytes a) (hf : Takes (f a) bytes' b) :
    Takes (m >>= f) (bytes ++ bytes') b := by
  intro more
  rw [List.append_assoc, h.bind_append, hf]

theorem Takes.map {g : α → β} (h : Takes m bytes a) :
    Takes (m >>= fun a => pure (g a)) bytes (g a) := by
  intro more
  rw [h.bind_append]
  rfl

theorem takes_take (bytes : Bytes) : Takes (take bytes.length) bytes bytes := by
  intro more
  simp [take]

theorem takes_byte (b : UInt8) : Takes byte [b] b := fun _ => rfl

theorem takes_twoBytes (n : UInt16) : Takes twoBytes (Bytes.ofUInt16 n) n := by
  have h : Takes twoBytes (Bytes.ofUInt16 n) (UInt16.ofNat (Bytes.toNat (Bytes.ofUInt16 n))) :=
    (takes_take (Bytes.ofUInt16 n)).map
  rwa [Bytes.toNat_ofUInt16, UInt16.ofNat_toNat] at h

theorem takes_fourBytes (n : UInt32) : Takes fourBytes (Bytes.ofUInt32 n) n := by
  have h : Takes fourBytes (Bytes.ofUInt32 n) (UInt32.ofNat (Bytes.toNat (Bytes.ofUInt32 n))) :=
    (takes_take (Bytes.ofUInt32 n)).map
  rwa [Bytes.toNat_ofUInt32, UInt32.ofNat_toNat] at h

theorem takes_varInt {n : Nat} (h : n ≤ VarInt.maxValue) : Takes varInt (VarInt.encode n) n := by
  intro more
  simp only [varInt, VarInt.read_encode_append h]

theorem takes_varInt_ofNat {n : UInt32} (h : n.toNat ≤ VarInt.maxValue) :
    Takes (do return UInt32.ofNat (← varInt)) (VarInt.encode n.toNat) n := by
  have htakes : Takes (do return UInt32.ofNat (← varInt)) (VarInt.encode n.toNat)
      (UInt32.ofNat n.toNat) := (takes_varInt h).map
  rwa [UInt32.ofNat_toNat] at htakes

/-- Bytes are read back from behind their length. -/
theorem takes_binary {field : Bytes} (h : field.length ≤ 65535) :
    Takes binary (Bytes.ofUInt16 (UInt16.ofNat field.length) ++ field) field := by
  have hlen : (UInt16.ofNat field.length).toNat = field.length := UInt16.toNat_ofNat_of_lt' (by
    simp only [UInt16.size]
    omega)
  refine (takes_twoBytes _).bind ?_
  rw [hlen]
  exact takes_take field

end Reader

/-! ### Values -/

/-- A text that has a written form: not too long, and without the character U+0000. -/
def IsText (s : String) : Prop := s.utf8ByteSize ≤ 65535 ∧ '\x00' ∉ s.toList

instance IsText.decidable (s : String) : Decidable (IsText s) :=
  inferInstanceAs (Decidable (s.utf8ByteSize ≤ 65535 ∧ '\x00' ∉ s.toList))

theorem exists_writeBinary {field : Bytes} (h : field.length ≤ 65535) :
    ∃ bytes, writeBinary field = .ok bytes ∧ bytes.length = 2 + field.length ∧
      Reader.binary.Takes bytes field := by
  refine ⟨_, if_pos h, ?_, Reader.takes_binary h⟩
  rw [List.length_append, Bytes.length_ofUInt16]

theorem exists_writeText {s : String} (h : IsText s) :
    ∃ bytes, writeText s = .ok bytes ∧ bytes.length = 2 + s.utf8ByteSize ∧
      Reader.text.Takes bytes s := by
  obtain ⟨hlen, hnul⟩ := h
  have hbytes : (Bytes.ofString s).length ≤ 65535 := hlen
  obtain ⟨bytes, hwrite, hsize, htakes⟩ := exists_writeBinary hbytes
  have hzero : (Bytes.ofString s).contains 0 = false := by
    rw [← Bytes.zero_mem_ofString_iff] at hnul
    simpa using hnul
  refine ⟨bytes, hwrite, hsize, fun more => ?_⟩
  rw [Reader.text, htakes.bind_append]
  simp only [Bytes.text?_ofString, hzero]
  rfl

namespace ValueForm

/-- The values that have a written form. -/
def Writable : (form : ValueForm) → form.Value → Prop
  | byte, _ => True
  | twoBytes, _ => True
  | fourBytes, _ => True
  | varInt, v => UInt32.toNat v ≤ VarInt.maxValue
  | text, s => IsText s
  | binary, v => List.length v ≤ 65535
  | textPair, (key, value) => IsText key ∧ IsText value

instance : (form : ValueForm) → (v : form.Value) → Decidable (form.Writable v)
  | byte, _ => .isTrue trivial
  | twoBytes, _ => .isTrue trivial
  | fourBytes, _ => .isTrue trivial
  | varInt, v => Nat.decLe (UInt32.toNat v) VarInt.maxValue
  | text, s => IsText.decidable s
  | binary, v => Nat.decLe (List.length v) 65535
  | textPair, (key, value) => inferInstanceAs (Decidable (IsText key ∧ IsText value))

/-- A value has a written form, which has the announced length and is read back. -/
theorem exists_write {form : ValueForm} {v : form.Value} (h : form.Writable v) :
    ∃ bytes, form.write v = .ok bytes ∧ bytes.length = form.size v ∧
      Reader.Takes form.read bytes v := by
  cases form with
  | byte => exact ⟨_, rfl, rfl, Reader.takes_byte v⟩
  | twoBytes => exact ⟨_, rfl, rfl, Reader.takes_twoBytes v⟩
  | fourBytes => exact ⟨_, rfl, rfl, Reader.takes_fourBytes v⟩
  | varInt => exact ⟨_, if_pos h, VarInt.length_encode h, Reader.takes_varInt_ofNat h⟩
  | text => exact exists_writeText h
  | binary => exact exists_writeBinary h
  | textPair =>
      obtain ⟨key, value⟩ := v
      obtain ⟨k, hk, hklen, hkread⟩ := exists_writeText h.1
      obtain ⟨w, hw, hwlen, hwread⟩ := exists_writeText h.2
      refine ⟨k ++ w, ?_, ?_, hkread.bind hwread.map⟩
      · simp only [write, hk, hw]
        rfl
      · simp only [List.length_append, hklen, hwlen, size]
        omega

end ValueForm

/-! ### Entries -/

namespace Property

/-- An entry has a written form, which has the announced length and is read back. -/
theorem exists_write {e : Property} (h : e.id.form.Writable e.value) :
    ∃ bytes, e.write = .ok bytes ∧ bytes.length = e.size ∧ Reader.Takes read bytes e := by
  obtain ⟨bytes, hwrite, hlen, htakes⟩ := ValueForm.exists_write h
  refine ⟨e.id.code :: bytes, ?_, ?_, fun more => ?_⟩
  · simp only [write, hwrite]
    rfl
  · simp only [List.length_cons, hlen, size]
    omega
  · have hbyte : Reader.byte (e.id.code :: bytes ++ more) = .ok e.id.code (bytes ++ more) := rfl
    rw [read, Reader.bind_of_ok hbyte, PropertyId.ofCode?_code]
    exact htakes.map more

end Property

/-! ### Property lists -/

namespace Properties

theorem entriesFrom_nil (seen : List Property) : entriesFrom seen [] = .ok seen.reverse := by
  rw [entriesFrom]
  rfl

theorem entriesFrom_of_ok {seen : List Property} {bytes tail : Bytes} {e : Property}
    (h : Property.read bytes = .ok e tail) :
    entriesFrom seen bytes = entriesFrom (e :: seen) tail := by
  have hlt := Property.read_shortens h
  have hne : bytes.isEmpty = false := by
    cases bytes with
    | nil => exact absurd hlt (by simp)
    | cons _ _ => rfl
  rw [entriesFrom, hne]
  simp only [Bool.false_eq_true, if_false]
  split <;> simp_all

/-- Entries have a written form, which has the announced length and is read back. -/
theorem exists_writeAll {entries : List Property}
    (h : ∀ e ∈ entries, e.id.form.Writable e.value) :
    ∃ bytes, writeAll entries = .ok bytes ∧
      bytes.length = entries.foldr (fun e n => e.size + n) 0 ∧
      ∀ seen, entriesFrom seen bytes = .ok (seen.reverse ++ entries) := by
  induction entries with
  | nil =>
      refine ⟨[], rfl, rfl, fun seen => ?_⟩
      rw [entriesFrom_nil, List.append_nil]
  | cons e entries ih =>
      obtain ⟨first, hfirst, hflen, htakes⟩ := Property.exists_write (h e (by simp))
      obtain ⟨rest, hrest, hrlen, hread⟩ := ih fun e' he' => h e' (by simp [he'])
      refine ⟨first ++ rest, ?_, ?_, fun seen => ?_⟩
      · unfold writeAll at hrest ⊢
        rw [List.mapM_cons, hfirst]
        cases hparts : entries.mapM Property.write with
        | error _ =>
            rw [hparts] at hrest
            cases hrest
        | ok parts =>
            rw [hparts] at hrest
            cases hrest
            rfl
      · rw [List.length_append, hflen, hrlen, List.foldr_cons]
      · rw [entriesFrom_of_ok (htakes rest), hread]
        simp

/-- An entry of a single-valued property sets that property: `set` says which. -/
theorem foldr_listed (id : PropertyId) (set : Properties → Option id.form.Value → Properties)
    {p : Properties} {v : Option id.form.Value} (hnone : set p none = p)
    (hsome : ∀ x, set p (some x) = p.cons ⟨id, x⟩) : ( entry? id v).foldr cons p = set p v := by
  cases v with
  | none => exact hnone.symm
  | some x => exact (hsome x).symm

theorem foldr_append_listed (id : PropertyId) (set : Properties → Option id.form.Value → Properties)
    {front : List Property} {p q : Properties} {v : Option id.form.Value}
    (hnone : set p none = p) (hsome : ∀ x, set p (some x) = p.cons ⟨id, x⟩)
    (h : front.foldr cons (set p v) = q) : (front ++ entry? id v).foldr cons p = q := by
  rw [List.foldr_append, foldr_listed id set hnone hsome, h]

/-- The entries of a property with any number of values are put in front: `set` says where. -/
theorem foldr_append_map (id : PropertyId) (set : Properties → List id.form.Value → Properties)
    {front : List Property} {p q : Properties} {vs : List id.form.Value}
    (hnil : set p [] = p) (hcons : ∀ x xs, set p (x :: xs) = (set p xs).cons ⟨id, x⟩)
    (h : front.foldr cons (set p vs) = q) :
    (front ++ vs.map (Property.mk id)).foldr cons p = q := by
  have hall : (vs.map (Property.mk id)).foldr cons p = set p vs := by
    induction vs generalizing q with
    | nil => exact hnil.symm
    | cons x xs ih => rw [List.map_cons, List.foldr_cons, ih rfl, hcons]
  rw [List.foldr_append, hall, h]

/-- **The entries of a property list mean that list.** -/
theorem ofList_toList (p : Properties) : ofList p.toList = p := by
  -- the entries are taken in from the last to the first, each kind once
  refine foldr_append_listed .subscriptionIdentifiersAvailable
    (fun p v => { p with subscriptionIdentifiersAvailable := v }) rfl (fun _ => rfl) ?_
  refine foldr_append_listed .maximumPacketSize
    (fun p v => { p with maximumPacketSize := v }) rfl (fun _ => rfl) ?_
  refine foldr_append_map .userProperty
    (fun p (vs : List (String × String)) => { p with userProperties := vs ++ p.userProperties })
    rfl (fun _ _ => rfl) ?_
  refine foldr_append_listed .retainAvailable
    (fun p v => { p with retainAvailable := v }) rfl (fun _ => rfl) ?_
  refine foldr_append_listed .maximumQoS
    (fun p v => { p with maximumQoS := v }) rfl (fun _ => rfl) ?_
  refine foldr_append_listed .topicAlias
    (fun p v => { p with topicAlias := v }) rfl (fun _ => rfl) ?_
  refine foldr_append_listed .topicAliasMaximum
    (fun p v => { p with topicAliasMaximum := v }) rfl (fun _ => rfl) ?_
  refine foldr_append_listed .receiveMaximum
    (fun p v => { p with receiveMaximum := v }) rfl (fun _ => rfl) ?_
  refine foldr_append_listed .reasonString
    (fun p v => { p with reasonString := v }) rfl (fun _ => rfl) ?_
  refine foldr_append_listed .serverKeepAlive
    (fun p v => { p with serverKeepAlive := v }) rfl (fun _ => rfl) ?_
  refine foldr_append_listed .assignedClientIdentifier
    (fun p v => { p with assignedClientIdentifier := v }) rfl (fun _ => rfl) ?_
  refine foldr_append_listed .sessionExpiryInterval
    (fun p v => { p with sessionExpiryInterval := v }) rfl (fun _ => rfl) ?_
  refine foldr_append_map .subscriptionIdentifier
    (fun p (vs : List UInt32) =>
      { p with subscriptionIdentifiers := vs ++ p.subscriptionIdentifiers }) rfl (fun _ _ => rfl) ?_
  refine foldr_append_listed .correlationData
    (fun p v => { p with correlationData := v }) rfl (fun _ => rfl) ?_
  refine foldr_append_listed .responseTopic
    (fun p v => { p with responseTopic := v }) rfl (fun _ => rfl) ?_
  refine foldr_append_listed .contentType
    (fun p v => { p with contentType := v }) rfl (fun _ => rfl) ?_
  refine foldr_append_listed .messageExpiryInterval
    (fun p v => { p with messageExpiryInterval := v }) rfl (fun _ => rfl) ?_
  refine (foldr_listed .payloadFormatIndicator
    (fun p v => { p with payloadFormatIndicator := v }) rfl fun _ => rfl).trans ?_
  simp

/-- The property lists that have a written form: each of their values has one. -/
def Writable (p : Properties) : Prop := ∀ e ∈ p.toList, e.id.form.Writable e.value

instance (p : Properties) : Decidable p.Writable :=
  inferInstanceAs (Decidable (∀ e ∈ p.toList, e.id.form.Writable e.value))

theorem read_of_entries {body more : Bytes} {entries : List Property}
    (hlen : body.length ≤ VarInt.maxValue) (h : Properties.entries body = .ok entries) :
    read (VarInt.encode body.length ++ body ++ more) = .ok (ofList entries) more := by
  rw [read, List.append_assoc, (Reader.takes_varInt hlen).bind_append,
    (Reader.takes_take body).bind_append]
  simp only [h]
  rfl

/-- **A property list is read back**, and takes as many bytes as its length says. -/
theorem exists_encode {p : Properties} (h : p.Writable) (hsize : p.encodedSize ≤ VarInt.maxValue) :
    ∃ bytes, p.encode = .ok bytes ∧ bytes.length = p.wireSize ∧ Reader.Takes read bytes p := by
  obtain ⟨body, hbody, hlen, hread⟩ := exists_writeAll h
  replace hlen : body.length = p.encodedSize := hlen
  refine ⟨VarInt.encode p.encodedSize ++ body, ?_, ?_, fun more => ?_⟩
  · rw [encode, VarInt.write_ofNat hsize, hbody]
    rfl
  · rw [List.length_append, VarInt.length_encode_ofNat hsize, hlen, wireSize]
  · have hentries : entries body = .ok p.toList := by
      rw [entries, hread, List.reverse_nil, List.nil_append]
    rw [← hlen] at hsize ⊢
    rw [read_of_entries hsize hentries, ofList_toList]

end Properties

end Mqtt

end TopicBridge
