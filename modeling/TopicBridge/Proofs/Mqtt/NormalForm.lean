/-
**What is read has a shortest form, and is read from it again.**

A reader is generous: it takes numbers in more bytes than they need, lists in which a property is
given twice or is one that nobody keeps, and bodies whose last fields are left out.  What it gives
is then written in one way only.  That form never takes more bytes than the one that was read,
because each part of it takes no more than the part that was read for it, and of the entries of a
property list only some are left.  The only packet that grows is the last one of a connection: its
property list may be left out where a code stands in front of it, and is written, in one byte.

Main definitions:

* `Mqtt.Reader.Repays` — what a reader gives can be written in no more bytes than it has taken;
* `Mqtt.Packet.isTwoWay` — the packets that clients and brokers send alike;
* `Mqtt.Packet.excess` — how much longer than what was read a packet may be.

Main results:

* `VarInt.size_add_length_of_read` — a number is written in no more bytes than it was read from;
* `ValueForm.read_repays`, `Property.read_repays`, `Properties.read_repays` — values, entries and
  property lists repay;
* `Properties.toList_ofList_subperm` — the entries that count are among those that were given;
* `Decoder.exists_normal_of_decode` — **a packet that is read has a normal form**.
-/

import Mathlib.Data.List.Perm.Subperm
import TopicBridge.Proofs.Mqtt.Reread
import TopicBridge.Proofs.Topic.Refill

set_option autoImplicit false

namespace TopicBridge.Mqtt

/-! ### Numbers -/

namespace VarInt

variable {groups n k : Nat} {bytes rest : Bytes}

theorem limit_pos (groups : Nat) : 0 < limit groups := by
  induction groups with
  | zero => exact Nat.one_pos
  | succ groups ih => exact Nat.mul_pos (by omega) ih

theorem readGroups_lt (h : readGroups groups bytes = .ok (n, rest)) : n < limit groups := by
  induction groups generalizing bytes n rest with
  | zero => cases h
  | succ groups ih =>
      cases bytes with
      | nil => cases h
      | cons b tail =>
          simp only [readGroups] at h
          have hpos := limit_pos groups
          split at h
          · rename_i hb
            have hlt := UInt8.lt_iff_toNat_lt.1 hb
            cases h
            simp only [limit]
            have hbyte : (128 : UInt8).toNat = 128 := rfl
            omega
          · split at h
            · rename_i m _ hread
              have hm := ih hread
              have hb := b.toNat_lt
              cases h
              simp only [limit]
              omega
            · cases h

/-- A number is written in no more bytes than it was read from. -/
theorem length_encode_add_of_readGroups (h : readGroups groups bytes = .ok (n, rest)) :
    (encode n).length + rest.length ≤ bytes.length := by
  induction groups generalizing bytes n rest with
  | zero => cases h
  | succ groups ih =>
      cases bytes with
      | nil => cases h
      | cons b tail =>
          simp only [readGroups] at h
          split at h
          · rename_i hb
            have hlt := UInt8.lt_iff_toNat_lt.1 hb
            cases h
            rw [encode_of_lt hlt]
            simp only [List.length_cons, List.length_nil]
            omega
          · rename_i hb
            split at h
            · rename_i m _ hread
              have htail := ih hread
              have hlt := b.toNat_lt
              cases h
              rcases Nat.lt_or_ge (b.toNat - 128 + 128 * m) 128 with hsmall | hlarge
              · -- nothing but continued zeros stand behind the first group
                have hnext := length_of_readGroups hread
                rw [encode_of_lt hsmall]
                simp only [List.length_cons, List.length_nil]
                omega
              · have hdiv : (b.toNat - 128 + 128 * m) / 128 = m := by omega
                rw [encode_of_le hlarge, hdiv]
                simp only [List.length_cons]
                omega
            · cases h

/-- A number that has been read has a written form. -/
theorem le_maxValue_of_read (h : read bytes = .ok (n, rest)) : n ≤ maxValue := by
  have hlt := readGroups_lt h
  simp only [limit] at hlt
  rw [maxValue]
  omega

theorem size_add_length_of_read (h : read bytes = .ok (n, rest)) :
    size (UInt32.ofNat n) + rest.length ≤ bytes.length := by
  rw [← length_encode_ofNat (le_maxValue_of_read h)]
  exact length_encode_add_of_readGroups h

theorem size_mono {a b : UInt32} (h : a.toNat ≤ b.toNat) : size a ≤ size b := by
  unfold size
  split_ifs <;> omega

theorem size_ofNat_mono (h : n ≤ k) (hk : k ≤ maxValue) :
    size (UInt32.ofNat n) ≤ size (UInt32.ofNat k) := by
  apply size_mono
  rw [toNat_ofNat hk, toNat_ofNat (Nat.le_trans h hk)]
  exact h

end VarInt

/-! ### Readers -/

namespace Reader

variable {α : Type} {m : Reader α} {bytes tail : Bytes} {a : α}

theorem not_of_guard {c : Prop} [Decidable c] {e : DecodeError} {g : PUnit → Reader α}
    (h : (if c then (throw e : Reader PUnit) >>= g else m) bytes = .ok a tail) : ¬c := by
  intro hc
  rw [if_pos hc] at h
  cases h

/-- What the reader gives is fit to be written, in no more bytes than it has taken. -/
def Repays (m : Reader α) (fit : α → Prop) (size : α → Nat) : Prop :=
  ∀ ⦃bytes a tail⦄, m bytes = .ok a tail → fit a ∧ size a + tail.length ≤ bytes.length

theorem of_take {n : Nat} {field : Bytes} (h : take n bytes = .ok field tail) :
    field.length = n ∧ field.length + tail.length = bytes.length := by
  simp only [take] at h
  split at h
  · cases h
  · rename_i hall
    cases h
    simp only [List.length_take, List.length_drop] at hall ⊢
    omega

theorem of_twoBytes {n : UInt16} (h : twoBytes bytes = .ok n tail) :
    2 + tail.length = bytes.length := by
  obtain ⟨field, mid, htake, hn⟩ := exists_of_bind h
  obtain ⟨-, rfl⟩ := of_pure hn
  obtain ⟨hlen, htotal⟩ := of_take htake
  omega

theorem of_byte {b : UInt8} (h : byte bytes = .ok b tail) : bytes = b :: tail := by
  cases bytes with
  | nil => cases h
  | cons c rest =>
      cases h
      rfl

theorem read_of_varInt {n : Nat} (h : varInt bytes = .ok n tail) :
    VarInt.read bytes = .ok (n, tail) := by
  simp only [varInt] at h
  split at h
  · cases h
    assumption
  · cases h

theorem of_binary {field : Bytes} (h : binary bytes = .ok field tail) :
    field.length ≤ 65535 ∧ 2 + field.length + tail.length = bytes.length := by
  obtain ⟨n, mid, hn, hfield⟩ := exists_of_bind h
  have htwo := of_twoBytes hn
  obtain ⟨hlen, htotal⟩ := of_take hfield
  have hlt := n.toNat_lt
  omega

/-- A text that has been read is one that can be written. -/
theorem of_text {s : String} (h : text bytes = .ok s tail) :
    IsText s ∧ 2 + s.utf8ByteSize + tail.length = bytes.length := by
  obtain ⟨field, mid, hfield, hs⟩ := exists_of_bind h
  obtain ⟨hlen, htotal⟩ := of_binary hfield
  cases htext : field.text? with
  | none =>
      simp only [htext] at hs
      cases hs
  | some s' =>
      simp only [htext] at hs
      have hzero : ¬field.contains 0 := by
        intro hmem
        rw [if_pos hmem] at hs
        cases hs
      rw [if_neg hzero] at hs
      obtain ⟨rfl, rfl⟩ := of_pure hs
      have hfield' : Bytes.ofString s = field := Bytes.ofString_of_text? htext
      have hsize : s.utf8ByteSize = field.length := by
        rw [← hfield']
        exact (Bytes.length_ofString s).symm
      refine ⟨⟨by omega, fun hnul => hzero ?_⟩, by omega⟩
      rw [← hfield', List.contains_iff_mem]
      exact (Bytes.zero_mem_ofString_iff s).2 hnul

end Reader

/-- A value that has been read can be written, in no more bytes. -/
theorem ValueForm.read_repays (form : ValueForm) :
    Reader.Repays form.read form.Writable form.size := by
  intro bytes v tail h
  cases form with
  | byte =>
      have hlen := Reader.byte_shortens h
      exact ⟨trivial, by simp only [size]; omega⟩
  | twoBytes =>
      have hlen := Reader.twoBytes_shortens h
      exact ⟨trivial, by simp only [size]; omega⟩
  | fourBytes =>
      have hlen := Reader.fourBytes_shortens h
      exact ⟨trivial, by simp only [size]; omega⟩
  | varInt =>
      obtain ⟨n, mid, hn, hv⟩ := Reader.exists_of_bind (m := Reader.varInt) h
      obtain ⟨rfl, rfl⟩ := Reader.of_pure hv
      have hread : VarInt.read bytes = .ok (n, tail) := Reader.read_of_varInt hn
      have hle := VarInt.le_maxValue_of_read hread
      refine ⟨?_, VarInt.size_add_length_of_read hread⟩
      have hnat := VarInt.toNat_ofNat hle
      rwa [← hnat] at hle
  | text =>
      obtain ⟨htext, hlen⟩ := Reader.of_text h
      exact ⟨htext, by simp only [size]; omega⟩
  | binary =>
      obtain ⟨hle, hlen⟩ := Reader.of_binary h
      exact ⟨hle, by simp only [size]; omega⟩
  | textPair =>
      obtain ⟨key, mid, hkey, hrest⟩ := Reader.exists_of_bind (m := Reader.text) h
      obtain ⟨value, mid', hvalue, hv⟩ := Reader.exists_of_bind hrest
      obtain ⟨rfl, rfl⟩ := Reader.of_pure hv
      obtain ⟨hk, hklen⟩ := Reader.of_text hkey
      obtain ⟨hw, hwlen⟩ := Reader.of_text hvalue
      exact ⟨⟨hk, hw⟩, by simp only [size]; omega⟩

/-- An entry that has been read can be written, in no more bytes. -/
theorem Property.read_repays :
    Reader.Repays Property.read (fun e => e.id.form.Writable e.value) Property.size := by
  intro bytes e tail h
  obtain ⟨c, mid, hc, hrest⟩ := Reader.exists_of_bind h
  obtain rfl := Reader.of_byte hc
  cases hid : PropertyId.ofCode? c with
  | none =>
      simp only [hid] at hrest
      cases hrest
  | some id =>
      simp only [hid] at hrest
      obtain ⟨v, mid', hv, he⟩ := Reader.exists_of_bind hrest
      obtain ⟨rfl, rfl⟩ := Reader.of_pure he
      obtain ⟨hfit, hlen⟩ := ValueForm.read_repays id.form hv
      exact ⟨hfit, by simp only [size, List.length_cons]; omega⟩

/-! ### Property lists -/

namespace Properties

open scoped List

/-- Of two values of one property the first entry is left out. -/
theorem entry?_or_subperm (id : PropertyId) (v : id.form.Value) (o : Option id.form.Value) :
    entry? id (o.or (some v)) <+~ ⟨id, v⟩ :: entry? id o := by
  cases o with
  | none => exact List.Subperm.refl _
  | some w => exact (List.sublist_cons_self _ _).subperm

/-- What holds of one part of a list holds of the whole: the entry may as well stand in front. -/
theorem append_right_subperm {e : Property} {part part' : List Property} (back : List Property)
    (h : part' <+~ e :: part) : part' ++ back <+~ e :: (part ++ back) :=
  (List.subperm_append_right back).2 h

theorem append_left_subperm {e : Property} {front part part' : List Property}
    (h : part' <+~ e :: part) : front ++ part' <+~ e :: (front ++ part) :=
  ((List.subperm_append_left front).2 h).trans List.perm_middle.subperm

/-- The entries of a list behind one more entry are among that entry and those of the list. -/
theorem toList_cons_subperm (e : Property) (p : Properties) :
    (p.cons e).toList <+~ e :: p.toList := by
  obtain ⟨id, v⟩ := e
  cases id with
  | authenticationMethod | authenticationData | requestProblemInformation | willDelayInterval
  | requestResponseInformation | responseInformation | serverReference
  | wildcardSubscriptionAvailable | sharedSubscriptionAvailable =>
      -- nobody keeps it
      exact (List.sublist_cons_self _ _).subperm
  | payloadFormatIndicator =>
      unfold cons toList
      repeat with_reducible apply append_right_subperm
      exact entry?_or_subperm .payloadFormatIndicator v p.payloadFormatIndicator
  | subscriptionIdentifier | userProperty =>
      -- one more value stands in front of the others
      unfold cons toList
      repeat with_reducible apply append_right_subperm
      apply append_left_subperm
      exact List.Subperm.refl _
  | _ =>
      unfold cons toList
      repeat with_reducible apply append_right_subperm
      apply append_left_subperm
      exact entry?_or_subperm _ v _

/-- **The entries that count are among those that were given.** -/
theorem toList_ofList_subperm (entries : List Property) :
    (ofList entries).toList <+~ entries := by
  induction entries with
  | nil => exact List.Subperm.refl _
  | cons e entries ih =>
      rw [ofList_cons]
      exact (toList_cons_subperm e _).trans ((List.subperm_cons e).2 ih)

/-- The number of bytes that entries take. -/
def total (entries : List Property) : Nat := entries.foldr (fun e n => e.size + n) 0

theorem total_eq_of_perm {front back : List Property} (h : front ~ back) :
    total front = total back := by
  induction h with
  | nil => rfl
  | cons e _ ih => simp only [total, List.foldr_cons] at ih ⊢; omega
  | swap e e' entries => simp only [total, List.foldr_cons]; omega
  | trans _ _ ih ih' => exact ih.trans ih'

theorem total_le_of_sublist {front back : List Property} (h : front <+ back) :
    total front ≤ total back := by
  induction h with
  | slnil => exact Nat.le_refl _
  | cons e _ ih => simp only [total, List.foldr_cons] at ih ⊢; omega
  | cons_cons e _ ih => simp only [total, List.foldr_cons] at ih ⊢; omega

theorem total_le_of_subperm {front back : List Property} (h : front <+~ back) :
    total front ≤ total back := by
  obtain ⟨mid, hperm, hsub⟩ := h
  rw [← total_eq_of_perm hperm]
  exact total_le_of_sublist hsub

/-- Entries that have been read can be written, in no more bytes. -/
theorem of_entriesFrom {seen entries : List Property} {bytes : Bytes}
    (h : entriesFrom seen bytes = .ok entries) :
    ∃ found, entries = seen.reverse ++ found ∧ (∀ e ∈ found, e.id.form.Writable e.value) ∧
      total found ≤ bytes.length := by
  induction hn : bytes.length using Nat.strongRecOn generalizing seen bytes with
  | ind n ih =>
      by_cases hne : bytes = []
      · rw [hne, entriesFrom_nil] at h
        cases h
        exact ⟨[], by simp, by simp, Nat.zero_le _⟩
      · obtain ⟨e, tail, he, htail⟩ := exists_of_entriesFrom hne h
        obtain ⟨hfit, hlen⟩ := Property.read_repays he
        have hpos : 1 ≤ e.size := Nat.le_add_right 1 _
        obtain ⟨found, rfl, hfound, htotal⟩ := ih tail.length (by omega) htail rfl
        refine ⟨e :: found, by simp, List.forall_mem_cons.2 ⟨hfit, hfound⟩, ?_⟩
        simp only [total, List.foldr_cons] at htotal ⊢
        omega

/-- A property list that has been read can be written, in no more bytes. -/
theorem read_repays : Reader.Repays read Writable wireSize := by
  intro bytes p tail h
  obtain ⟨n, mid, hn, hrest⟩ := Reader.exists_of_bind h
  obtain ⟨body, mid', hbody, hlist⟩ := Reader.exists_of_bind hrest
  have hread : VarInt.read bytes = .ok (n, mid) := Reader.read_of_varInt hn
  obtain ⟨hlen, hbytes⟩ := Reader.of_take hbody
  have hle := VarInt.le_maxValue_of_read hread
  have hsize := VarInt.size_add_length_of_read hread
  cases hes : entries body with
  | error e =>
      simp only [hes] at hlist
      cases hlist
  | ok es =>
      simp only [hes] at hlist
      obtain ⟨rfl, rfl⟩ := Reader.of_pure hlist
      obtain ⟨found, hfound, hfit, htotal⟩ := of_entriesFrom hes
      obtain rfl : es = found := hfound
      have hamong := toList_ofList_subperm es
      have hfewer : (ofList es).encodedSize ≤ n := by
        rw [← hlen]
        exact Nat.le_trans (total_le_of_subperm hamong) htotal
      have hprefix := VarInt.size_ofNat_mono hfewer hle
      refine ⟨fun e he => hfit e (hamong.subset he), ?_⟩
      rw [wireSize]
      omega

/-- A list that may be left out is missing only where no bytes are left. -/
theorem of_readOptional {bytes tail : Bytes} {p : Properties}
    (h : readOptional bytes = .ok p tail) :
    bytes = [] ∧ p = {} ∧ tail = [] ∨ read bytes = .ok p tail := by
  cases bytes with
  | nil =>
      obtain ⟨rfl, rfl⟩ := Reader.of_pure h
      exact .inl ⟨rfl, rfl, rfl⟩
  | cons b bytes => exact .inr h

theorem length_of_readOptional {bytes tail : Bytes} {p : Properties}
    (h : readOptional bytes = .ok p tail) : tail.length ≤ bytes.length := by
  rcases of_readOptional h with ⟨rfl, -, rfl⟩ | hread
  · exact Nat.le_refl _
  · have hlen := (read_repays hread).2
    omega

end Properties

/-! ### Bodies -/

/-- The identifier of a message takes two bytes, if there is one, and is not zero. -/
theorem Publish.of_readId {qos : QoS} {id : Option UInt16} {bytes tail : Bytes}
    (h : readId qos bytes = .ok id tail) :
    id ≠ some 0 ∧ (if qos = .atMostOnce then 0 else 2) + tail.length = bytes.length := by
  by_cases hqos : qos = .atMostOnce
  · rw [readId, if_pos hqos] at h
    obtain ⟨rfl, rfl⟩ := Reader.of_pure h
    refine ⟨?_, by rw [if_pos hqos, Nat.zero_add]⟩
    intro hzero
    cases hzero
  · rw [readId, if_neg hqos] at h
    obtain ⟨n, mid, hn, hcheck⟩ := Reader.exists_of_bind h
    have htwo := Reader.of_twoBytes hn
    have hne := Reader.not_of_guard hcheck
    obtain ⟨rfl, rfl⟩ := Reader.of_pure (Reader.of_guard hcheck)
    exact ⟨fun hzero => hne (Option.some.inj hzero), by rw [if_neg hqos, htwo]⟩

/-- A message that has been read is admissible, and its body is no longer than what was read. -/
theorem Publish.read_repays (flags : UInt8) : (read flags).Repays Admissible bodySize := by
  intro bytes p tail h
  cases hq : QoS.ofNat? ((flags >>> 1) &&& 3).toNat with
  | none =>
      simp only [read, hq] at h
      cases h
  | some qos =>
      simp only [read, hq] at h
      have hdup := Reader.not_of_guard h
      obtain ⟨topic, afterTopic, htopic, h⟩ := Reader.exists_of_bind (Reader.of_guard h)
      have hwild := Reader.not_of_guard h
      obtain ⟨id, afterId, hid, h⟩ := Reader.exists_of_bind (Reader.of_guard h)
      obtain ⟨properties, afterList, hlist, h⟩ := Reader.exists_of_bind h
      have hne := Reader.not_of_guard h
      obtain ⟨payload, afterAll, hpayload, h⟩ := Reader.exists_of_bind (Reader.of_guard h)
      cases hpayload
      obtain ⟨rfl, rfl⟩ := Reader.of_pure h
      -- each part of the body repays, and they stand one behind the other
      obtain ⟨htext, htlen⟩ := Reader.of_text htopic
      obtain ⟨hzero, hidlen⟩ := of_readId hid
      obtain ⟨hfit, hplen⟩ := Properties.read_repays hlist
      refine ⟨⟨hne, htext, fun hplus => hwild (.inl hplus), fun hhash => hwild (.inr hhash),
        none_iff_of_readId hid, hzero, fun hqos => ?_, hfit⟩, ?_⟩
      · exact decide_eq_false fun hset => hdup ⟨hqos, hset⟩
      · simp only [bodySize, textSize, List.length_nil]
        omega

/-- An acknowledgement is no longer than what it was read from. -/
theorem Ack.read_repays (expected flags : UInt8) :
    (read expected flags).Repays (fun _ => True) (fun a => a.body.length) := by
  intro bytes a tail h
  obtain ⟨id, afterId, hid, h⟩ := Reader.exists_of_bind (Reader.of_guard h)
  obtain ⟨code, afterCode, hcode, h⟩ := Reader.exists_of_bind h
  obtain ⟨properties, afterAll, hlist, h⟩ := Reader.exists_of_bind h
  obtain ⟨rfl, rfl⟩ := Reader.of_pure h
  have htwo := Reader.of_twoBytes hid
  have hlen := Properties.length_of_readOptional hlist
  refine ⟨trivial, ?_⟩
  simp only [body, List.length_append, Bytes.length_ofUInt16]
  cases afterId with
  | nil =>
      -- the code was left out, and is not spelled out either
      obtain ⟨rfl, rfl⟩ := Reader.of_pure hcode
      have hsuccess : ReasonCode.mk 0 = .success := rfl
      simp only [List.length_nil] at htwo hlen
      rw [if_pos hsuccess, List.length_nil]
      omega
  | cons b afterId =>
      have hbyte : Reader.byte (b :: afterId) = .ok code afterCode := hcode
      cases Reader.of_byte hbyte
      simp only [List.length_cons] at htwo
      split <;> simp only [List.length_nil, List.length_singleton] <;> omega

/-- The last packet of a connection is no longer than what it was read from, or it is a code
without a property list. -/
theorem Disconnect.of_read {flags : UInt8} {bytes tail : Bytes} {p : Disconnect}
    (h : read flags bytes = .ok p tail) :
    p.properties.Writable ∧ ((Packet.disconnect p).bodySize ≤ bytes.length ∨
      bytes.length = 1 ∧ (Packet.disconnect p).bodySize = 2) := by
  have hnone : (Packet.disconnect {}).bodySize = 0 := rfl
  have hempty : Properties.Writable {} := by decide
  have hone : Properties.wireSize {} = 1 := by decide
  obtain ⟨ended, afterStart, hended, h⟩ := Reader.exists_of_bind (Reader.of_guard h)
  cases hended
  cases bytes with
  | nil =>
      obtain ⟨rfl, rfl⟩ := Reader.of_pure h
      exact ⟨hempty, .inl (Nat.le_of_eq hnone)⟩
  | cons b bytes =>
      obtain ⟨code, afterCode, hcode, h⟩ := Reader.exists_of_bind (m := Reader.byte) h
      obtain ⟨properties, afterAll, hlist, h⟩ := Reader.exists_of_bind h
      obtain ⟨rfl, rfl⟩ := Reader.of_pure h
      cases Reader.of_byte hcode
      by_cases hp : Disconnect.mk ⟨b⟩ properties = {}
      · rw [hp]
        exact ⟨hempty, .inl (by omega)⟩
      · rw [Packet.bodySize, if_neg hp, bodySize, List.length_cons]
        rcases Properties.of_readOptional hlist with ⟨rfl, rfl, -⟩ | hread
        · exact ⟨hempty, .inr ⟨rfl, by rw [hone]⟩⟩
        · obtain ⟨hfit, hlen⟩ := Properties.read_repays hread
          exact ⟨hfit, .inl (by dsimp only; omega)⟩

/-! ### All packets -/

/-- A frame that has been split off is as long as its parts. -/
theorem Frame.of_split {limit : Nat} {bytes rest : Bytes} {f : Frame}
    (h : split limit bytes = .ok (some (f, rest))) :
    rest <:+ bytes ∧ f.body.length ≤ VarInt.maxValue ∧
      1 + VarInt.size (UInt32.ofNat f.body.length) + f.body.length + rest.length ≤
        bytes.length := by
  cases bytes with
  | nil => cases h
  | cons first tail =>
      simp only [split] at h
      split at h
      · rename_i length behind hread
        have hle := VarInt.le_maxValue_of_read hread
        have hsize := VarInt.size_add_length_of_read hread
        have hbehind : behind <:+ first :: tail := by
          rw [← VarInt.drop_extent_of_read hread]
          exact (List.drop_suffix _ _).trans (List.suffix_cons _ _)
        simp only [splitBody, List.length_take] at h
        split_ifs at h with hlimit hshort
        · cases h
        · obtain ⟨rfl, rfl⟩ := Prod.mk.inj (Option.some.inj (Except.ok.inj h))
          have hlen : (behind.take length).length = length := by
            rw [List.length_take]
            omega
          simp only [hlen, List.length_drop, List.length_cons]
          exact ⟨(List.drop_suffix _ _).trans hbehind, hle, by omega⟩
      · cases h
      · cases h

namespace Packet

/-- Whether packets of this type are sent by clients and brokers alike. -/
def isTwoWay : Packet → Bool
  | publish _ => true
  | pubAck _ => true
  | pubRec _ => true
  | pubRel _ => true
  | pubComp _ => true
  | disconnect _ => true
  | _ => false

/-- By how many bytes a packet may be longer than what it was read from. -/
def excess : Packet → Nat
  | disconnect _ => 1
  | _ => 0

/-- What has been read of a body is written in no more bytes, but for one more packet. -/
theorem of_ofFrame {f : Frame} {p : Packet} (h : ofFrame f = .ok p) (htwo : p.isTwoWay) :
    p.Mutual ∧ (p.bodySize ≤ f.body.length ∨
      p.excess = 1 ∧ f.body.length = 1 ∧ p.bodySize = 2) := by
  unfold ofFrame reader at h
  split at h
  all_goals obtain ⟨tail, hread⟩ := Reader.exists_of_value h
  case h_8 =>
    obtain ⟨rfl, -⟩ := Reader.of_pure (Reader.of_guard hread)
    cases htwo
  case h_10 => cases hread
  all_goals
    obtain ⟨q, mid, hq, hpacket⟩ := Reader.exists_of_bind hread
    obtain ⟨rfl, -⟩ := Reader.of_pure hpacket
  case h_1 => cases htwo
  case h_2 =>
    obtain ⟨hfit, hlen⟩ := Publish.read_repays _ hq
    exact ⟨.publish hfit, .inl (Nat.le_of_add_right_le hlen)⟩
  case h_7 => cases htwo
  case h_9 =>
    obtain ⟨hfit, hlen⟩ := Disconnect.of_read hq
    exact ⟨.disconnect hfit, hlen.imp_right fun hcode => ⟨rfl, hcode⟩⟩
  all_goals have hlen := Nat.le_of_add_right_le (Ack.read_repays _ _ hq).2
  case h_3 => exact ⟨.pubAck q, .inl hlen⟩
  case h_4 => exact ⟨.pubRec q, .inl hlen⟩
  case h_5 => exact ⟨.pubRel q, .inl hlen⟩
  case h_6 => exact ⟨.pubComp q, .inl hlen⟩

end Packet

/-- The topic of an admissible message is a topic name. -/
theorem Publish.Admissible.isName {p : Publish} (h : p.Admissible) : Topic.IsName p.topic := by
  rw [Topic.isName_iff]
  refine ⟨h.topic_ne, h.topic_isText.1, fun x hx => ⟨?_, ?_, ?_⟩⟩
  · rintro rfl
    exact h.topic_isText.2 hx
  · rintro rfl
    exact h.topic_plus hx
  · rintro rfl
    exact h.topic_hash hx

/-- What an admissible message says of its acknowledgement. -/
theorem Publish.Admissible.acknowledgement {p : Publish} (h : p.Admissible) :
    if p.qos = .atMostOnce then p.packetId = none ∧ p.dup = false
    else ∃ id, p.packetId = some id ∧ id ≠ 0 := by
  split_ifs with hqos
  · exact ⟨h.packetId_iff.2 hqos, h.dup_eq hqos⟩
  · obtain ⟨id, hid⟩ := Option.ne_none_iff_exists'.1 (mt h.packetId_iff.1 hqos)
    exact ⟨id, hid, fun hzero => h.packetId_ne (by rw [hid, hzero])⟩

/-- **A packet that is read has a normal form.**  A message has a topic name, and a number other
than zero exactly if it is to be acknowledged; and each packet that clients send as well has a
written form, no longer than the bytes from which it was read (but for one byte more at the end of
a connection), of which every decoder that admits its size reads the packet again. -/
theorem Decoder.exists_normal_of_decode {d : Decoder} {bytes rest : Bytes} {p : Packet}
    (h : d.decode bytes = .ok (some (p, rest))) (htwo : p.isTwoWay) :
    (∀ m, p = .publish m → Topic.IsName m.topic ∧
      if m.qos = .atMostOnce then m.packetId = none ∧ m.dup = false
      else ∃ id, m.packetId = some id ∧ id ≠ 0) ∧
    ∃ taken written, bytes = taken ++ rest ∧ p.encode = .ok written ∧
      written.length ≤ taken.length + p.excess ∧
      ∀ (d' : Decoder) (more : Bytes), written.length ≤ d'.limit →
        d'.decode (written ++ more) = .ok (some (p, more)) := by
  obtain ⟨f, hsplit, hpacket⟩ := exists_of_decode h
  obtain ⟨⟨taken, rfl⟩, hbody, hlen⟩ := Frame.of_split hsplit
  obtain ⟨hmutual, hshort⟩ := Packet.of_ofFrame hpacket htwo
  refine ⟨?_, taken, ?_⟩
  · rintro m rfl
    cases hmutual with
    | publish hfit => exact ⟨hfit.isName, hfit.acknowledgement⟩
  rw [List.length_append] at hlen
  have hmax : VarInt.maxValue = 268435455 := rfl
  have hle : p.bodySize ≤ VarInt.maxValue := by
    rcases hshort with hshort | ⟨-, -, htwo⟩ <;> omega
  have hsize : p.size ≤ taken.length + p.excess := by
    rw [Packet.size]
    rcases hshort with hshort | ⟨hexcess, hone, htwo⟩
    · have hmono := VarInt.size_ofNat_mono hshort hbody
      omega
    · -- a code alone, to which an empty list is added
      have hnum : VarInt.size (UInt32.ofNat 2) = 1 := rfl
      have hpos := VarInt.size_pos (UInt32.ofNat f.body.length)
      rw [htwo, hnum]
      omega
  obtain ⟨g, hencode, hsame, hread⟩ := Packet.exists_frame hmutual hle
  have hgle : g.body.length ≤ VarInt.maxValue := by
    rw [hsame]
    exact hle
  have hsizes : 1 + VarInt.size (UInt32.ofNat g.body.length) + g.body.length = p.size := by
    rw [hsame, Packet.size]
  have hwritten : (g.first :: VarInt.encode g.body.length ++ g.body).length = p.size := by
    rw [← hsizes, ← VarInt.length_encode_ofNat hgle]
    simp only [List.length_append, List.length_cons]
    omega
  refine ⟨_, rfl, hencode, by rw [hwritten]; exact hsize, fun d' more hadmits => ?_⟩
  rw [hwritten, ← hsizes] at hadmits
  exact decode_encode_append hgle hadmits hread more

/-- A message in 29 bytes: the lengths of its body and of its list take more bytes than they need,
and so does the subscription identifier; the expiry is given twice, and one property is skipped. -/
theorem Decoder.exists_normal_of_decode_generous :
    let m : Publish :=
      { dup := false, qos := .atLeastOnce, retain := false, topic := "a/b", packetId := some 7
        payload := [0xFF]
        properties := { messageExpiryInterval := some 9, subscriptionIdentifiers := [1] } }
    (Decoder.mk 100).decode
        [0x32, 0x99, 0x80, 0, 0, 3, 0x61, 0x2F, 0x62, 0, 7, 0x8F, 0, 0x02, 0, 0, 0, 1,
          0x02, 0, 0, 0, 9, 0x0B, 0x81, 0, 0x28, 1, 0xFF, 0xE0] =
      .ok (some (.publish m, [0xE0])) ∧
    Topic.IsName m.topic ∧
    ∃ written, (Packet.publish m).encode = .ok written ∧ written.length ≤ 29 ∧
      ∀ (d' : Decoder) (more : Bytes), written.length ≤ d'.limit →
        d'.decode (written ++ more) = .ok (some (.publish m, more)) := by
  intro m
  have hread : (Decoder.mk 100).decode
      [0x32, 0x99, 0x80, 0, 0, 3, 0x61, 0x2F, 0x62, 0, 7, 0x8F, 0, 0x02, 0, 0, 0, 1,
        0x02, 0, 0, 0, 9, 0x0B, 0x81, 0, 0x28, 1, 0xFF, 0xE0] =
      .ok (some (.publish m, [0xE0])) := by
    decide +kernel
  obtain ⟨hmessage, taken, written, htaken, hencode, hlen, hagain⟩ :=
    exists_normal_of_decode hread rfl
  have htotal := congrArg List.length htaken
  rw [List.length_append] at htotal
  refine ⟨hread, (hmessage m rfl).1, written, hencode, ?_, hagain⟩
  simp only [List.length_cons, List.length_nil, Packet.excess] at htotal hlen
  omega

end TopicBridge.Mqtt
