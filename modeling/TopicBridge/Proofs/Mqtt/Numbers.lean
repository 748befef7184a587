/-
**Numbers in one pass.**

A number is written by dividing it until nothing is left, and read by putting the bits of each group
in their place; a table of ranges says beforehand how many bytes it will be.  The three are held
against the groups of seven bits that a number consists of.  A byte string either begins with at
most four groups, the last of them not continued, or every group is continued as far as one looks;
then it depends on the number of bytes alone whether more of them could still make it a number.

Main definitions:

* `Mqtt.VarInt.Regathers` — the bytes are what is written of a number, and read back as it;
* `VarInt.Gathers` — what is made of bytes that have come in.

Main results:

* `VarInt.gatherFrom_of_groups` — the groups of a number add up to it;
* `VarInt.emitFrom_eq` — dividing writes the form of a number;
* `VarInt.gather_cases` — a number, or an error that the number of bytes decides;
* `VarInt.gather_exact` — **reader, writer and table agree, and the reader is exact**.
-/

import TopicBridge.Mqtt.VarInt.Words
import TopicBridge.Proofs.Mqtt.Limit

set_option autoImplicit false

namespace TopicBridge.Mqtt.VarInt

variable {bytes field front more : Bytes} {b : UInt8} {n value : UInt32}
  {count groups k m used : Nat}

/-! ### The bits of a group -/

theorem isContinued_iff : isContinued b ↔ 128 ≤ b := by
  have hbits : ∀ k : Fin 256, k.val &&& 128 ≠ 0 ↔ 128 ≤ k.val := by decide +kernel
  have h := hbits ⟨b.toNat, b.toNat_lt⟩
  rw [isContinued, bne_iff_ne, UInt8.le_iff_toNat_le, ne_eq, ← UInt8.toNat_inj, UInt8.toNat_and]
  exact h

theorem limit_eq (k : Nat) : limit k = 1 <<< (7 * k) := by
  induction k with
  | zero => rfl
  | succ k ih =>
      rw [limit, ih, Nat.mul_succ, Nat.shiftLeft_add, Nat.shiftLeft_eq _ 7]
      omega

/-- A group that is put above the bits of those before it is added to them. -/
theorem toNat_or_shiftLeft (hk : k < 4) (hv : value.toNat < limit k) (b : UInt8) :
    (value ||| (b &&& 0x7F).toUInt32 <<< UInt32.ofNat (7 * k)).toNat =
      value.toNat + limit k * (b.toNat % 128) := by
  have hlow : (b &&& 0x7F).toUInt32.toNat = b.toNat % 128 :=
    Nat.and_two_pow_sub_one_eq_mod b.toNat 7
  have hshift : (UInt32.ofNat (7 * k)).toNat % 32 = 7 * k := by
    rw [UInt32.toNat_ofNat_of_lt' (by rw [UInt32.size]; omega)]
    omega
  rw [limit_eq, Nat.one_shiftLeft] at hv ⊢
  have hfits : 2 ^ (7 * k) * (b.toNat % 128) < 2 ^ 32 := by
    have : 2 ^ (7 * k) ≤ 2 ^ 21 := Nat.pow_le_pow_right (by decide) (by omega)
    have := Nat.mul_le_mul this (Nat.le_of_lt_succ (Nat.mod_lt b.toNat (y := 128) (by decide)))
    omega
  rw [UInt32.toNat_or, UInt32.toNat_shiftLeft, hlow, hshift, Nat.shiftLeft_eq,
    Nat.mul_comm _ (2 ^ _), Nat.mod_eq_of_lt hfits, Nat.or_comm, ← Nat.two_pow_add_eq_or_of_lt hv,
    Nat.add_comm]

/-! ### Reading -/

theorem gatherFrom_cons (h : count < 4) (shift : UInt32) (b : UInt8) (rest : Bytes) :
    gatherFrom value shift count (b :: rest) =
      if isContinued b then
        gatherFrom (value ||| (b &&& 0x7F).toUInt32 <<< shift) (shift + 7) (count + 1) rest
      else .ok (value ||| (b &&& 0x7F).toUInt32 <<< shift, count + 1) := by
  rw [gatherFrom, if_neg (Nat.not_le.2 h)]

theorem shift_succ (k : Nat) : UInt32.ofNat (7 * k) + 7 = UInt32.ofNat (7 * (k + 1)) := by
  rw [Nat.mul_succ, UInt32.ofNat_add]
  rfl

/-- The groups of a number are gathered on top of what the groups in front of them have given. -/
theorem gatherFrom_of_groups (h : Groups front m) (hlen : count + front.length ≤ 4)
    (hv : value.toNat < limit count) (more : Bytes) :
    ∃ total, gatherFrom value (UInt32.ofNat (7 * count)) count (front ++ more) =
        .ok (total, count + front.length) ∧
      total.toNat = value.toNat + limit count * m := by
  induction h generalizing value count with
  | @last b hb =>
      rw [List.length_singleton] at hlen
      have hstop : ¬isContinued b := mt isContinued_iff.1 (UInt8.not_le.2 hb)
      have hmod : b.toNat % 128 = b.toNat := Nat.mod_eq_of_lt (UInt8.lt_iff_toNat_lt.1 hb)
      refine ⟨_, ?_, (toNat_or_shiftLeft (by omega) hv b).trans (by rw [hmod])⟩
      rw [List.singleton_append, gatherFrom_cons (by omega), if_neg hstop]
      rfl
  | @more b front m hb _ ih =>
      rw [List.length_cons] at hlen
      have hgroup := toNat_or_shiftLeft (by omega) hv b
      have hbyte := b.toNat_lt
      have hhigh : 128 ≤ b.toNat := UInt8.le_iff_toNat_le.1 hb
      have hmod : b.toNat % 128 = b.toNat - 128 := by omega
      rw [hmod] at hgroup
      -- the next group belongs 128 times as far up
      have hnext : (value ||| (b &&& 0x7F).toUInt32 <<< UInt32.ofNat (7 * count)).toNat <
          limit (count + 1) := by
        rw [hgroup, limit]
        have := Nat.mul_le_mul_left (limit count) (show b.toNat - 128 ≤ 127 by omega)
        omega
      obtain ⟨total, hgather, htotal⟩ := ih (by omega) hnext
      refine ⟨total, ?_, ?_⟩
      · rw [List.cons_append, gatherFrom_cons (by omega), if_pos (isContinued_iff.2 hb),
          shift_succ, hgather, List.length_cons, Nat.add_right_comm, Nat.add_assoc]
      · rw [htotal, hgroup, limit, Nat.mul_add, Nat.add_assoc, Nat.mul_comm 128, Nat.mul_assoc]

/-- Where every group is followed by another, the bytes come to an end or there are too many. -/
theorem gatherFrom_of_continued (shift : UInt32) (hcount : count ≤ 4)
    (h : ∀ b ∈ bytes.take (4 - count), isContinued b) :
    gatherFrom value shift count bytes =
      .error (if 4 ≤ count + bytes.length then .invalidRemainingLength else .insufficientData) := by
  induction bytes generalizing value shift count with
  | nil => rfl
  | cons b rest ih =>
      rcases Nat.lt_or_ge count 4 with hlt | hge
      · obtain ⟨left, hleft⟩ : ∃ left, 4 - count = left + 1 := ⟨3 - count, by omega⟩
        rw [hleft, List.take_succ_cons, List.forall_mem_cons] at h
        have hrest : ∀ b ∈ rest.take (4 - (count + 1)), isContinued b := by
          rw [show 4 - (count + 1) = left by omega]
          exact h.2
        rw [gatherFrom_cons hlt, if_pos h.1, ih _ (by omega) hrest, List.length_cons,
          Nat.add_right_comm, Nat.add_assoc]
      · rw [gatherFrom, if_pos hge, if_pos (by omega)]

theorem readGroups_of_continued (h : ∀ b ∈ bytes.take groups, isContinued b) :
    readGroups groups bytes =
      .error (if groups ≤ bytes.length then .invalidRemainingLength else .insufficientData) := by
  induction groups generalizing bytes with
  | zero => rw [readGroups, if_pos (Nat.zero_le _)]
  | succ groups ih =>
      cases bytes with
      | nil => rfl
      | cons b rest =>
          rw [List.take_succ_cons, List.forall_mem_cons] at h
          have hb : ¬b < 128 := UInt8.not_lt.2 (isContinued_iff.1 h.1)
          rw [readGroups, if_neg hb, ih h.2, List.length_cons]
          simp only [Nat.add_le_add_iff_right]

/-- Bytes begin with a number, or every group is followed by another as far as one looks. -/
theorem groups_or_continued (groups : Nat) (bytes : Bytes) :
    (∃ field m more, bytes = field ++ more ∧ Groups field m ∧ field.length ≤ groups) ∨
      ∀ b ∈ bytes.take groups, isContinued b := by
  induction groups generalizing bytes with
  | zero => exact .inr (by simp)
  | succ groups ih =>
      cases bytes with
      | nil => exact .inr (by simp)
      | cons b rest =>
          rcases UInt8.lt_or_le b 128 with hb | hb
          · exact .inl ⟨[b], b.toNat, rest, rfl, .last hb, Nat.succ_le_succ (Nat.zero_le _)⟩
          · rcases ih rest with ⟨field, m, more, rfl, hfield, hlen⟩ | hall
            · exact .inl ⟨b :: field, _, more, rfl, .more hb hfield, Nat.succ_le_succ hlen⟩
            · refine .inr ?_
              rw [List.take_succ_cons, List.forall_mem_cons]
              exact ⟨isContinued_iff.2 hb, hall⟩

theorem gather_of_spells (h : Spells field n.toNat) (more : Bytes) :
    gather (field ++ more) = .ok (n, field.length) := by
  obtain ⟨hgroups, hlen⟩ := h
  have hfour : 0 + field.length ≤ 4 := by rwa [Nat.zero_add]
  have hzero : (0 : UInt32).toNat < limit 0 := Nat.one_pos
  obtain ⟨total, hgather, htotal⟩ := gatherFrom_of_groups hgroups hfour hzero more
  rw [UInt32.toNat_zero, Nat.zero_add, limit, Nat.one_mul, UInt32.toNat_inj] at htotal
  rw [Nat.zero_add, htotal] at hgather
  exact hgather

/-! ### Writing -/

theorem toNat_group (n : UInt32) : (n % 128).toUInt8 = (n.toNat % 128).toUInt8 := by
  rw [← UInt8.toNat_inj, UInt32.toNat_toUInt8, UInt32.toNat_mod]
  rfl

theorem group_or_continued (m : Nat) :
    (m % 128).toUInt8 ||| 0x80 = (m % 128 + 128).toUInt8 := by
  have hlt : m % 128 < 2 ^ 7 := Nat.mod_lt m (by decide)
  have hbyte : (m % 128).toUInt8.toNat = m % 128 :=
    UInt8.toNat_ofNat_of_lt' (by rw [UInt8.size]; omega)
  have hbyte' : (m % 128 + 128).toUInt8.toNat = m % 128 + 128 :=
    UInt8.toNat_ofNat_of_lt' (by rw [UInt8.size]; omega)
  rw [← UInt8.toNat_inj, UInt8.toNat_or, hbyte, hbyte', Nat.or_comm, Nat.add_comm]
  exact (Nat.two_pow_add_eq_or_of_lt hlt 1).symm

/-- What is left of a number is written as its form. -/
theorem emitFrom_eq (n : UInt32) (count : Nat) (buffer : Bytes) :
    emitFrom n count buffer =
      (buffer ++ encode n.toNat, count + (encode n.toNat).length) := by
  induction n, count, buffer using emitFrom.induct with
  | case1 n count buffer group hleft ih =>
      have hle : 128 ≤ n.toNat := by
        rw [UInt32.lt_iff_toNat_lt, UInt32.toNat_div] at hleft
        simp only [UInt32.reduceToNat] at hleft
        omega
      have hdiv : (n / 128).toNat = n.toNat / 128 := UInt32.toNat_div n 128
      have hgroup : group ||| 0x80 = (n.toNat % 128 + 128).toUInt8 := by
        rw [← group_or_continued, ← toNat_group]
      rw [emitFrom, dif_pos hleft, ih, hdiv, encode_of_le hle, hgroup, List.append_assoc,
        List.singleton_append, List.length_cons, Nat.add_right_comm, Nat.add_assoc]
  | case2 n count buffer hleft =>
      have hlt : n.toNat < 128 := by
        rw [UInt32.lt_iff_toNat_lt, UInt32.toNat_div] at hleft
        simp only [UInt32.reduceToNat] at hleft
        omega
      rw [emitFrom, dif_neg hleft, encode_of_lt hlt, toNat_group, Nat.mod_eq_of_lt hlt]
      rfl

/-- A number is written as its form, and the bytes are counted. -/
theorem emit_eq (h : n.toNat ≤ maxValue) (buffer : Bytes) :
    emit n buffer = .ok (buffer ++ encode n.toNat, size n) := by
  rw [emit, if_pos h, emitFrom_eq, Nat.zero_add, length_encode h]

theorem spells_encode (h : m ≤ maxValue) : Spells (encode m) m := by
  have hread := read_encode_append h []
  obtain ⟨field, hfield, hspells⟩ := read_eq_ok_iff.1 hread
  rw [List.append_nil, List.append_nil] at hfield
  rwa [hfield]

/-! ### What comes out -/

/-- A byte string begins with a number, or else the number of its bytes decides what is wrong. -/
theorem gather_cases (bytes : Bytes) :
    (∃ field more, ∃ n : UInt32, bytes = field ++ more ∧ Spells field n.toNat) ∨
      (∀ b ∈ bytes.take 4, isContinued b) ∧
        gather bytes =
          .error (if 4 ≤ bytes.length then .invalidRemainingLength else .insufficientData) := by
  rcases groups_or_continued 4 bytes with ⟨field, m, more, rfl, hgroups, hlen⟩ | hall
  · have hspells : Spells field m := ⟨hgroups, hlen⟩
    refine .inl ⟨field, more, UInt32.ofNat m, rfl, ?_⟩
    rwa [toNat_ofNat hspells.le_maxValue]
  · refine .inr ⟨hall, ?_⟩
    rw [gather, gatherFrom_of_continued 0 (Nat.zero_le 4) hall, Nat.zero_add]

/-- A number is gathered of just the bytes that spell it. -/
theorem gather_eq_ok_iff :
    gather bytes = .ok (n, used) ↔
      ∃ field more, bytes = field ++ more ∧ Spells field n.toNat ∧ field.length = used := by
  constructor
  · intro h
    rcases gather_cases bytes with ⟨field, more, n', rfl, hspells⟩ | ⟨-, herror⟩
    · rw [gather_of_spells hspells] at h
      cases h
      exact ⟨field, more, rfl, hspells, rfl⟩
    · rw [herror] at h
      cases h
  · rintro ⟨field, more, rfl, hspells, rfl⟩
    exact gather_of_spells hspells more

/-- Bytes are missing exactly if there are at most three and every group is continued. -/
theorem gather_eq_insufficient_iff :
    gather bytes = .error .insufficientData ↔
      bytes.length ≤ 3 ∧ ∀ b ∈ bytes, isContinued b := by
  constructor
  · intro h
    rcases gather_cases bytes with ⟨field, more, n, rfl, hspells⟩ | ⟨hall, herror⟩
    · rw [gather_of_spells hspells] at h
      cases h
    · rw [herror] at h
      split at h
      · cases h
      · rename_i hshort
        rw [List.take_of_length_le (by omega)] at hall
        exact ⟨by omega, hall⟩
  · rintro ⟨hlen, hall⟩
    have htake : ∀ b ∈ bytes.take 4, isContinued b := fun b hb => hall b (List.mem_of_mem_take hb)
    rw [gather, gatherFrom_of_continued 0 (Nat.zero_le 4) htake, if_neg (by omega)]

/-- There are too many groups exactly if the first four are all continued. -/
theorem gather_eq_invalid_iff :
    gather bytes = .error .invalidRemainingLength ↔
      4 ≤ bytes.length ∧ ∀ b ∈ bytes.take 4, isContinued b := by
  constructor
  · intro h
    rcases gather_cases bytes with ⟨field, more, n, rfl, hspells⟩ | ⟨hall, herror⟩
    · rw [gather_of_spells hspells] at h
      cases h
    · rw [herror] at h
      split at h
      · rename_i hlong
        exact ⟨hlong, hall⟩
      · cases h
  · rintro ⟨hlen, hall⟩
    rw [gather, gatherFrom_of_continued 0 (Nat.zero_le 4) hall, if_pos (by omega)]

/-- The same number is read by multiplying, and the same error found. -/
theorem gather_eq (bytes : Bytes) :
    gather bytes =
      (read bytes).map fun found => (UInt32.ofNat found.1, bytes.length - found.2.length) := by
  rcases gather_cases bytes with ⟨field, more, n, rfl, hspells⟩ | ⟨hall, herror⟩
  · rw [gather_of_spells hspells, hspells.read, Except.map, UInt32.ofNat_toNat,
      List.length_append, Nat.add_sub_cancel]
  · rw [herror, read, readGroups_of_continued hall]
    rfl

/-- The bytes are what is written of a number, as many as the table says, and are read back as that
number. -/
structure Regathers (n : UInt32) (field : Bytes) : Prop where
  written : write n = .ok field
  emitted : ∀ buffer, emit n buffer = .ok (buffer ++ field, field.length)
  length_eq : field.length = size n
  gathered : ∀ more, gather (field ++ more) = .ok (n, field.length)

/-- What is made of bytes that have come in. -/
structure Gathers (bytes : Bytes) : Prop where
  agrees : gather bytes =
    (read bytes).map fun found => (UInt32.ofNat found.1, bytes.length - found.2.length)
  ok_iff : ∀ n used, gather bytes = .ok (n, used) ↔
    ∃ field more, bytes = field ++ more ∧ Spells field n.toNat ∧ field.length = used
  bounded : ∀ n used, gather bytes = .ok (n, used) → n.toNat ≤ maxValue ∧ used ≤ 4
  /-- What stands behind the number does not matter. -/
  stable : ∀ n used, gather bytes = .ok (n, used) →
    used ≤ bytes.length ∧ ∀ more, gather (bytes.take used ++ more) = .ok (n, used)
  insufficient_iff : gather bytes = .error .insufficientData ↔
    bytes.length ≤ 3 ∧ ∀ b ∈ bytes, isContinued b
  invalid_iff : gather bytes = .error .invalidRemainingLength ↔
    4 ≤ bytes.length ∧ ∀ b ∈ bytes.take 4, isContinued b
  error : ∀ e, gather bytes = .error e → e = .insufficientData ∨ e = .invalidRemainingLength

/-- A number has a written form exactly if it is not too large, and is read back from it whatever
follows; and of any bytes a number is read, or one of two errors found, exactly as the bits that
mark a group as continued say. -/
theorem gather_exact :
    (∀ n : UInt32, (∃ field, Regathers n field) ↔ n.toNat ≤ maxValue) ∧
      ∀ bytes, Gathers bytes := by
  constructor
  · intro n
    constructor
    · rintro ⟨field, h⟩
      exact (eq_encode_of_write h.written).1
    · intro hle
      have hlen := length_encode hle
      refine ⟨encode n.toNat, ?_, ?_, hlen, ?_⟩
      · rw [write, if_pos hle]
      · intro buffer
        rw [emit_eq hle, hlen]
      · intro more
        exact gather_of_spells (spells_encode hle) more
  · intro bytes
    refine ⟨gather_eq bytes, fun n used => gather_eq_ok_iff, ?_, ?_, gather_eq_insufficient_iff,
      gather_eq_invalid_iff, ?_⟩
    · intro n used h
      obtain ⟨field, more, -, hspells, rfl⟩ := gather_eq_ok_iff.1 h
      exact ⟨hspells.le_maxValue, hspells.2⟩
    · intro n used h
      obtain ⟨field, more, rfl, hspells, rfl⟩ := gather_eq_ok_iff.1 h
      rw [List.take_left, List.length_append]
      exact ⟨Nat.le_add_right _ _, gather_of_spells hspells⟩
    · intro e h
      rcases gather_cases bytes with ⟨field, more, n, rfl, hspells⟩ | ⟨-, herror⟩
      · rw [gather_of_spells hspells] at h
        cases h
      · rw [herror] at h
        split at h <;> cases h
        · exact .inr rfl
        · exact .inl rfl

-- the largest number, with a byte behind it; and one byte too few
example : gather [0xFF, 0xFF, 0xFF, 0x7F, 0xFF] = .ok (268435455, 4) := by rfl

example : gather [0xFF, 0xFF, 0xFF] = .error .insufficientData := by rfl

end TopicBridge.Mqtt.VarInt
