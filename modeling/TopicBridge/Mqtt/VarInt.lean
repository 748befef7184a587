/-
**Variable byte integers.**

A number below `2 ^ 28` is written in groups of seven bits, the lowest first; every byte but the
last has its high bit set.  At most four bytes are used.

Main definitions:

* `TopicBridge.Mqtt.VarInt.encode` — the shortest form of a number;
* `VarInt.write` — the same, refusing numbers that need more than four bytes;
* `VarInt.size` — the length of that form, as a table of ranges;
* `VarInt.read` — the number at the front of a byte string;
* `VarInt.extent` — the number of bytes that it takes there.

Main results:

* `VarInt.read_encode_append` — a number is read back, and what follows is left;
* `VarInt.length_encode` — the table of ranges gives the length of the form.
-/

import TopicBridge.Bytes
import TopicBridge.Mqtt.Error

set_option autoImplicit false

namespace TopicBridge.Mqtt.VarInt

/-- The largest number with a form of four bytes. -/
def maxValue : Nat := 268435455

/-! ### Writing -/

/-- The groups of seven bits of `n`, lowest first, all but the last marked as continued. -/
def encode (n : Nat) : Bytes :=
  if n < 128 then [n.toUInt8] else (n % 128 + 128).toUInt8 :: encode (n / 128)
termination_by n
decreasing_by omega

/-- The form of `n`, if it needs at most four bytes. -/
def write (n : UInt32) : Except EncodeError Bytes :=
  if n.toNat ≤ maxValue then .ok (encode n.toNat) else .error .packetTooLarge

/-- The number of bytes that `n` takes; four for every number that needs more than three. -/
def size (n : UInt32) : Nat :=
  if n.toNat ≤ 127 then 1
  else if n.toNat ≤ 16383 then 2
  else if n.toNat ≤ 2097151 then 3
  else 4

theorem encode_of_lt {n : Nat} (h : n < 128) : encode n = [n.toUInt8] := by
  rw [encode, if_pos h]

theorem encode_of_le {n : Nat} (h : 128 ≤ n) :
    encode n = (n % 128 + 128).toUInt8 :: encode (n / 128) := by
  rw [encode, if_neg (by omega)]

theorem encode_ne_nil (n : Nat) : encode n ≠ [] := by
  rw [encode]; split <;> simp

/-- The table of ranges gives the length of the written form. -/
theorem length_encode {n : UInt32} (h : n.toNat ≤ maxValue) : (encode n.toNat).length = size n := by
  simp only [maxValue] at h
  unfold size
  split
  · rw [encode_of_lt (by omega)]; rfl
  · rw [encode_of_le (by omega)]
    split
    · rw [encode_of_lt (by omega)]; rfl
    · rw [encode_of_le (by omega)]
      split
      · rw [encode_of_lt (by omega)]; rfl
      · rw [encode_of_le (by omega), encode_of_lt (by omega)]; rfl

/-! ### Reading -/

/-- The number spelled by at most `groups` bytes at the front, and what follows them. -/
def readGroups : Nat → Bytes → Except DecodeError (Nat × Bytes)
  | 0, _ => .error .invalidRemainingLength
  | _ + 1, [] => .error .insufficientData
  | groups + 1, b :: rest =>
    if b < 128 then .ok (b.toNat, rest)
    else
      match readGroups groups rest with
      | .ok (n, rest') => .ok (b.toNat - 128 + 128 * n, rest')
      | .error e => .error e

/-- The number at the front of a byte string, and what follows it.  Four continued bytes are no
number; fewer, with nothing after them, may still become one. -/
def read (bytes : Bytes) : Except DecodeError (Nat × Bytes) := readGroups 4 bytes

theorem readGroups_last {groups n : Nat} {rest : Bytes} (h : n < 128) :
    readGroups (groups + 1) ([n.toUInt8] ++ rest) = .ok (n, rest) := by
  have hb : n.toUInt8.toNat = n := by simp; omega
  have hlt : n.toUInt8 < 128 := by rw [UInt8.lt_iff_toNat_lt, hb]; exact h
  simp [readGroups, hlt, hb]

/-- The numbers that so many groups can spell are below this. -/
def limit : Nat → Nat
  | 0 => 1
  | groups + 1 => 128 * limit groups

theorem readGroups_encode_append (groups n : Nat) (rest : Bytes) (h : n < limit (groups + 1)) :
    readGroups (groups + 1) (encode n ++ rest) = .ok (n, rest) := by
  induction groups generalizing n with
  | zero =>
    have hn : n < 128 := by simpa [limit] using h
    rw [encode_of_lt hn]
    exact readGroups_last hn
  | succ groups ih =>
    rcases Nat.lt_or_ge n 128 with hn | hn
    · rw [encode_of_lt hn]
      exact readGroups_last hn
    · have hb : (n % 128 + 128).toUInt8.toNat = n % 128 + 128 := by simp; omega
      have hlt : ¬ (n % 128 + 128).toUInt8 < 128 := by
        rw [UInt8.lt_iff_toNat_lt, hb]; simp
      have hd : n / 128 < limit (groups + 1) := Nat.div_lt_of_lt_mul h
      rw [encode_of_le hn, List.cons_append, readGroups, if_neg hlt, ih _ hd, hb]
      simp only [Except.ok.injEq, Prod.mk.injEq, and_true]
      omega

/-- A number is read back from its form, whatever follows. -/
theorem read_encode_append {n : Nat} (h : n ≤ maxValue) (rest : Bytes) :
    read (encode n ++ rest) = .ok (n, rest) :=
  readGroups_encode_append 3 n rest (by simp only [maxValue, limit] at h ⊢; omega)

theorem length_of_readGroups {groups : Nat} {bytes rest : Bytes} {n : Nat}
    (h : readGroups groups bytes = .ok (n, rest)) : rest.length < bytes.length := by
  induction groups generalizing bytes n with
  | zero => simp [readGroups] at h
  | succ groups ih =>
    cases bytes with
    | nil => simp [readGroups] at h
    | cons b tail =>
      simp only [readGroups] at h
      split at h
      · cases h; simp
      · split at h
        · rename_i h'
          cases h
          have := ih h'
          simp only [List.length_cons]
          omega
        · cases h

/-- The number of bytes of a number at the front: those marked as continued, and one more. -/
def extent (bytes : Bytes) : Nat := (bytes.takeWhile fun b => 128 ≤ b).length + 1

theorem drop_extent_of_readGroups {groups : Nat} {bytes rest : Bytes} {n : Nat}
    (h : readGroups groups bytes = .ok (n, rest)) : bytes.drop (extent bytes) = rest := by
  induction groups generalizing bytes n with
  | zero => simp [readGroups] at h
  | succ groups ih =>
    cases bytes with
    | nil => simp [readGroups] at h
    | cons b tail =>
      simp only [readGroups] at h
      split at h
      · rename_i hb
        have hb' : ¬ 128 ≤ b := UInt8.not_le.2 hb
        cases h
        simp [extent, hb']
      · rename_i hb
        have hb' : 128 ≤ b := UInt8.not_lt.1 hb
        split at h
        · rename_i h'
          cases h
          have := ih h'
          simpa [extent, hb'] using this
        · cases h

/-- What is read is what `extent` measures. -/
theorem drop_extent_of_read {bytes rest : Bytes} {n : Nat} (h : read bytes = .ok (n, rest)) :
    bytes.drop (extent bytes) = rest :=
  drop_extent_of_readGroups h

/-- At least one byte is read. -/
theorem length_of_read {bytes rest : Bytes} {n : Nat} (h : read bytes = .ok (n, rest)) :
    rest.length < bytes.length :=
  length_of_readGroups h

end TopicBridge.Mqtt.VarInt
