/-
**Numbers group by group.**

`VarInt.read` gives a number as what its first group adds to 128 times the number of the other
groups, and `VarInt.encode` gives the whole form of a number at once.  The same can be done in one
pass with a machine word: the bits of each group are put in their place as soon as its byte is seen,
and what is left of a number is divided until nothing is.  Both count the bytes as they go.

Main definitions:

* `TopicBridge.Mqtt.VarInt.isContinued` — whether another group follows a byte;
* `VarInt.gather` — the number at the front of a byte string, and how many bytes it takes;
* `VarInt.emit` — a number behind what is in a buffer, and how many bytes have been added.
-/

import TopicBridge.Mqtt.VarInt

set_option autoImplicit false

namespace TopicBridge.Mqtt.VarInt

/-- Whether another group follows: the high bit of a byte. -/
def isContinued (b : UInt8) : Bool := b &&& 0x80 != 0

/-- Goes on reading behind `count` bytes, which have given `value`; the bits of the next group stand
`shift` places further up. -/
def gatherFrom (value shift : UInt32) (count : Nat) : Bytes → Except DecodeError (UInt32 × Nat)
  | [] => .error (if 4 ≤ count then .invalidRemainingLength else .insufficientData)
  | b :: rest =>
    if 4 ≤ count then .error .invalidRemainingLength
    else
      let gathered := value ||| (b &&& 0x7F).toUInt32 <<< shift
      if isContinued b then gatherFrom gathered (shift + 7) (count + 1) rest
      else .ok (gathered, count + 1)

/-- The number at the front of a byte string, and how many bytes it takes. -/
def gather (bytes : Bytes) : Except DecodeError (UInt32 × Nat) := gatherFrom 0 0 0 bytes

/-- Goes on writing what is left of a number, of which `count` bytes have been written. -/
def emitFrom (value : UInt32) (count : Nat) (buffer : Bytes) : Bytes × Nat :=
  let group := (value % 128).toUInt8
  if _h : 0 < value / 128 then emitFrom (value / 128) (count + 1) (buffer ++ [group ||| 0x80])
  else (buffer ++ [group], count + 1)
termination_by value.toNat
decreasing_by
  rw [UInt32.lt_iff_toNat_lt, UInt32.toNat_div] at _h
  rw [UInt32.toNat_div]
  simp only [UInt32.reduceToNat] at _h ⊢
  omega

/-- Writes a number behind what is in a buffer, if it needs at most four bytes. -/
def emit (n : UInt32) (buffer : Bytes) : Except EncodeError (Bytes × Nat) :=
  if n.toNat ≤ maxValue then .ok (emitFrom n 0 buffer) else .error .packetTooLarge

end TopicBridge.Mqtt.VarInt
