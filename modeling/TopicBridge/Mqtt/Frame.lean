/-
**Frames.**

On the wire a packet is a frame: one byte with the packet's type and flags, the length of the body
as a variable byte integer, and the body.

Main definitions:

* `TopicBridge.Mqtt.Frame` — a first byte and a body;
* `Frame.header` — the first byte and the length that stand in front of a body;
* `Frame.split` — the frame at the front of the bytes received, once it is there as a whole.

Main results:

* `Frame.length_of_split` — a frame takes at least two bytes.
-/

import TopicBridge.Mqtt.VarInt

set_option autoImplicit false

namespace TopicBridge.Mqtt

/-- A packet on the wire, its body not yet read. -/
structure Frame where
  /-- Type and flags. -/
  first : UInt8
  body : Bytes
  deriving DecidableEq, Repr

namespace Frame

/-- The upper half of the first byte. -/
def type (f : Frame) : UInt8 := f.first >>> 4

/-- The lower half of the first byte. -/
def flags (f : Frame) : UInt8 := f.first &&& 0x0F

/-! ### Writing -/

/-- What stands in front of a body of the given length. -/
def header (first : UInt8) (length : Nat) : Except EncodeError Bytes := do
  let size ← VarInt.write (UInt32.ofNat length)
  return first :: size

/-! ### Splitting a stream -/

/-- The frame that `first` begins, once its length is known, which took `extent` bytes.  A frame
above `limit` is refused before its body is looked at. -/
def splitBody (limit : Nat) (first : UInt8) (extent length : Nat) (rest : Bytes) :
    Except DecodeError (Option (Frame × Bytes)) :=
  if 1 + extent + length > limit then .error .packetTooLarge
  else
    let body := rest.take length
    if body.length < length then .ok none
    else .ok (some (⟨first, body⟩, rest.drop length))

/-- The frame at the front of the bytes received, and what follows it; `none` as long as the frame
is not complete. -/
def split (limit : Nat) : Bytes → Except DecodeError (Option (Frame × Bytes))
  | [] => .ok none
  | first :: tail =>
    match VarInt.read tail with
    | .ok (length, rest) => splitBody limit first (VarInt.extent tail) length rest
    | .error .insufficientData => .ok none
    | .error e => .error e

/-- A frame takes at least two bytes. -/
theorem length_of_split {limit : Nat} {bytes rest : Bytes} {f : Frame}
    (h : split limit bytes = .ok (some (f, rest))) : rest.length + 2 ≤ bytes.length := by
  cases bytes with
  | nil => simp [split] at h
  | cons first tail =>
    simp only [split] at h
    split at h
    · rename_i length rest' hread
      have hlt := VarInt.length_of_read hread
      simp only [splitBody] at h
      split at h
      · cases h
      · split at h
        · cases h
        · cases h
          simp only [List.length_drop, List.length_cons]
          omega
    · cases h
    · cases h

end Frame

end TopicBridge.Mqtt
