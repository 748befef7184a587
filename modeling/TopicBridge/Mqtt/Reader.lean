/-
**Reading fields from the front of a byte string.**

A `Reader` takes a field from the front of a byte string and leaves the rest.  A reader that fails
leaves what its earlier parts did not take: a text whose length is given but whose bytes are not
all there fails after the two bytes of the length.

Main definitions:

* `TopicBridge.Mqtt.Reader` — a computation over the bytes that are left;
* `Reader.take`, `Reader.rest` — a given number of bytes, and all that are left;
* `Reader.byte`, `Reader.twoBytes`, `Reader.fourBytes`, `Reader.varInt` — numbers;
* `Reader.binary`, `Reader.text` — fields preceded by their length;
* `Reader.Shortens` — on success a reader leaves at least `n` bytes fewer.

Main results:

* `Reader.byte_shortens`, `Reader.text_shortens`, … — every field takes at least its fixed part.
-/

import TopicBridge.Mqtt.VarInt

set_option autoImplicit false

namespace TopicBridge.Mqtt

/-- A computation that takes a value from the front of the bytes that are left. -/
abbrev Reader := EStateM DecodeError Bytes

/-- The outcome of a reader: a value or an error, and the bytes that are left. -/
abbrev Reader.Result := EStateM.Result DecodeError Bytes

namespace Reader

variable {α β : Type}

/-- The value read from `bytes`, without the bytes that are left. -/
def value (m : Reader α) (bytes : Bytes) : Except DecodeError α :=
  match m bytes with
  | .ok a _ => .ok a
  | .error e _ => .error e

/-! ### Fields -/

/-- The next `n` bytes. -/
def take (n : Nat) : Reader Bytes := fun bytes =>
  let field := bytes.take n
  if field.length < n then .error .insufficientData bytes
  else .ok field (bytes.drop n)

/-- All bytes that are left. -/
def rest : Reader Bytes := fun bytes => .ok bytes []

/-- Whether no bytes are left. -/
def atEnd : Reader Bool := fun bytes => .ok bytes.isEmpty bytes

/-- One byte. -/
def byte : Reader UInt8
  | [] => .error .insufficientData []
  | b :: tail => .ok b tail

/-- A number in two bytes, most significant first. -/
def twoBytes : Reader UInt16 := do
  return UInt16.ofNat (Bytes.toNat (← take 2))

/-- A number in four bytes, most significant first. -/
def fourBytes : Reader UInt32 := do
  return UInt32.ofNat (Bytes.toNat (← take 4))

/-- A variable byte integer; on failure nothing is taken. -/
def varInt : Reader Nat := fun bytes =>
  match VarInt.read bytes with
  | .ok (n, tail) => .ok n tail
  | .error e => .error e bytes

/-- Bytes preceded by their number in two bytes. -/
def binary : Reader Bytes := do
  let n ← twoBytes
  take n.toNat

/-- A text preceded by its length in two bytes, without the character U+0000. -/
def text : Reader String := do
  let bytes ← binary
  match bytes.text? with
  | none => throw .invalidUtf8
  | some s => if bytes.contains 0 then throw (.malformedPacket .nullCharacter) else return s

/-! ### What a reader takes -/

/-- On success `m` leaves at least `n` bytes fewer than it was given. -/
def Shortens (n : Nat) (m : Reader α) : Prop :=
  ∀ ⦃bytes a tail⦄, m bytes = .ok a tail → tail.length + n ≤ bytes.length

theorem Shortens.mono {m : Reader α} {n k : Nat} (h : Shortens n m) (hk : k ≤ n) :
    Shortens k m := fun _ _ _ e => Nat.le_trans (Nat.add_le_add_left hk _) (h e)

theorem pure_shortens (a : α) : Shortens 0 (pure a : Reader α) := by
  intro bytes b tail h
  simp only [pure, EStateM.pure, EStateM.Result.ok.injEq] at h
  simp [h.2]

theorem throw_shortens (e : DecodeError) (n : Nat) : Shortens n (throw e : Reader α) := by
  intro bytes b tail h
  cases h

theorem bind_shortens {m : Reader α} {f : α → Reader β} {n k : Nat}
    (hm : Shortens n m) (hf : ∀ a, Shortens k (f a)) : Shortens (n + k) (m >>= f) := by
  intro bytes b tail h
  simp only [bind, EStateM.bind] at h
  split at h
  · rename_i a mid hmid
    have h₁ := hm hmid
    have h₂ := hf a h
    omega
  · cases h

theorem map_shortens {m : Reader α} {f : α → β} {n : Nat} (hm : Shortens n m) :
    Shortens n (m >>= fun a => pure (f a)) :=
  bind_shortens hm fun a => pure_shortens (f a)

theorem take_shortens (n : Nat) : Shortens n (take n) := by
  intro bytes a tail h
  simp only [take] at h
  split at h
  · cases h
  · rename_i hn
    cases h
    simp only [List.length_take, List.length_drop] at hn ⊢
    omega

theorem byte_shortens : Shortens 1 byte := by
  intro bytes a tail h
  cases bytes with
  | nil => simp [byte] at h
  | cons b bs => simp only [byte, EStateM.Result.ok.injEq] at h; simp [h.2]

theorem twoBytes_shortens : Shortens 2 twoBytes := map_shortens (take_shortens 2)

theorem fourBytes_shortens : Shortens 4 fourBytes := map_shortens (take_shortens 4)

theorem varInt_shortens : Shortens 1 varInt := by
  intro bytes a tail h
  simp only [varInt] at h
  split at h
  · rename_i n tail' h'
    cases h
    exact VarInt.length_of_read h'
  · cases h

theorem binary_shortens : Shortens 2 binary :=
  bind_shortens twoBytes_shortens fun n => (take_shortens n.toNat).mono (Nat.zero_le _)

theorem text_shortens : Shortens 2 text := by
  refine bind_shortens (n := 2) (k := 0) binary_shortens fun bytes => ?_
  split
  · exact throw_shortens _ _
  · split
    · exact throw_shortens _ _
    · exact pure_shortens _

end Reader

end TopicBridge.Mqtt
