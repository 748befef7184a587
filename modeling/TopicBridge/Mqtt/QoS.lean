/-
**Quality of service and reason codes.**

Main definitions:

* `TopicBridge.Mqtt.QoS` — how often a message may be delivered;
* `TopicBridge.Mqtt.ReasonCode` — the outcome that a broker reports, a byte;
* `ReasonCode.isSuccess`, `ReasonCode.text` — whether it reports success, and its wording.
-/

import TopicBridge.Bytes

set_option autoImplicit false

namespace TopicBridge.Mqtt

/-! ### Quality of service -/

/-- How often a message is delivered. -/
inductive QoS where
  | atMostOnce
  | atLeastOnce
  | exactlyOnce
  deriving DecidableEq, Repr, Inhabited

namespace QoS

/-- The level as a number: 0, 1 or 2. -/
def toNat : QoS → Nat
  | atMostOnce => 0
  | atLeastOnce => 1
  | exactlyOnce => 2

/-- The level with a given number. -/
def ofNat? : Nat → Option QoS
  | 0 => some atMostOnce
  | 1 => some atLeastOnce
  | 2 => some exactlyOnce
  | _ => none

/-- The level as a byte. -/
def toByte (q : QoS) : UInt8 := q.toNat.toUInt8

instance : LE QoS := ⟨fun a b => a.toNat ≤ b.toNat⟩

instance (a b : QoS) : Decidable (a ≤ b) := inferInstanceAs (Decidable (a.toNat ≤ b.toNat))

/-- The lower of two levels. -/
instance : Min QoS := ⟨fun a b => if a ≤ b then a else b⟩

/-- The higher of two levels. -/
instance : Max QoS := ⟨fun a b => if a ≤ b then b else a⟩

@[simp] theorem ofNat?_toNat (q : QoS) : ofNat? q.toNat = some q := by cases q <;> rfl

theorem le_def (a b : QoS) : a ≤ b ↔ a.toNat ≤ b.toNat := Iff.rfl

theorem le_refl (a : QoS) : a ≤ a := Nat.le_refl a.toNat

theorem le_trans {a b c : QoS} (h : a ≤ b) (h' : b ≤ c) : a ≤ c := Nat.le_trans h h'

theorem max_eq (a b : QoS) : max a b = if a ≤ b then b else a := rfl

theorem le_max_left (a b : QoS) : a ≤ max a b := by
  rw [max_eq]
  split
  · assumption
  · exact le_refl a

theorem le_max_right (a b : QoS) : b ≤ max a b := by
  rw [max_eq]
  split
  · exact le_refl b
  · rename_i h
    exact Nat.le_of_not_le h

end QoS

/-! ### Reason codes -/

/-- The outcome of a request as a broker reports it.  Unknown codes are kept. -/
structure ReasonCode where
  /-- The byte on the wire. -/
  code : UInt8
  deriving DecidableEq, Repr, Inhabited

namespace ReasonCode

/-- The request was carried out. -/
def success : ReasonCode := ⟨0x00⟩

/-- The packet identifier of a release is not known. -/
def packetIdNotFound : ReasonCode := ⟨0x92⟩

/-- Codes below `0x80` report success. -/
def isSuccess (r : ReasonCode) : Bool := r.code < 0x80

/-- The name that the standard gives to a code. -/
def name? (r : ReasonCode) : Option String :=
  match r.code with
  | 0x00 => some "success"
  | 0x01 => some "granted QoS 1"
  | 0x02 => some "granted QoS 2"
  | 0x10 => some "no matching subscribers"
  | 0x80 => some "unspecified error"
  | 0x81 => some "malformed packet"
  | 0x82 => some "protocol error"
  | 0x84 => some "unsupported protocol version"
  | 0x85 => some "client identifier not valid"
  | 0x86 => some "bad user name or password"
  | 0x87 => some "not authorized"
  | 0x88 => some "server unavailable"
  | 0x89 => some "server busy"
  | 0x8B => some "server shutting down"
  | 0x8D => some "keep alive timeout"
  | 0x8E => some "session taken over"
  | 0x8F => some "topic filter invalid"
  | 0x90 => some "topic name invalid"
  | 0x92 => some "packet identifier not found"
  | 0x97 => some "quota exceeded"
  | 0x99 => some "payload format invalid"
  | 0x9A => some "retain not supported"
  | 0x9B => some "QoS not supported"
  | 0x9E => some "shared subscriptions not supported"
  | 0xA2 => some "wildcard subscriptions not supported"
  | _ => none

/-- A byte as two hexadecimal digits in upper case. -/
def hexByte (b : UInt8) : String :=
  String.ofList ((Nat.toDigits 16 (b.toNat / 16) ++ Nat.toDigits 16 (b.toNat % 16)).map Char.toUpper)

/-- The wording of a code: its name, if it has one, and its number. -/
def text (r : ReasonCode) : String :=
  match r.name? with
  | some name => s!"{name} (0x{hexByte r.code})"
  | none => s!"0x{hexByte r.code}"

@[simp] theorem isSuccess_success : success.isSuccess = true := rfl

@[simp] theorem isSuccess_packetIdNotFound : packetIdNotFound.isSuccess = false := rfl

end ReasonCode

end TopicBridge.Mqtt
