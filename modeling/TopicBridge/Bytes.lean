/-
**Byte strings.**

What travels on a connection is a finite sequence of bytes, written `Bytes`.  This module holds the
two ways in which a byte string carries something else: a number with its most significant byte
first, and a text in UTF-8.

Main definitions:

* `TopicBridge.Bytes` — a finite sequence of bytes;
* `Bytes.ofUInt16`, `Bytes.ofUInt32` — a number, most significant byte first;
* `Bytes.toNat` — the number that a byte string spells in base 256;
* `Bytes.ofString`, `Bytes.text?` — the UTF-8 form of a text, and the text of a byte string.

Main results:

* `Bytes.text?_ofString` — a text is read back from its own bytes;
* `Bytes.ofString_of_text?` — a byte string that reads as a text is that text's UTF-8 form;
* `Bytes.toNat_ofUInt16`, `Bytes.toNat_ofUInt32` — a number is read back from its bytes.
-/

set_option autoImplicit false

namespace TopicBridge

/-- A finite sequence of bytes. -/
abbrev Bytes := List UInt8

namespace Bytes

/-! ### Numbers -/

/-- The two bytes of a number below `2 ^ 16`, most significant first. -/
def ofUInt16 (n : UInt16) : Bytes := [(n >>> 8).toUInt8, n.toUInt8]

/-- The four bytes of a number below `2 ^ 32`, most significant first. -/
def ofUInt32 (n : UInt32) : Bytes :=
  [(n >>> 24).toUInt8, (n >>> 16).toUInt8, (n >>> 8).toUInt8, n.toUInt8]

/-- The number that `bytes` spell in base 256, most significant digit first. -/
def toNat (bytes : Bytes) : Nat := bytes.foldl (fun n b => 256 * n + b.toNat) 0

@[simp] theorem length_ofUInt16 (n : UInt16) : (ofUInt16 n).length = 2 := rfl

@[simp] theorem length_ofUInt32 (n : UInt32) : (ofUInt32 n).length = 4 := rfl

theorem toNat_ofUInt16 (n : UInt16) : toNat (ofUInt16 n) = n.toNat := by
  have h := n.toNat_lt
  simp [toNat, ofUInt16, Nat.shiftRight_eq_div_pow]
  omega

theorem toNat_ofUInt32 (n : UInt32) : toNat (ofUInt32 n) = n.toNat := by
  have h := n.toNat_lt
  simp [toNat, ofUInt32, Nat.shiftRight_eq_div_pow]
  omega

/-! ### Texts -/

/-- The UTF-8 form of a text. -/
def ofString (s : String) : Bytes := s.toUTF8.data.toList

/-- The text whose UTF-8 form `bytes` are; `none` if they are not well-formed UTF-8. -/
def text? (bytes : Bytes) : Option String := String.fromUTF8? ⟨bytes.toArray⟩

theorem length_ofString (s : String) : (ofString s).length = s.utf8ByteSize := rfl

@[simp] theorem text?_ofString (s : String) : text? (ofString s) = some s := by
  have h : (⟨(ofString s).toArray⟩ : ByteArray) = s.toByteArray := by simp [ofString]
  have hv : s.toByteArray.IsValidUTF8 := s.isValidUTF8
  simp [text?, h, String.fromUTF8?, hv, String.fromUTF8]

theorem ofString_of_text? {bytes : Bytes} {s : String} (h : text? bytes = some s) :
    ofString s = bytes := by
  simp only [text?, String.fromUTF8?] at h
  split at h
  · cases h
    simp [ofString, String.fromUTF8]
  · cases h

end Bytes

end TopicBridge
