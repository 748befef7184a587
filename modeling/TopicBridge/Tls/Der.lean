/-
**The outer shape of certificates and keys.**

A certificate or a key is a tree of elements: a tag, a length and a content.  Only the outermost
levels are looked at here; whether the numbers in them make sense is a matter of cryptography.

Main definitions:

* `TopicBridge.Tls.Der.tags?` — the tags of the elements that a byte string consists of;
* `Der.isCertificate`, `Der.isKey` — whether data has the shape of a certificate or a key.
-/

import TopicBridge.Tls.Pem

set_option autoImplicit false

namespace TopicBridge.Tls.Der

/-- An element. -/
structure Element where
  tag : UInt8
  content : Bytes
  deriving DecidableEq, Repr

/-- The length at the front, and what follows it: one byte below 128, or the number of the bytes
that hold it. -/
def readLength : Bytes → Option (Nat × Bytes)
  | [] => none
  | b :: rest =>
    if b < 128 then some (b.toNat, rest)
    else
      let size := b.toNat - 128
      if size = 0 ∨ size > 4 ∨ rest.length < size then none
      else some (Bytes.toNat (rest.take size), rest.drop size)

/-- The element at the front, and what follows it. -/
def readElement : Bytes → Option (Element × Bytes)
  | [] => none
  | tag :: rest =>
    match readLength rest with
    | none => none
    | some (length, rest) =>
      if rest.length < length then none else some (⟨tag, rest.take length⟩, rest.drop length)

/-- The tags of at most `limit` elements that a byte string consists of. -/
def tagsUpTo : (limit : Nat) → Bytes → Option (List UInt8)
  | _, [] => some []
  | 0, _ => none
  | limit + 1, bytes =>
    match readElement bytes with
    | none => none
    | some (element, rest) => (tagsUpTo limit rest).map (element.tag :: ·)

/-- The tags of the elements in a sequence that `data` consists of. -/
def tags? (data : Bytes) : Option (List UInt8) :=
  match readElement data with
  | some (⟨0x30, content⟩, []) => tagsUpTo content.length content
  | _ => none

/-- A certificate is a sequence of two sequences and a bit string. -/
def isCertificate (data : Bytes) : Bool := tags? data = some [0x30, 0x30, 0x03]

/-- A key begins with a version; then come its kind and its data, its data alone, or its numbers.
The label of a key on a curve stands over both of the first two. -/
def isKey (label : Pem.Label) (data : Bytes) : Bool :=
  match label, tags? data with
  | .privateKey, some (0x02 :: 0x30 :: 0x04 :: _) => true
  | .ecPrivateKey, some (0x02 :: 0x30 :: 0x04 :: _) => true
  | .ecPrivateKey, some (0x02 :: 0x04 :: _) => true
  | .rsaPrivateKey, some tags => tags.length ≥ 9 && tags.all (· = 0x02)
  | _, _ => false

end TopicBridge.Tls.Der
