/-
**Binary data as text.**

Six bits are written as one of 64 characters, and up to two padding characters fill a last group of
four.  Blanks are skipped, and the padding may be left out.

Padding has its place at the end of the last group.  A text is looked through in blocks of two
groups: padding is premature in a block that another one follows, and in the first group of the last
block if a second one follows.  Elsewhere in the last group it is badly placed, and so is a group that
no bytes fill.  A character that stands for nothing is found first, unless a whole block with
padding and one more character stand before it.

Main definitions:

* `TopicBridge.Tls.Base64.Error` — why a text carries no data;
* `Base64.Symbol` — what a character stands for;
* `Base64.lastBlock`, `Base64.lastGroup` — the end of a text, where padding may stand;
* `Base64.decode` — the data that a text carries.
-/

import TopicBridge.Bytes

set_option autoImplicit false

namespace TopicBridge.Tls.Base64

/-- Why a text carries no data. -/
inductive Error where
  /-- A character that stands for nothing. -/
  | invalidCharacter (byte : UInt8)
  /-- Padding in front of the last group. -/
  | prematurePadding
  /-- A last group that is no whole number of bytes, or with padding in the wrong places. -/
  | invalidTrailingPadding
  deriving DecidableEq, Repr

/-- The name of an error. -/
def Error.text : Error → String
  | invalidCharacter byte => s!"InvalidCharacter({byte.toNat})"
  | prematurePadding => "PrematurePadding"
  | invalidTrailingPadding => "InvalidTrailingPadding"

/-- What a character that counts stands for. -/
inductive Symbol where
  | bits (value : Nat)
  | padding
  deriving DecidableEq, Repr

namespace Symbol

/-- Whether a character is padding. -/
def isPadding (x : Symbol) : Bool := x = padding

/-- The bits that a character stands for. -/
def value? : Symbol → Option Nat
  | bits value => some value
  | padding => none

end Symbol

/-- Whether a character is skipped. -/
def isBlank (b : UInt8) : Bool := (9 ≤ b.toNat && b.toNat ≤ 13) || b = 32

/-- What a character stands for. -/
def symbol? (b : UInt8) : Option Symbol :=
  let n := b.toNat
  if 65 ≤ n ∧ n ≤ 90 then some (.bits (n - 65))
  else if 97 ≤ n ∧ n ≤ 122 then some (.bits (n - 71))
  else if 48 ≤ n ∧ n ≤ 57 then some (.bits (n + 4))
  else if n = 43 then some (.bits 62)
  else if n = 47 then some (.bits 63)
  else if n = 61 then some .padding
  else none

/-! ### Blocks and groups -/

/-- What the characters stand for up to the first that stands for nothing, and that one; `seen` is
what stands in front of them, latest first. -/
def scan (seen : List Symbol) : Bytes → List Symbol × Option UInt8
  | [] => (seen.reverse, none)
  | b :: rest =>
    if isBlank b then scan seen rest
    else
      match symbol? b with
      | some x => scan (x :: seen) rest
      | none => (seen.reverse, some b)

/-- The last block, of at most eight, if there is no padding in those before it. -/
def lastBlock (xs : List Symbol) : Except Error (List Symbol) :=
  if _h : xs.length ≤ 8 then .ok xs
  else if (xs.take 8).any Symbol.isPadding then .error .prematurePadding
  else lastBlock (xs.drop 8)
termination_by xs.length
decreasing_by
  rw [List.length_drop]
  omega

/-- The last group of a block, if there is no padding in front of it. -/
def lastGroup (block : List Symbol) : Except Error (List Symbol) :=
  if block.length ≤ 4 then .ok block
  else if (block.take 4).any Symbol.isPadding then .error .prematurePadding
  else .ok (block.drop 4)

/-- Whether the last group is a whole number of bytes, with or without padding. -/
def isGroup (group : List Symbol) : Bool :=
  match group.map Symbol.isPadding with
  | [] | [false, false] | [false, false, false] => true
  | [false, false, _, true] | [false, false, false, false] => true
  | _ => false

/-! ### Data -/

/-- The bytes behind those of `seen`, latest first, that groups of four values stand for. -/
def groups (seen : Bytes) : List Nat → Bytes
  | a :: b :: c :: d :: rest =>
    groups ((64 * c + d).toUInt8 :: (16 * b + c / 4).toUInt8 :: (4 * a + b / 16).toUInt8 :: seen) rest
  | [a, b, c] => ((16 * b + c / 4).toUInt8 :: (4 * a + b / 16).toUInt8 :: seen).reverse
  | [a, b] => ((4 * a + b / 16).toUInt8 :: seen).reverse
  | _ => seen.reverse

/-- The data that a text carries. -/
def decode (text : Bytes) : Except Error Bytes := do
  let (symbols, invalid?) := scan [] text
  let block ← lastBlock symbols
  if let some b := invalid? then throw (.invalidCharacter b)
  let group ← lastGroup block
  if ¬ isGroup group then throw .invalidTrailingPadding
  return groups [] (symbols.filterMap Symbol.value?)

end TopicBridge.Tls.Base64
