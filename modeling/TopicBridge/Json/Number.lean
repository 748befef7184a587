/-
**JSON numbers.**

A number is kept as it is written: a sign, the digits before and behind the point, and an exponent.
What it is worth is computed on demand, as an integer or as a floating-point number.

Main definitions:

* `TopicBridge.Json.Number` — a number as it is written;
* `Number.significand` — its first digits as a number of 64 bits, and the power of ten behind it;
* `Number.toInt?` — its value, if it is written as an integer of 64 bits;
* `Number.toFloat?` — its value as a floating-point number, unless that is out of range.
-/

set_option autoImplicit false

namespace TopicBridge.Json

/-- A number as it is written. -/
structure Number where
  negative : Bool
  /-- The digits before the point. -/
  whole : List Nat
  /-- The digits behind the point, if there is one. -/
  fraction : Option (List Nat)
  exponent : Option Int
  deriving DecidableEq, Repr

namespace Number

/-! ### Significand and scale -/

/-- The largest number of 64 bits. -/
def maxWord : Nat := 18446744073709551615

/-- Appends digits to a number of 64 bits, up to the first that it has no room for; the second
part are the digits that are left. -/
def absorb (n : Nat) : List Nat → Nat × List Nat
  | [] => (n, [])
  | d :: ds => if 10 * n + d > maxWord then (n, d :: ds) else absorb (10 * n + d) ds

/-- The leading digits as a number of 64 bits, and the power of ten that it is scaled by.  Digits
that it has no room for count as zeros before the point and are dropped behind it. -/
def significand (x : Number) : Nat × Int :=
  let (n, dropped) := absorb 0 x.whole
  let digits := x.fraction.getD []
  let (n, unused) := absorb n digits
  (n, (dropped.length : Int) - ((digits.length - unused.length : Nat) : Int))

/-! ### Integers -/

/-- The value of a number that is written as an integer and has room in 64 bits, with a sign if it
is negative.  A zero with a sign is not an integer. -/
def toInt? (x : Number) : Option Int :=
  if x.fraction.isSome ∨ x.exponent.isSome then none
  else
    match absorb 0 x.whole with
    | (n, []) =>
      if ¬ x.negative then some n
      else if 0 < n ∧ n ≤ UInt64.size / 2 then some (-(n : Int))
      else none
    | _ => none

/-! ### Floating point -/

/-- The floating-point number nearest to a power of ten up to `10 ^ 308`. -/
def powerOfTen (e : Nat) : Float := Float.ofScientific 1 false e

/-- `f` times a power of ten, unless it is out of range. -/
def scaleUp? (f : Float) (e : Nat) : Option Float :=
  if e ≤ 308 then
    let g := f * powerOfTen e
    if g.isInf then none else some g
  else if f == 0 then some f
  else none

/-- `f` divided by a power of ten, at most `10 ^ 308` at a time. -/
def scaleDown (f : Float) (e : Nat) : Float :=
  if e ≤ 308 then f / powerOfTen e
  else if f == 0 then f
  else scaleDown (f / powerOfTen 308) (e - 308)
termination_by e
decreasing_by omega

/-- The largest exponent that is computed with. -/
def maxExponent : Nat := 2147483647

/-- The size of a number without its sign: the significand is rounded once, and scaling it by the
power of ten rounds again. -/
def magnitude? (x : Number) : Option Float :=
  let (n, scale) := x.significand
  let e := x.exponent.getD 0
  if e.natAbs > maxExponent then
    if n ≠ 0 ∧ 0 < e then none else some 0
  else
    match scale + e with
    | .ofNat up => scaleUp? (UInt64.ofNat n).toFloat up
    | .negSucc down => some (scaleDown (UInt64.ofNat n).toFloat (down + 1))

/-- The value of a number, unless it is out of range. -/
def toFloat? (x : Number) : Option Float :=
  x.magnitude?.map fun f => if x.negative then -f else f

end Number

end TopicBridge.Json
