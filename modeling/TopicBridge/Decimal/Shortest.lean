/-
**Floating-point numbers as decimal texts.**

A finite number is written with the fewest digits that no other number is nearest to; of several
such decimals the nearest is taken, and of two equally near the one further from zero.  There is no
exponent: zeros fill the places up to the point.

Main definitions:

* `TopicBridge.Decimal.Binary` — a finite positive number as an integer times a power of two;
* `Decimal.shortest` — the digits of a number, as an integer times a power of ten;
* `Decimal.plain` — such a decimal, written out;
* `Decimal.floatText` — the text of any floating-point number.
-/

set_option autoImplicit false

namespace TopicBridge.Decimal

/-- A finite positive number: `significand * 2 ^ exponent`. -/
structure Binary where
  significand : Nat
  exponent : Int
  /-- Whether the next smaller number is only half as far away as the next larger one. -/
  narrowBelow : Bool
  deriving DecidableEq, Repr

namespace Binary

/-- The fraction of a number takes the lowest 52 bits; its values are below this. -/
def fractions : Nat := 0x10000000000000

/-- The number that 63 bits stand for, which is not infinite. -/
def ofBits (bits : Nat) : Binary :=
  let fraction : Nat := bits % fractions
  let biased : Nat := bits / fractions
  if biased = 0 then ⟨fraction, -1074, false⟩
  else ⟨fractions + fraction, (biased : Int) - 1075, fraction = 0 && biased > 1⟩

/-- A fraction with a power of two in it, in lowest powers: numerator and denominator. -/
def scaled (n : Nat) (exponent : Int) : Nat × Nat :=
  match exponent with
  | .ofNat e => (n <<< e, 1)
  | .negSucc e => (n, 1 <<< (e + 1))

/-- The ends of the interval of numbers that are nearest to this one, and the number itself, as
numerators over a common denominator. -/
def interval (b : Binary) : Nat × Nat × Nat × Nat :=
  let (unit, den) := scaled 1 (b.exponent - 2)
  (4 * b.significand * unit - (if b.narrowBelow then unit else 2 * unit), 4 * b.significand * unit,
    4 * b.significand * unit + 2 * unit, den)

end Binary

/-! ### Digits -/

/-- An integer times a power of ten. -/
structure Digits where
  value : Nat
  exponent : Int
  deriving DecidableEq, Repr

/-- A power of ten. -/
def tenTo (k : Nat) : Nat := Nat.pow 10 k

/-- The least `k` with `num < 10 ^ k * den`, counted up from `k`, at most `fuel` more. -/
def placesUp (num den : Nat) : (fuel k : Nat) → Nat
  | 0, k => k
  | fuel + 1, k => if num < tenTo k * den then k else placesUp num den fuel (k + 1)

/-- The largest `k` with `10 ^ k * num < den`, counted up from `k`, at most `fuel` more. -/
def placesDown (num den : Nat) : (fuel k : Nat) → Nat
  | 0, k => k
  | fuel + 1, k => if tenTo (k + 1) * num < den then placesDown num den fuel (k + 1) else k

/-- The number of places before the point, negative for zeros behind it. -/
def places (num den : Nat) : Int :=
  if den ≤ num then placesUp num den 400 1 else -(placesDown num den 400 0 : Int)

/-- Numerator and denominator of a fraction divided by a power of ten. -/
def shift (num den : Nat) : Int → Nat × Nat
  | .ofNat e => (num, den * tenTo e)
  | .negSucc e => (num * tenTo (e + 1), den)

/-- A decimal on the grid of `10 ^ exponent` in the interval between `low` and `high`, the nearest
to `num` and of two equally near the larger, if there is one.  All are numerators over `den`. -/
def onGrid (low num high den : Nat) (isClosed : Bool) (exponent : Int) : Option Digits :=
  let (n, d) := shift num den exponent
  let inside (value : Nat) : Bool :=
    let (l, _) := shift low den exponent
    let (h, _) := shift high den exponent
    if isClosed then l ≤ value * d && value * d ≤ h else l < value * d && value * d < h
  let below := n / d
  let above := below + 1
  let first := if 2 * (n % d) < d then below else above
  let second := if 2 * (n % d) < d then above else below
  if inside first && first ≠ 0 then some ⟨first, exponent⟩
  else if inside second then some ⟨second, exponent⟩
  else none

/-- A decimal without zeros at its end. -/
def stripZeros : (fuel : Nat) → Digits → Digits
  | 0, x => x
  | fuel + 1, x => if x.value % 10 = 0 then stripZeros fuel ⟨x.value / 10, x.exponent + 1⟩ else x

/-- The shortest decimal that stands for a number. -/
def shortest (b : Binary) : Digits :=
  let (low, num, high, den) := b.interval
  let k := places num den
  let found := (List.range 17).findSome? fun n =>
    onGrid low num high den (b.significand % 2 = 0) (k - (n + 1 : Nat))
  stripZeros 20 (found.getD ⟨0, 0⟩)

/-! ### Texts -/

/-- A decimal, written out without an exponent. -/
def plain (x : Digits) : String :=
  let digits := Nat.toDigits 10 x.value
  match x.exponent with
  | .ofNat e => String.ofList (digits ++ List.replicate e '0')
  | .negSucc e =>
    let behind := e + 1
    let padded := List.replicate (behind + 1 - digits.length) '0' ++ digits
    String.ofList (padded.take (padded.length - behind) ++ '.' :: padded.drop (padded.length - behind))

/-- The text of a floating-point number. -/
def floatText (f : Float) : String :=
  let bits := f.toBits.toNat
  let sign := if bits < UInt64.size / 2 then "" else "-"
  let size := bits % (UInt64.size / 2)
  if size > 2047 * Binary.fractions then "NaN"
  else if size = 2047 * Binary.fractions then sign ++ "inf"
  else if size = 0 then sign ++ "0"
  else sign ++ plain (shortest (.ofBits size))

end TopicBridge.Decimal
