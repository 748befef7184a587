/-
**Numbers from texts.**

Main definitions:

* `TopicBridge.Decimal.natOf?`, `Decimal.intOf?` — an integer, perhaps with a sign;
* `Decimal.floatOf?` — a floating-point number: the nearest to a decimal, or one of the names of
  infinity and of no number.
-/

set_option autoImplicit false

namespace TopicBridge.Decimal

/-- A decimal digit. -/
def isDigit (c : Char) : Bool := '0' ≤ c && c ≤ '9'

/-- The number that digits spell. -/
def digitsValue (ds : List Char) : Nat := ds.foldl (fun n c => 10 * n + (c.toNat - 48)) 0

/-- A number of digits alone. -/
def digitsOf? (cs : List Char) : Option Nat :=
  if cs.isEmpty ∨ ¬ cs.all isDigit then none else some (digitsValue cs)

/-- A number without a sign below a bound; a plus may stand in front of it. -/
def natOf? (bound : Nat) (s : String) : Option Nat :=
  let digits := match s.toList with
    | '+' :: cs => cs
    | cs => cs
  (digitsOf? digits).filter (· < bound)

/-- An integer with at most 64 bits; a sign may stand in front of it. -/
def intOf? (s : String) : Option Int :=
  match s.toList with
  | '-' :: cs => ((digitsOf? cs).filter (· ≤ UInt64.size / 2)).map fun n => -(n : Int)
  | '+' :: cs => ((digitsOf? cs).filter (· < UInt64.size / 2)).map fun n => (n : Int)
  | cs => ((digitsOf? cs).filter (· < UInt64.size / 2)).map fun n => (n : Int)

/-! ### Floating point -/

/-- The number nearest to `value * 10 ^ exponent`. -/
def nearest (value : Nat) (exponent : Int) : Float :=
  let size := (Nat.toDigits 10 value).length
  if value = 0 then 0
  else if exponent + size > 400 then Float.ofScientific 1 false 400
  else if exponent + size < -400 then 0
  else
    match exponent with
    | .ofNat e => Float.ofScientific value false e
    | .negSucc e => Float.ofScientific value true (e + 1)

/-- An exponent: a sign and digits. -/
def exponentOf? : List Char → Option Int
  | '-' :: cs => (digitsOf? cs).map fun n => -(n : Int)
  | '+' :: cs => (digitsOf? cs).map fun n => (n : Int)
  | cs => (digitsOf? cs).map fun n => (n : Int)

/-- A decimal without a sign: digits, of which a point may stand between any two or at either end,
and an exponent. -/
def unsignedOf? (cs : List Char) : Option Float := do
  let whole := cs.takeWhile isDigit
  let rest := cs.dropWhile isDigit
  let (fraction, rest) := match rest with
    | '.' :: more => (more.takeWhile isDigit, more.dropWhile isDigit)
    | _ => ([], rest)
  if whole.isEmpty ∧ fraction.isEmpty then none
  let exponent ← match rest with
    | [] => some 0
    | 'e' :: more => exponentOf? more
    | 'E' :: more => exponentOf? more
    | _ => none
  return nearest (digitsValue (whole ++ fraction)) (exponent - fraction.length)

/-- A name or a decimal without a sign. -/
def magnitudeOf? (cs : List Char) : Option Float :=
  let name := String.ofList (cs.map Char.toLower)
  if name = "inf" ∨ name = "infinity" then some (Float.ofScientific 1 false 400)
  else if name = "nan" then some (0 / 0)
  else unsignedOf? cs

/-- The floating-point number that a text is; a sign may stand in front of it. -/
def floatOf? (s : String) : Option Float :=
  match s.toList with
  | '-' :: cs => (magnitudeOf? cs).map fun f => -f
  | '+' :: cs => magnitudeOf? cs
  | cs => magnitudeOf? cs

end TopicBridge.Decimal
