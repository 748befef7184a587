/-
**The tokens of a JSON text.**

Main definitions:

* `TopicBridge.Json.Token` — brackets, separators and simple values;
* `Json.tokens?` — the tokens of a text, unless some characters are none.

Main results:

* `Json.length_of_readToken` — a token takes at least one character.
-/

import TopicBridge.Json.Value

set_option autoImplicit false

namespace TopicBridge.Json

/-- A token. -/
inductive Token where
  | openArray
  | closeArray
  | openObject
  | closeObject
  | comma
  | colon
  | null
  | bool (b : Bool)
  | number (n : Number)
  | string (s : Option String)
  deriving Repr

/-! ### Numbers -/

/-- A decimal digit. -/
def isDigit (c : Char) : Bool := '0' ≤ c && c ≤ '9'

/-- The value of a decimal digit. -/
def digitValue (c : Char) : Nat := c.toNat - 48

/-- The digits at the front, and what follows them. -/
def spanDigits (cs : List Char) : List Nat × List Char :=
  ((cs.takeWhile isDigit).map digitValue, cs.dropWhile isDigit)

/-- At least one digit at the front, and what follows. -/
def readDigits (cs : List Char) : Option (List Nat × List Char) :=
  match spanDigits cs with
  | ([], _) => none
  | found => some found

/-- The digits before the point: a single zero, or digits that do not begin with one. -/
def readWhole (cs : List Char) : Option (List Nat × List Char) :=
  match readDigits cs with
  | some (0 :: _ :: _, _) => none
  | found => found

/-- The digits behind the point, if there is one. -/
def readFraction : List Char → Option (Option (List Nat) × List Char)
  | '.' :: cs => (readDigits cs).map fun (ds, rest) => (some ds, rest)
  | cs => some (none, cs)

/-- The number that digits spell. -/
def digitsValue (ds : List Nat) : Nat := ds.foldl (fun n d => 10 * n + d) 0

/-- The digits of an exponent. -/
def readExponentDigits (negative : Bool) (cs : List Char) : Option (Option Int × List Char) :=
  (readDigits cs).map fun (ds, rest) =>
    (some (if negative then -(digitsValue ds : Int) else digitsValue ds), rest)

/-- The exponent behind the letter. -/
def readExponentBody : List Char → Option (Option Int × List Char)
  | '+' :: cs => readExponentDigits false cs
  | '-' :: cs => readExponentDigits true cs
  | cs => readExponentDigits false cs

/-- The exponent, if there is one. -/
def readExponent : List Char → Option (Option Int × List Char)
  | 'e' :: cs => readExponentBody cs
  | 'E' :: cs => readExponentBody cs
  | cs => some (none, cs)

/-- A number without its sign. -/
def readUnsigned (negative : Bool) (cs : List Char) : Option (Token × List Char) := do
  let (whole, cs) ← readWhole cs
  let (fraction, cs) ← readFraction cs
  let (exponent, cs) ← readExponent cs
  return (.number { negative, whole, fraction, exponent }, cs)

/-! ### Texts -/

/-- The value of a hexadecimal digit. -/
def hexValue? (c : Char) : Option Nat :=
  if isDigit c then some (digitValue c)
  else if 'a' ≤ c ∧ c ≤ 'f' then some (c.toNat - 87)
  else if 'A' ≤ c ∧ c ≤ 'F' then some (c.toNat - 55)
  else none

/-- The code that four hexadecimal digits spell. -/
def hexCode? (a b c d : Char) : Option Nat := do
  return 4096 * (← hexValue? a) + 256 * (← hexValue? b) + 16 * (← hexValue? c) + (← hexValue? d)

/-- The character that a letter behind a backslash stands for. -/
def escaped? : Char → Option Nat
  | '"' => some 0x22
  | '\\' => some 0x5C
  | '/' => some 0x2F
  | 'b' => some 0x08
  | 'f' => some 0x0C
  | 'n' => some 0x0A
  | 'r' => some 0x0D
  | 't' => some 0x09
  | _ => none

/-- The codes up to the closing quote, behind those of `seen`, and what follows it. -/
def readCodes (seen : List Nat) : List Char → Option (List Nat × List Char)
  | [] => none
  | '"' :: rest => some (seen.reverse, rest)
  | '\\' :: 'u' :: a :: b :: c :: d :: rest =>
    match hexCode? a b c d with
    | some code => readCodes (code :: seen) rest
    | none => none
  | '\\' :: c :: rest =>
    match escaped? c with
    | some code => readCodes (code :: seen) rest
    | none => none
  | c :: rest => if c.toNat < 0x20 then none else readCodes (c.toNat :: seen) rest

/-- The characters that codes stand for, behind those of `seen`: two halves of a surrogate pair
that follow one another are one character, and a half alone is none. -/
def decodeCodes (seen : List Char) : List Nat → Option String
  | [] => some (String.ofList seen.reverse)
  | high :: codes =>
    if 0xD800 ≤ high ∧ high < 0xDC00 then
      match codes with
      | low :: codes =>
        if 0xDC00 ≤ low ∧ low < 0xE000 then
          decodeCodes (Char.ofNat (0x10000 + 1024 * (high - 0xD800) + (low - 0xDC00)) :: seen) codes
        else none
      | [] => none
    else if 0xDC00 ≤ high ∧ high < 0xE000 then none
    else decodeCodes (Char.ofNat high :: seen) codes

/-! ### Tokens -/

/-- The token at the front, which is not blank, and what follows it. -/
def readToken : List Char → Option (Token × List Char)
  | '[' :: cs => some (.openArray, cs)
  | ']' :: cs => some (.closeArray, cs)
  | '\x7b' :: cs => some (.openObject, cs)
  | '\x7d' :: cs => some (.closeObject, cs)
  | ',' :: cs => some (.comma, cs)
  | ':' :: cs => some (.colon, cs)
  | '"' :: cs => (readCodes [] cs).map fun (codes, rest) => (.string (decodeCodes [] codes), rest)
  | 'n' :: 'u' :: 'l' :: 'l' :: cs => some (.null, cs)
  | 't' :: 'r' :: 'u' :: 'e' :: cs => some (.bool true, cs)
  | 'f' :: 'a' :: 'l' :: 's' :: 'e' :: cs => some (.bool false, cs)
  | '-' :: cs => readUnsigned true cs
  | cs => readUnsigned false cs

/-- Blanks between tokens. -/
def isBlank (c : Char) : Bool := c == ' ' || c == '\n' || c == '\t' || c == '\r'

theorem length_dropWhile_le {α : Type} (p : α → Bool) (l : List α) :
    (l.dropWhile p).length ≤ l.length :=
  (List.dropWhile_suffix p).length_le

theorem length_of_readDigits {cs rest : List Char} {ds : List Nat}
    (h : readDigits cs = some (ds, rest)) : rest.length < cs.length := by
  cases cs with
  | nil => simp [readDigits, spanDigits] at h
  | cons c cs =>
    by_cases hc : isDigit c
    · simp [readDigits, spanDigits, hc] at h
      have := length_dropWhile_le isDigit cs
      simp only [← h.2, List.length_cons]
      omega
    · simp [readDigits, spanDigits, hc] at h

theorem length_of_readWhole {cs rest : List Char} {ds : List Nat}
    (h : readWhole cs = some (ds, rest)) : rest.length < cs.length := by
  simp only [readWhole] at h
  split at h
  · cases h
  · exact length_of_readDigits h

theorem length_of_readFraction {cs rest : List Char} {ds : Option (List Nat)}
    (h : readFraction cs = some (ds, rest)) : rest.length ≤ cs.length := by
  unfold readFraction at h
  split at h
  · simp only [Option.map_eq_some_iff, Prod.exists, Prod.mk.injEq] at h
    obtain ⟨ds', rest', h, -, rfl⟩ := h
    have := length_of_readDigits h
    simp only [List.length_cons]
    omega
  · cases h; exact Nat.le_refl _

theorem length_of_readExponentDigits {negative : Bool} {cs rest : List Char} {e : Option Int}
    (h : readExponentDigits negative cs = some (e, rest)) : rest.length < cs.length := by
  simp only [readExponentDigits, Option.map_eq_some_iff, Prod.exists, Prod.mk.injEq] at h
  obtain ⟨ds, rest', h, -, rfl⟩ := h
  exact length_of_readDigits h

theorem length_of_readExponentBody {cs rest : List Char} {e : Option Int}
    (h : readExponentBody cs = some (e, rest)) : rest.length < cs.length := by
  unfold readExponentBody at h
  split at h
  · exact Nat.lt_succ_of_lt (length_of_readExponentDigits h)
  · exact Nat.lt_succ_of_lt (length_of_readExponentDigits h)
  · exact length_of_readExponentDigits h

theorem length_of_readExponent {cs rest : List Char} {e : Option Int}
    (h : readExponent cs = some (e, rest)) : rest.length ≤ cs.length := by
  unfold readExponent at h
  split at h
  · exact Nat.le_succ_of_le (Nat.le_of_lt (length_of_readExponentBody h))
  · exact Nat.le_succ_of_le (Nat.le_of_lt (length_of_readExponentBody h))
  · cases h; exact Nat.le_refl _

theorem length_of_readUnsigned {negative : Bool} {cs rest : List Char} {t : Token}
    (h : readUnsigned negative cs = some (t, rest)) : rest.length < cs.length := by
  simp only [readUnsigned, Option.bind_eq_bind, Option.bind_eq_some_iff, Prod.exists,
    Option.pure_def, Option.some.injEq, Prod.mk.injEq] at h
  obtain ⟨_, _, h₁, _, _, h₂, _, _, h₃, -, rfl⟩ := h
  have := length_of_readWhole h₁
  have := length_of_readFraction h₂
  have := length_of_readExponent h₃
  omega

theorem length_of_readCodes {seen codes : List Nat} {cs rest : List Char}
    (h : readCodes seen cs = some (codes, rest)) : rest.length < cs.length := by
  fun_induction readCodes seen cs <;> simp_all <;> omega

/-- A token takes at least one character. -/
theorem length_of_readToken {cs rest : List Char} {t : Token}
    (h : readToken cs = some (t, rest)) : rest.length < cs.length := by
  unfold readToken at h
  split at h
  case h_7 =>
    simp only [Option.map_eq_some_iff, Prod.exists, Prod.mk.injEq] at h
    obtain ⟨codes, rest', h, -, rfl⟩ := h
    exact Nat.lt_succ_of_lt (length_of_readCodes h)
  case h_11 => exact Nat.lt_succ_of_lt (length_of_readUnsigned h)
  case h_12 => exact length_of_readUnsigned h
  all_goals
    cases h
    simp only [List.length_cons]
    omega

/-- The tokens of `cs` behind those of `seen`. -/
def tokensFrom (seen : List Token) (cs : List Char) : Option (List Token) :=
  match cs with
  | [] => some seen.reverse
  | c :: cs' =>
    if isBlank c then tokensFrom seen cs'
    else
      match _h : readToken (c :: cs') with
      | some (token, rest) => tokensFrom (token :: seen) rest
      | none => none
termination_by cs.length
decreasing_by
  · simp
  · exact length_of_readToken (by assumption)

/-- The tokens of a text. -/
def tokens? (s : String) : Option (List Token) := tokensFrom [] s.toList

end TopicBridge.Json
