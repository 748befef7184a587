/-
**Addresses.**

Numeric addresses of hosts in both versions of the protocol, and the address of a socket, which is
that of a host with a port.

Main definitions:

* `TopicBridge.Net.IPv4`, `Net.IPv6`, `Net.SocketAddress` — addresses;
* `IPv4.parse?`, `IPv6.parse?`, `SocketAddress.parse?` — the address that a text is;
* `IPv4.text`, `IPv6.text`, `SocketAddress.text` — how it is written: an address of version 6 has
  its longest run of two or more zero groups left out, the first of several.
-/

set_option autoImplicit false

namespace TopicBridge.Net

/-- An address of version 4: four bytes. -/
structure IPv4 where
  a : UInt8
  b : UInt8
  c : UInt8
  d : UInt8
  deriving DecidableEq, Repr

/-- An address of version 6: eight groups of two bytes. -/
structure IPv6 where
  groups : List UInt16
  deriving DecidableEq, Repr

/-- The address of a socket. -/
inductive SocketAddress where
  | v4 (host : IPv4) (port : UInt16)
  | v6 (host : IPv6) (scope : UInt32) (port : UInt16)
  deriving DecidableEq, Repr

/-! ### Numbers and separators -/

/-- The value of a digit in a base of at most sixteen. -/
def digit? (base : Nat) (c : Char) : Option Nat :=
  let value :=
    if '0' ≤ c ∧ c ≤ '9' then some (c.toNat - 48)
    else if 'a' ≤ c ∧ c ≤ 'f' then some (c.toNat - 87)
    else if 'A' ≤ c ∧ c ≤ 'F' then some (c.toNat - 55)
    else none
  value.filter (· < base)

/-- A number at the front, with at most `maxDigits` digits and below `bound`, and what follows. -/
def readNumber (base : Nat) (maxDigits : Option Nat) (bound : Nat) (cs : List Char) :
    Option (Nat × List Char) :=
  let digits := cs.takeWhile fun c => (digit? base c).isSome
  let value := digits.foldl (fun n c => base * n + (digit? base c).getD 0) 0
  if digits.isEmpty ∨ maxDigits.any (· < digits.length) ∨ bound ≤ value then none
  else some (value, cs.drop digits.length)

/-- A byte in decimal digits, without a zero in front of others. -/
def readByte (cs : List Char) : Option (UInt8 × List Char) :=
  match cs with
  | '0' :: c :: _ => if (digit? 10 c).isSome then none else step
  | _ => step
where
  /-- The number alone. -/
  step := (readNumber 10 (some 3) 256 cs).map fun (n, rest) => (UInt8.ofNat n, rest)

/-- A given character at the front. -/
def readChar (c : Char) : List Char → Option (List Char)
  | [] => none
  | x :: rest => if x = c then some rest else none

/-! ### Version 4 -/

namespace IPv4

/-- The address at the front, and what follows it. -/
def read (cs : List Char) : Option (IPv4 × List Char) := do
  let (a, cs) ← readByte cs
  let (b, cs) ← readByte (← readChar '.' cs)
  let (c, cs) ← readByte (← readChar '.' cs)
  let (d, cs) ← readByte (← readChar '.' cs)
  return (⟨a, b, c, d⟩, cs)

/-- The address that a text is. -/
def parse? (s : String) : Option IPv4 :=
  match read s.toList with
  | some (ip, []) => some ip
  | _ => none

/-- Four decimal numbers with dots between them. -/
def text (ip : IPv4) : String := s!"{ip.a.toNat}.{ip.b.toNat}.{ip.c.toNat}.{ip.d.toNat}"

/-- The two groups that stand for the address in one of version 6. -/
def groups (ip : IPv4) : List UInt16 :=
  [256 * ip.a.toUInt16 + ip.b.toUInt16, 256 * ip.c.toUInt16 + ip.d.toUInt16]

/-- The address that two groups stand for. -/
def ofGroups (g h : UInt16) : IPv4 :=
  ⟨(g >>> 8).toUInt8, g.toUInt8, (h >>> 8).toUInt8, h.toUInt8⟩

end IPv4

/-! ### Version 6 -/

namespace IPv6

/-- Up to `limit` groups with colons between them; the last two may be written as an address of
version 4.  The flag tells whether they are. -/
def readGroups : (limit : Nat) → (isFirst : Bool) → List Char → List UInt16 × Bool × List Char
  | 0, _, cs => ([], false, cs)
  | limit + 1, isFirst, cs =>
    let start := if isFirst then some cs else readChar ':' cs
    match (start.filter fun _ => limit ≠ 0).bind IPv4.read with
    | some (ip, rest) => (ip.groups, true, rest)
    | none =>
      match start.bind (readNumber 16 (some 4) 65536) with
      | some (g, rest) =>
        let (gs, isV4, rest) := readGroups limit false rest
        (UInt16.ofNat g :: gs, isV4, rest)
      | none => ([], false, cs)

/-- The address at the front, and what follows it.  Two colons stand for one or more groups of
zeros. -/
def read (cs : List Char) : Option (IPv6 × List Char) :=
  match readGroups 8 true cs with
  | (head, isV4, rest) =>
    if head.length = 8 then some (⟨head⟩, rest)
    else if isV4 then none
    else
      match (readChar ':' rest).bind (readChar ':') with
      | none => none
      | some rest =>
        match readGroups (7 - head.length) true rest with
        | (tail, _, rest) =>
          some (⟨head ++ List.replicate (8 - head.length - tail.length) 0 ++ tail⟩, rest)

/-- The address that a text is. -/
def parse? (s : String) : Option IPv6 :=
  match read s.toList with
  | some (ip, []) => some ip
  | _ => none

/-- The start and the length of the longest run of zero groups, the first of several. -/
def longestZeros (groups : List UInt16) : Nat × Nat :=
  (List.range groups.length).foldl
    (fun best start =>
      let length := ((groups.drop start).takeWhile (· = 0)).length
      if length > best.2 then (start, length) else best)
    (0, 0)

/-- Groups in hexadecimal digits, with colons between them. -/
def groupsText (groups : List UInt16) : String :=
  String.intercalate ":" (groups.map fun g => String.ofList (Nat.toDigits 16 g.toNat))

/-- How an address is written. -/
def text (ip : IPv6) : String :=
  match ip.groups with
  | [0, 0, 0, 0, 0, 0xFFFF, g, h] => s!"::ffff:{(IPv4.ofGroups g h).text}"
  | groups =>
    let (start, length) := longestZeros groups
    if length ≤ 1 then groupsText groups
    else s!"{groupsText (groups.take start)}::{groupsText (groups.drop (start + length))}"

end IPv6

/-! ### Sockets -/

namespace SocketAddress

/-- The port behind a colon. -/
def readPort (cs : List Char) : Option (UInt16 × List Char) := do
  let (n, cs) ← readNumber 10 none 65536 (← readChar ':' cs)
  return (UInt16.ofNat n, cs)

/-- The scope behind a percent sign; zero if there is none. -/
def readScope (cs : List Char) : UInt32 × List Char :=
  match (readChar '%' cs).bind (readNumber 10 none 4294967296) with
  | some (n, rest) => (UInt32.ofNat n, rest)
  | none => (0, cs)

/-- A host of version 4 and a port. -/
def readV4 (cs : List Char) : Option (SocketAddress × List Char) := do
  let (host, cs) ← IPv4.read cs
  let (port, cs) ← readPort cs
  return (v4 host port, cs)

/-- A host of version 6 in brackets, perhaps with a scope, and a port. -/
def readV6 (cs : List Char) : Option (SocketAddress × List Char) := do
  let (host, cs) ← IPv6.read (← readChar '[' cs)
  let (scope, cs) := readScope cs
  let (port, cs) ← readPort (← readChar ']' cs)
  return (v6 host scope port, cs)

/-- The address that a text is. -/
def parse? (s : String) : Option SocketAddress :=
  match (readV4 s.toList).or (readV6 s.toList) with
  | some (address, []) => some address
  | _ => none

/-- How an address is written; the scope zero is left out. -/
def text : SocketAddress → String
  | v4 host port => s!"{host.text}:{port.toNat}"
  | v6 host scope port =>
    if scope = 0 then s!"[{host.text}]:{port.toNat}"
    else s!"[{host.text}%{scope.toNat}]:{port.toNat}"

end SocketAddress

end TopicBridge.Net
