/-
**Layers of settings.**

Settings come from a file and from variables, which lie over it.  A key is a path to a value, and
records that meet under one key are joined member by member.

Main definitions:

* `TopicBridge.Setting` — a value in a layer;
* `Setting.overlay` — a value laid over another;
* `TopicBridge.KeyStep`, `TopicBridge.keyPath` — the path that a key is;
* `Setting.put` — a value laid over what is at the end of a path;
* `Setting.ofVariable` — what the text of a variable stands for.
-/

import TopicBridge.Decimal.Read
import TopicBridge.Decimal.Shortest
import TopicBridge.Json.Value

set_option autoImplicit false

namespace TopicBridge

/-- A value in a layer of settings. -/
inductive Setting where
  | nil
  | bool (b : Bool)
  | int (n : Int)
  | float (f : Float)
  | text (s : String)
  | list (items : List Setting)
  | table (members : List (String × Setting))
  deriving Inhabited

namespace Setting

/-! ### Tables -/

/-- Changes the member with a given name, which is `nil` if it is not there yet. -/
def alter (name : String) (f : Setting → Setting) :
    List (String × Setting) → List (String × Setting)
  | [] => [(name, f nil)]
  | (k, v) :: more => if k = name then (k, f v) :: more else (k, v) :: alter name f more

/-- The members of a table; other values have none. -/
def members : Setting → List (String × Setting)
  | table ms => ms
  | _ => []

/-- The items of a list; other values have none. -/
def items : Setting → List Setting
  | list xs => xs
  | _ => []

mutual

/-- A value laid over another: a table is joined member by member, anything else is replaced. -/
def overlay : Setting → Setting → Setting
  | table ms, old => table (overlayMembers ms old.members)
  | nil, _ => nil
  | bool b, _ => bool b
  | int n, _ => int n
  | float f, _ => float f
  | text s, _ => text s
  | list xs, _ => list xs

/-- The members of a table laid over others, one after the other. -/
def overlayMembers : List (String × Setting) → List (String × Setting) → List (String × Setting)
  | [], old => old
  | (k, v) :: more, old => overlayMembers more (alter k (overlay v) old)

end

mutual

/-- The setting that a JSON value stands for. -/
def ofJson : Json → Setting
  | .null => nil
  | .bool b => bool b
  | .number n =>
    match n.toInt? with
    | some i => int i
    | none => float (n.toFloat?.getD 0)
  | .string s => text (s.getD "")
  | .array xs => list (ofItems xs)
  | .object ms => table (ofMembers ms [])

/-- The settings that the items of an array stand for. -/
def ofItems : List Json → List Setting
  | [] => []
  | x :: xs => ofJson x :: ofItems xs

/-- The settings that the members of an object stand for; of several with one name the last
counts. -/
def ofMembers : List (Option String × Json) → List (String × Setting) → List (String × Setting)
  | [], seen => seen
  | (k, v) :: ms, seen => ofMembers ms (alter (k.getD "") (fun _ => ofJson v) seen)

end

end Setting

/-! ### Keys -/

/-- A step of a path. -/
inductive KeyStep where
  | name (s : String)
  /-- A place in a list, counted from the end if it is negative. -/
  | index (i : Int)
  deriving DecidableEq, Repr

/-- The characters of a name in a path. -/
def isNameChar (c : Char) : Bool :=
  ('a' ≤ c && c ≤ 'z') || ('A' ≤ c && c ≤ 'Z') || ('0' ≤ c && c ≤ '9') || c = '_' || c = '-'

/-- A name at the front, and what follows it. -/
def readName (cs : List Char) : Option (KeyStep × List Char) :=
  match cs.takeWhile isNameChar with
  | [] => none
  | name => some (.name (String.ofList name), cs.dropWhile isNameChar)

/-- A place in a list whose bracket has been opened, and what follows it. -/
def readIndex (cs : List Char) : Option (KeyStep × List Char) :=
  let isBlank (c : Char) : Bool := c = ' ' || c = '\t'
  let inner := cs.takeWhile (· ≠ ']')
  let digits := ((inner.dropWhile isBlank).reverse.dropWhile isBlank).reverse
  let number := match digits with
    | '+' :: _ => none
    | _ => Decimal.intOf? (String.ofList digits)
  match number, cs.dropWhile (· ≠ ']') with
  | some i, _ :: rest => some (.index i, rest)
  | _, _ => none

/-- A further step of a path: a name behind a dot or a place in brackets. -/
def readStep : List Char → Option (KeyStep × List Char)
  | '.' :: cs => readName cs
  | '[' :: cs => readIndex cs
  | _ => none

/-- The steps that are left of a path, of which there are at most as many as characters. -/
def readSteps : (limit : Nat) → List Char → Option (List KeyStep)
  | _, [] => some []
  | 0, _ => none
  | limit + 1, cs => do
    let (step, rest) ← readStep cs
    let steps ← readSteps limit rest
    return step :: steps

/-- The path that a key is.  A key that is no path is a name as a whole. -/
def keyPath (key : String) : List KeyStep :=
  let cs := key.toList
  let path := do
    let (first, rest) ← readName cs
    let steps ← readSteps cs.length rest
    return first :: steps
  path.getD [.name key]

namespace Setting

/-- A list that has room for a place, and that place counted from the front. -/
def makeRoom (xs : List Setting) (i : Int) : List Setting × Nat :=
  match i with
  | .ofNat n => (xs ++ List.replicate (n + 1 - xs.length) nil, n)
  | .negSucc n =>
    if n < xs.length then (xs, xs.length - (n + 1))
    else (List.replicate (n + 1 - xs.length) nil ++ xs, 0)

/-- Changes what is at the end of a path.  What is on the way becomes a table or a list if it is
none. -/
def alterAt (f : Setting → Setting) : List KeyStep → Setting → Setting
  | [], old => f old
  | .name k :: path, old => table (alter k (alterAt f path) old.members)
  | .index i :: path, old =>
    let (xs, n) := makeRoom old.items i
    list (xs.modify n (alterAt f path))

/-- Lays a value over what is at the end of a path. -/
def put (key : String) (value : Setting) (all : Setting) : Setting :=
  alterAt (overlay value) (keyPath key) all

/-! ### Variables -/

/-- A text in lower case, as far as it matters for names in English letters. -/
def lowered (s : String) : String :=
  String.ofList (s.toList.map fun c => if c = '\u212a' then 'k' else c.toLower)

/-- What the text of a variable stands for: a truth value, an integer, a number, or itself. -/
def ofVariable (s : String) : Setting :=
  let lower := lowered s
  if lower = "true" then bool true
  else if lower = "false" then bool false
  else
    match Decimal.intOf? s, Decimal.floatOf? s with
    | some n, _ => int n
    | none, some f => float f
    | none, none => text s

/-- The key that a variable sets, if it is one of the relay's: two underscores separate the
steps. -/
def keyOfVariable? (name : String) : Option String :=
  match (lowered name).splitOn "__" with
  | "mqrelay" :: step :: steps => some (String.intercalate "." (step :: steps))
  | _ => none

end Setting

end TopicBridge
