/-
**Matching by reading once.**

`Pattern.captures?` compares the levels of a pattern with those of a topic.  The same can be done
without taking the topic apart first: a cursor goes along the text, and at each level of the pattern
reads up to the next slash.  That a topic may end just where a `#` begins makes it necessary to tell
a text that has been read to its end from one that ends with a slash.

Main definitions:

* `TopicBridge.Topic.splitOnce?` — the parts of a text before and behind its first slash;
* `Topic.Cursor`, `Cursor.read?` — how far a topic has been read, and the reading of a level;
* `Topic.scan` — the captures of the levels that are left;
* `Pattern.scan?` — the captures of a topic, if it matches.
-/

import TopicBridge.Topic.Capture

set_option autoImplicit false

namespace TopicBridge

namespace Topic

/-- The characters before and behind the first slash. -/
def splitOnceChars? : List Char → Option (List Char × List Char)
  | [] => none
  | c :: cs =>
    if c = '/' then some ([], cs)
    else (splitOnceChars? cs).map fun parts => (c :: parts.1, parts.2)

/-- The parts of a text before and behind its first slash. -/
def splitOnce? (s : String) : Option (String × String) :=
  (splitOnceChars? s.toList).map fun parts => (String.ofList parts.1, String.ofList parts.2)

/-- How far a topic has been read. -/
structure Cursor where
  captures : List String
  remaining : String
  /-- Whether the level that was read last is the last of the topic. -/
  exhausted : Bool
  deriving DecidableEq, Repr

/-- Where the reading of a topic begins. -/
def Cursor.start (topic : String) : Cursor := ⟨[], topic, false⟩

/-- Reads one level: what stands in front of the next slash, or all that is left. -/
def Cursor.read? (c : Cursor) : Option (String × Cursor) :=
  if c.exhausted then none
  else
    match splitOnce? c.remaining with
    | some (head, tail) => some (head, { c with remaining := tail })
    | none => some (c.remaining, { c with exhausted := true })

/-- A text is captured. -/
def Cursor.capture (c : Cursor) (text : String) : Cursor :=
  { c with captures := c.captures ++ [text] }

/-- The captures of a topic, once the levels that are left of a pattern have been looked at. -/
def scan : List Level → Cursor → Option (List String)
  | [], c => if c.exhausted then some c.captures else none
  | .multi :: _, c =>
    if !c.exhausted && (split c.remaining).any (· = "") then none
    else some (c.capture (if c.exhausted then "" else c.remaining)).captures
  | .literal expected :: levels, c =>
    match c.read? with
    | some (head, c') => if head = "" ∨ expected ≠ head then none else scan levels c'
    | none => none
  | .single :: levels, c =>
    match c.read? with
    | some (head, c') => if head = "" then none else scan levels (c'.capture head)
    | none => none

end Topic

/-- The captures of `topic`, if it is a topic name that matches. -/
def Pattern.scan? (p : Pattern) (topic : String) : Option (List String) :=
  if ¬ Topic.IsName topic then none
  else if Topic.isReserved topic ∧ p.startsWild then none
  else Topic.scan p.levels (.start topic)

end TopicBridge
