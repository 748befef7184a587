/-
**What filters see of a message.**

Filters look at the payload of a message as a JSON object.  A payload that is not one is opaque.

Main definitions:

* `TopicBridge.Priority` — the four priorities, in order;
* `TopicBridge.Content` — an opaque payload, or the members of an object;
* `Content.ofPayload` — the content of a payload;
* `Content.priority?`, `Content.type?`, `Content.timestamp?`, `Content.hasField`,
  `Content.fields` — its fields.
-/

import TopicBridge.Bytes
import TopicBridge.Json.Read

set_option autoImplicit false

namespace TopicBridge

/-! ### Priorities -/

/-- How urgent a message is. -/
inductive Priority where
  | low
  | medium
  | normal
  | high
  deriving DecidableEq, Repr

/-- A text that is the name of no priority. -/
structure UnknownPriority where
  text : String
  deriving DecidableEq, Repr

/-- The wording of the error. -/
def UnknownPriority.message (e : UnknownPriority) : String :=
  s!"unknown priority '{e.text}' (expected low, medium, normal or high)"

namespace Priority

/-- All priorities, the lowest first. -/
def all : List Priority := [low, medium, normal, high]

/-- The name of a priority. -/
def text : Priority → String
  | low => "low"
  | medium => "medium"
  | normal => "normal"
  | high => "high"

/-- The place of a priority in the order. -/
def rank : Priority → Nat
  | low => 0
  | medium => 1
  | normal => 2
  | high => 3

instance : LE Priority := ⟨fun a b => a.rank ≤ b.rank⟩

instance (a b : Priority) : Decidable (a ≤ b) := inferInstanceAs (Decidable (a.rank ≤ b.rank))

/-- The priority with a given name, in letters of either case. -/
def parse (s : String) : Except UnknownPriority Priority :=
  match all.find? fun p => s.toList.map Char.toLower = p.text.toList with
  | some p => .ok p
  | none => .error ⟨s⟩

theorem parse_text (p : Priority) : parse p.text = .ok p := by cases p <;> rfl

theorem le_def (a b : Priority) : a ≤ b ↔ a.rank ≤ b.rank := Iff.rfl

end Priority

/-! ### Content -/

/-- What filters see of a payload. -/
inductive Content where
  /-- A payload that is not an object. -/
  | opaquePayload
  /-- The members of an object, in the order in which they are written. -/
  | object (members : List (Option String × Json))

namespace Content

/-- The content of a payload. -/
def ofPayload (payload : Bytes) : Content :=
  match payload.text?.bind Json.parseSound? with
  | some (.object members) => object members
  | _ => opaquePayload

/-- The members of an object; an opaque payload has none. -/
def members : Content → List (Option String × Json)
  | opaquePayload => []
  | object members => members

/-- The text of a field, if it is there and a text. -/
def text? (c : Content) (name : String) : Option String :=
  match Json.member? c.members name with
  | some (.string s) => s
  | _ => none

/-- The declared priority, as it is written. -/
def priority? (c : Content) : Option String := c.text? "priority"

/-- The declared type. -/
def type? (c : Content) : Option String := c.text? "type"

/-- When the message says that it was made, in seconds since the epoch. -/
def timestamp? (c : Content) : Option Float :=
  match Json.member? c.members "timestamp" with
  | some (.number n) => n.toFloat?
  | _ => none

/-- Whether a field is there and not `null`. -/
def hasField (c : Content) (name : String) : Bool :=
  match Json.member? c.members name with
  | none => false
  | some .null => false
  | some _ => true

/-- The fields by name, each with the value that counts. -/
def fields (c : Content) : List (String × Json) :=
  (Json.names c.members).filterMap fun name =>
    (Json.member? c.members name).map fun v => (name, v)

end Content

end TopicBridge
