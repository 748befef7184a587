/-
**JSON values.**

A value is kept as it is written, with all members of an object in order.  A text may hold one
half of a surrogate pair, and a number may be out of range: such a value has a form, but it cannot
be held.  Where a value is not looked at, that does not matter.

Main definitions:

* `TopicBridge.Json` — a value as it is written;
* `Json.holds` — whether its texts and numbers can be held and its nesting is not too deep;
* `Json.member?` — the member of an object with a given name; of several, the last;
* `Json.names` — the names of an object's members.
-/

import TopicBridge.Json.Number

set_option autoImplicit false

namespace TopicBridge

/-- A value as it is written. -/
inductive Json where
  | null
  | bool (b : Bool)
  | number (n : Json.Number)
  /-- A text; `none` if it holds half of a surrogate pair. -/
  | string (s : Option String)
  | array (items : List Json)
  | object (members : List (Option String × Json))
  deriving Repr, Inhabited

namespace Json

/-- Whether a value can be held, with at most `depth` containers one in the other. -/
def holds : Nat → Json → Bool
  | _, null => true
  | _, bool _ => true
  | _, number n => n.toFloat?.isSome
  | _, string s => s.isSome
  | 0, array _ => false
  | 0, object _ => false
  | depth + 1, array items => items.all (holds depth)
  | depth + 1, object members => members.all fun m => m.1.isSome && holds depth m.2

/-- How many containers may stand one in the other. -/
def maxDepth : Nat := 127

/-- Whether a value can be held. -/
def isSound (j : Json) : Bool := j.holds maxDepth

/-- The member with a given name; of several, the last. -/
def member? (members : List (Option String × Json)) (name : String) : Option Json :=
  (members.reverse.find? fun m => m.1 == some name).map (·.2)

/-- The names of the members in order, each once. -/
def names (members : List (Option String × Json)) : List String :=
  ((members.filterMap (·.1)).mergeSort fun a b => !decide (b < a)).eraseReps

/-- The name of a value's kind. -/
def kind : Json → String
  | null => "null"
  | bool _ => "bool"
  | number _ => "number"
  | string _ => "string"
  | array _ => "array"
  | object _ => "object"

end Json

end TopicBridge
