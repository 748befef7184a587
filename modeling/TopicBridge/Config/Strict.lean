/-
**Settings from JSON.**

The strict reading takes every value as it is written: numbers are no texts, and a record has no
member twice.  A record may also be written as an array of its members in order.  Members that have
no place in a record are not looked at.

Main definitions:

* `TopicBridge.Reading.json` — the strict reading;
* `Config.parse` — the settings that a JSON text stands for.
-/

import TopicBridge.Config.Form
import TopicBridge.Config.Validation
import TopicBridge.Json.Read

set_option autoImplicit false

namespace TopicBridge

namespace Json

/-- The members of an object with the given names, none of which is there twice. -/
def membersOf? (names : List String) (members : List (Option String × Json)) :
    Option (List (Option Json)) :=
  if members.any fun m => m.1.isNone then none
  else
    names.mapM fun name =>
      match members.filter fun m => m.1 == some name with
      | [] => some none
      | [m] => some (some m.2)
      | _ => none

/-- The members of a record, by name or by place. -/
def record? (names : List String) : Json → Option (List (Option Json))
  | object members => membersOf? names members
  | array items =>
    if items.length ≤ names.length then
      some (items.map some ++ List.replicate (names.length - items.length) none)
    else none
  | _ => none

/-- A name, or an object with that name and nothing else. -/
def choice? : Json → Option String
  | string s => s
  | object [(name, null)] => name
  | _ => none

end Json

/-- The strict reading. -/
def Reading.json : Reading Json where
  record := Json.record?
  items
    | .array items => some items
    | _ => none
  text
    | .string s => s
    | _ => none
  bool
    | .bool b => some b
    | _ => none
  nat bound
    | .number n => n.toInt?.bind fun i => if 0 ≤ i ∧ i < bound then some i.toNat else none
    | _ => none
  choice := Json.choice?
  isNull
    | .null => true
    | _ => false

/-- The settings that a JSON text stands for, if they are valid. -/
def Config.parse (s : String) : Except ConfigError Config :=
  match (Json.parse? s).bind Reading.json.config with
  | none => .error .malformed
  | some c => do
    c.validate
    return c

end TopicBridge
