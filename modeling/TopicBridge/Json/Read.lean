/-
**Reading JSON.**

The tokens of a text are taken one after the other by a machine that keeps the containers that are
open, so that no nesting is too deep for it.

Main definitions:

* `TopicBridge.Json.Open` — a container whose end has not come yet;
* `Json.Machine` — the open containers, and what may come next;
* `Json.Machine.step?` — the effect of a token, unless it cannot come here;
* `Json.parse?` — the value that a text is.
-/

import TopicBridge.Json.Token

set_option autoImplicit false

namespace TopicBridge.Json

/-- A container whose end has not come yet; what it holds so far is latest first. -/
inductive Open where
  | array (items : List Json)
  /-- An object, and the name of the member that is being read. -/
  | object (members : List (Option String × Json)) (name : Option String)

/-- What may come next. -/
inductive Expected where
  | value
  | itemOrEnd
  | memberOrEnd
  | name
  | colon
  | commaOrEnd
  /-- Nothing: the value is complete. -/
  | nothing (value : Json)

/-- The state of reading a value. -/
structure Machine where
  /-- The open containers, innermost first. -/
  stack : List Open
  expected : Expected

namespace Machine

/-- Nothing has been read. -/
def start : Machine := ⟨[], .value⟩

/-- Puts a complete value where it belongs. -/
def put (v : Json) : List Open → Machine
  | [] => ⟨[], .nothing v⟩
  | .array items :: outer => ⟨.array (v :: items) :: outer, .commaOrEnd⟩
  | .object members name :: outer => ⟨.object ((name, v) :: members) name :: outer, .commaOrEnd⟩

/-- The beginning of a value. -/
def begin? (stack : List Open) : Token → Option Machine
  | .openArray => some ⟨.array [] :: stack, .itemOrEnd⟩
  | .openObject => some ⟨.object [] none :: stack, .memberOrEnd⟩
  | .null => some (put .null stack)
  | .bool b => some (put (.bool b) stack)
  | .number n => some (put (.number n) stack)
  | .string s => some (put (.string s) stack)
  | _ => none

/-- The end of the innermost container. -/
def finish? : List Open → Token → Option Machine
  | .array items :: outer, .closeArray => some (put (.array items.reverse) outer)
  | .object members _ :: outer, .closeObject => some (put (.object members.reverse) outer)
  | _, _ => none

/-- The effect of a token. -/
def step? (m : Machine) (token : Token) : Option Machine :=
  match m.expected, m.stack, token with
  | .value, stack, _ => begin? stack token
  | .itemOrEnd, stack, .closeArray => finish? stack .closeArray
  | .itemOrEnd, stack, _ => begin? stack token
  | .memberOrEnd, stack, .closeObject => finish? stack .closeObject
  | .memberOrEnd, .object members _ :: outer, .string name =>
    some ⟨.object members name :: outer, .colon⟩
  | .name, .object members _ :: outer, .string name => some ⟨.object members name :: outer, .colon⟩
  | .colon, stack, .colon => some ⟨stack, .value⟩
  | .commaOrEnd, .array items :: outer, .comma => some ⟨.array items :: outer, .value⟩
  | .commaOrEnd, .object members name :: outer, .comma =>
    some ⟨.object members name :: outer, .name⟩
  | .commaOrEnd, stack, _ => finish? stack token
  | _, _, _ => none

/-- The value, once it is complete. -/
def result? (m : Machine) : Option Json :=
  match m.expected with
  | .nothing v => some v
  | _ => none

end Machine

/-- The value that a text is. -/
def parse? (s : String) : Option Json := do
  let tokens ← tokens? s
  let machine ← tokens.foldlM Machine.step? Machine.start
  machine.result?

/-- The value that a text is, if it can be held. -/
def parseSound? (s : String) : Option Json := (parse? s).filter isSound

end TopicBridge.Json
