/-
**Settings from a file and the environment.**

The lenient reading turns values of one kind into another where that makes sense: a text that spells
a number is a number, and a number is a text.

Main definitions:

* `Setting.toText?`, `Setting.toBool?`, `Setting.toNat?` — values of another kind;
* `TopicBridge.Reading.setting` — the lenient reading;
* `Config.load` — the settings of a file in which variables are replaced, and over which others
  are laid.
-/

import TopicBridge.Bytes
import TopicBridge.Config.Form
import TopicBridge.Config.Layers
import TopicBridge.Config.Substitution
import TopicBridge.Config.Validation
import TopicBridge.Json.Read

set_option autoImplicit false

namespace TopicBridge

namespace Setting

/-- The words for true and false. -/
def wordValue? (s : String) : Option Bool :=
  let lower := lowered s
  if lower = "true" ∨ lower = "on" ∨ lower = "yes" then some true
  else if lower = "false" ∨ lower = "off" ∨ lower = "no" then some false
  else none

/-- A simple value as a text. -/
def toText? : Setting → Option String
  | text s => some s
  | bool b => some (if b then "true" else "false")
  | int n => some (toString n)
  | float f => some (Decimal.floatText f)
  | _ => none

/-- A simple value as a truth value: a number is true unless it is zero. -/
def toBool? : Setting → Option Bool
  | bool b => some b
  | int n => some (n != 0)
  | float f => some (f != 0)
  | text s => if s = "1" then some true else if s = "0" then some false else wordValue? s
  | _ => none

/-- A simple value as a number without a sign.  A fraction is rounded, a half away from zero, and
what is out of range becomes the nearest number in it. -/
def toNat? : Setting → Option Nat
  | int n => if 0 ≤ n then some n.toNat else none
  | bool b => some b.toNat
  | float f => some f.round.toUInt64.toNat
  | text s =>
    match wordValue? s with
    | some b => some b.toNat
    | none => Decimal.natOf? UInt64.size s
  | _ => none

/-- The members of a record, by name or by place. -/
def record? (names : List String) : Setting → Option (List (Option Setting))
  | table members => some (names.map fun name => (members.find? fun m => m.1 == name).map (·.2))
  | list xs => some ((List.range names.length).map fun i => xs[i]?)
  | _ => none

/-- A name, or a table with that name and nothing else. -/
def choice? : Setting → Option String
  | text s => some s
  | table [(name, _)] => some name
  | _ => none

end Setting

/-- The lenient reading. -/
def Reading.setting : Reading Setting where
  record := Setting.record?
  items
    | .list xs => some xs
    | _ => none
  text := Setting.toText?
  bool := Setting.toBool?
  nat bound v := v.toNat?.filter (· < bound)
  choice := Setting.choice?
  isNull
    | .nil => true
    | _ => false

/-- The layer that the text of a file stands for: an object, whose names are keys. -/
def fileLayer? (s : String) : Option Setting :=
  match Json.parseSound? s with
  | some (.object members) =>
    some ((Json.names members).foldl
      (fun all name =>
        match Json.member? members name with
        | some v => Setting.put name (Setting.ofJson v) all
        | none => all)
      (.table []))
  | _ => none

/-- Lays the variables over other settings. -/
def overlayVariables (env : Environment) (all : Setting) : Setting :=
  (env.mergeSort fun a b => !decide (b.1 < a.1)).foldl
    (fun all v =>
      match Setting.keyOfVariable? v.1 with
      | some key => Setting.put key (Setting.ofVariable v.2) all
      | none => all)
    all

/-- The settings of a text, with variables replaced in it and others laid over it. -/
def Config.ofLayers? (env : Environment) (s : String) : Option Config := do
  let file ← fileLayer? (substitute env s)
  Reading.setting.config (overlayVariables env file)

/-- The settings of a file, if there is one and they are valid. -/
def Config.load (file : Option Bytes) (env : Environment) : Except ConfigError Config :=
  match file.map Bytes.text? with
  | none => .error (.unreadable .missing)
  | some none => .error (.unreadable .notText)
  | some (some s) =>
    match Config.ofLayers? env s with
    | none => .error .illTyped
    | some c => do
      c.validate
      return c

end TopicBridge
