/-
**Matching and filling.**

A topic that matches a pattern gives one capture for each of its wildcards: the level in the place
of a `+`, and the levels in the place of a last `#` as one text, which may be empty.  A template
with the same wildcards turns the captures into another topic.

Main definitions:

* `TopicBridge.Topic.matchLevels` — the captures of a list of levels;
* `Pattern.captures?` — the captures of a topic, if it matches;
* `Pattern.checkTemplate` — whether a template has the wildcards of a pattern;
* `Pattern.fill` — the topic that captures give under a template.
-/

import TopicBridge.Topic.Pattern

set_option autoImplicit false

namespace TopicBridge

namespace Topic

/-! ### Levels -/

/-- The captures of `topic`, level by level.  No level of a topic that matches is empty. -/
def matchLevels : List Level → List String → Option (List String)
  | [], [] => some []
  | [], _ :: _ => none
  | .multi :: _, topic => if topic.any (· = "") then none else some [join topic]
  | .literal _ :: _, [] => none
  | .single :: _, [] => none
  | .literal s :: pattern, level :: topic =>
    if level ≠ "" ∧ level = s then matchLevels pattern topic else none
  | .single :: pattern, level :: topic =>
    if level = "" then none else (matchLevels pattern topic).map (level :: ·)

/-- The levels of a template with its wildcards replaced, in order. -/
def fill : List Level → List String → List String
  | [], _ => []
  | .literal s :: template, captures => s :: fill template captures
  | .single :: template, c :: captures => c :: fill template captures
  | .multi :: template, c :: captures => c :: fill template captures
  | .single :: template, [] => fill template []
  | .multi :: template, [] => fill template []

/-- Whether a topic is set apart by a dollar sign at its start. -/
def isReserved (topic : String) : Bool := topic.toList.head? = some '$'

end Topic

/-! ### Patterns -/

namespace Pattern

/-- Whether the first level is a wildcard; such a pattern does not match topics that are set
apart. -/
def startsWild (p : Pattern) : Bool := (p.levels.head?.map Topic.Level.isWildcard).getD false

/-- The captures of `topic`, if it is a topic name that matches. -/
def captures? (p : Pattern) (topic : String) : Option (List String) :=
  if ¬ Topic.IsName topic then none
  else if Topic.isReserved topic ∧ p.startsWild then none
  else Topic.matchLevels p.levels (Topic.split topic)

/-- Whether `topic` matches. -/
def matches? (p : Pattern) (topic : String) : Bool := (p.captures? topic).isSome

/-- A template is right for a pattern if it has the same wildcards in the same order. -/
def checkTemplate (p template : Pattern) : Except TopicError Unit :=
  if p.wildcards = template.wildcards then .ok ()
  else .error (.templateMismatch p.text template.text)

/-- The topic that `captures` give.  An empty capture leaves its level out; a topic without any
level is refused. -/
def fill (template : Pattern) (captures : List String) : Except TopicError String :=
  if captures.length ≠ template.wildcards.length then
    .error (.captureCount template.wildcards.length captures.length)
  else
    match (Topic.fill template.levels captures).filter (· ≠ "") with
    | [] => .error .empty
    | levels => .ok (Topic.join levels)

end Pattern

end TopicBridge
