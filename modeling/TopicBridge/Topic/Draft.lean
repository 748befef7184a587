/-
**Filling by writing once.**

`Pattern.fill` replaces the wildcards of a template and joins the levels that are not empty.  The
same can be done without a list of levels: a draft of the topic grows level by level, and each
wildcard takes the first of the captures that are left.  A slash is written only between two levels,
so that a level that is left out leaves no slash behind.

Main definitions:

* `TopicBridge.Topic.Draft`, `Draft.add` — how far a topic has been written, and the writing of a
  level;
* `Draft.write` — the writing of what stands for a level of a template;
* `Pattern.compose` — the topic that captures give.
-/

import TopicBridge.Topic.Capture

set_option autoImplicit false

namespace TopicBridge

namespace Topic

/-- How far a topic has been written. -/
structure Draft where
  text : String
  /-- The captures that no wildcard has taken. -/
  captures : List String
  deriving DecidableEq, Repr

namespace Draft

/-- Writes a level behind what has been written, unless it is empty. -/
def add (d : Draft) (level : String) : Draft :=
  if level = "" then d
  else { d with text := (if d.text = "" then "" else d.text ++ "/") ++ level }

/-- Writes the first of the captures that are left, if there is one. -/
def take (d : Draft) : Draft :=
  add { d with captures := d.captures.tail } (d.captures.headD "")

/-- Writes what stands for a level of a template. -/
def write (d : Draft) : Level → Draft
  | .literal s => d.add s
  | .single => d.take
  | .multi => d.take

end Draft

end Topic

/-- The topic that `captures` give, written along the template.  It is refused if nothing has been
written. -/
def Pattern.compose (template : Pattern) (captures : List String) : Except TopicError String :=
  if captures.length ≠ template.wildcards.length then
    .error (.captureCount template.wildcards.length captures.length)
  else
    let d := template.levels.foldl Topic.Draft.write ⟨"", captures⟩
    if d.text = "" then .error .empty else .ok d.text

end TopicBridge
