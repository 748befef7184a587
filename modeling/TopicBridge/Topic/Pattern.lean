/-
**Names and patterns.**

A topic name is what a message is published under.  A pattern stands for a set of names: a level
`+` for any one level and a last level `#` for all levels from there on.  Patterns of the relay
have no empty level.

Main definitions:

* `TopicBridge.TopicError`, `TopicError.message` — why a text is not what it should be;
* `TopicBridge.Topic.nameError?` — why a text is not a topic name, if it is not;
* `TopicBridge.Topic.patternError?` — why a text is not a pattern, if it is not;
* `TopicBridge.Pattern` — a text that is a pattern, with `Pattern.parse` and `Pattern.levels`.
-/

import TopicBridge.Topic.Level

set_option autoImplicit false

namespace TopicBridge

/-- Why a text is not a topic, a pattern or the template of a pattern. -/
inductive TopicError where
  /-- Nothing is there. -/
  | empty
  /-- More bytes than a text on the wire can have. -/
  | tooLong
  /-- The character U+0000 occurs. -/
  | nullCharacter
  /-- Two slashes meet, or one stands at an end. -/
  | emptyLevel
  /-- `+` or `#` shares a level with other characters. -/
  | partialWildcard
  /-- `#` stands before the last level. -/
  | multiWildcardNotLast
  /-- A name holds `+` or `#`. -/
  | wildcardInName
  /-- The wildcards of a template are not those of the pattern, one after the other. -/
  | templateMismatch (pattern template : String)
  /-- A template is given more or fewer captures than it has wildcards. -/
  | captureCount (expected actual : Nat)
  deriving DecidableEq, Repr

/-- The wording of a topic error. -/
def TopicError.message : TopicError → String
  | empty => "topic cannot be empty"
  | tooLong => "topic exceeds maximum length"
  | nullCharacter => "topic cannot contain null character"
  | emptyLevel => "topic cannot contain empty levels"
  | partialWildcard => "wildcard must occupy entire level"
  | multiWildcardNotLast => "multi-level wildcard must be last level"
  | wildcardInName => "topic name cannot contain wildcards"
  | templateMismatch pattern template =>
    s!"template '{template}' does not use the wildcards of pattern '{pattern}' in order"
  | captureCount expected actual => s!"template needs {expected} captures, got {actual}"

namespace Topic

/-- The largest number of bytes of a topic. -/
def maxSize : Nat := 65535

/-- What names and patterns have in common: some bytes, not too many, and no U+0000. -/
def textError? (s : String) : Option TopicError :=
  if s = "" then some .empty
  else if s.utf8ByteSize > maxSize then some .tooLong
  else if '\x00' ∈ s.toList then some .nullCharacter
  else none

/-! ### Names -/

/-- Whether a wildcard character occurs. -/
def hasWildcard (s : String) : Bool := s.toList.any fun c => c = '+' || c = '#'

/-- Why `s` is not a topic name. -/
def nameError? (s : String) : Option TopicError :=
  match textError? s with
  | some e => some e
  | none => if hasWildcard s then some .wildcardInName else none

/-- Whether `s` is a topic name. -/
def IsName (s : String) : Prop := nameError? s = none

instance (s : String) : Decidable (IsName s) := inferInstanceAs (Decidable (nameError? s = none))

/-! ### Patterns -/

/-- Why `level` cannot stand in a pattern, as its last level or before it. -/
def levelError? (isLast : Bool) (level : String) : Option TopicError :=
  if level = "" then some .emptyLevel
  else if '#' ∈ level.toList then
    if level ≠ "#" then some .partialWildcard
    else if isLast then none
    else some .multiWildcardNotLast
  else if '+' ∈ level.toList ∧ level ≠ "+" then some .partialWildcard
  else none

/-- The first reason why one of the levels cannot stand where it does. -/
def levelsError? : List String → Option TopicError
  | [] => none
  | level :: more =>
    match levelError? more.isEmpty level with
    | some e => some e
    | none => levelsError? more

/-- Why `s` is not a pattern. -/
def patternError? (s : String) : Option TopicError :=
  match textError? s with
  | some e => some e
  | none => levelsError? (split s)

end Topic

/-- A pattern. -/
structure Pattern where
  /-- How it is written. -/
  text : String
  isPattern : Topic.patternError? text = none
  deriving DecidableEq

namespace Pattern

/-- The pattern that a text is. -/
def parse (s : String) : Except TopicError Pattern :=
  match h : Topic.patternError? s with
  | some e => .error e
  | none => .ok ⟨s, h⟩

/-- The levels of a pattern. -/
def levels (p : Pattern) : List Topic.Level := Topic.levels p.text

/-- The wildcards of a pattern, in order. -/
def wildcards (p : Pattern) : List Topic.Level := p.levels.filter Topic.Level.isWildcard

theorem parse_eq_ok_iff {s : String} {p : Pattern} : parse s = .ok p ↔ p.text = s := by
  unfold parse
  split
  · rename_i h
    constructor
    · intro h'; cases h'
    · rintro rfl; rw [p.isPattern] at h; cases h
  · constructor
    · intro h'; cases h'; rfl
    · rintro rfl; rfl

theorem parse_eq_error_iff {s : String} {e : TopicError} :
    parse s = .error e ↔ Topic.patternError? s = some e := by
  unfold parse
  split
  · rename_i h
    rw [h]
    constructor <;> intro h' <;> cases h' <;> rfl
  · rename_i h
    constructor
    · intro h'; cases h'
    · intro h'; rw [h] at h'; cases h'

/-- A pattern is the text of its levels. -/
theorem join_text_levels (p : Pattern) : Topic.join (p.levels.map Topic.Level.text) = p.text := by
  simp [levels, Topic.levels, Function.comp_def]

end Pattern

end TopicBridge
