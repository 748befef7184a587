/-
**Regular expressions.**

What an expression matches at the front of a text depends on the order in which it is tried: a
repetition takes as many characters as it can, and gives one after the other back only while nothing
else makes the rest of the expression match.  Here an expression has a list of all its ways to
match, in that order, and the first of them counts.  Replacing goes through a text once, from the
left; what has been matched is not matched again, and what is put in its place is not looked at.

Main definitions:

* `TopicBridge.Regex` — expressions of sets of characters, repetitions, optional parts and groups;
* `Regex.Way`, `Regex.ways` — the ways to match at the front of a text, the preferred one first;
* `Regex.first?` — the one that counts;
* `Regex.replaceAll` — a text with every match replaced.

Main results:

* `Regex.taken_append_rest` — a way to match takes the front of the text and leaves the rest.
-/

set_option autoImplicit false

namespace TopicBridge

/-- A regular expression. -/
inductive Regex where
  /-- One character of a set. -/
  | char (accepts : Char → Bool)
  /-- Any number of characters of a set, preferably many. -/
  | repeated (accepts : Char → Bool)
  /-- One expression behind the other. -/
  | seq (front back : Regex)
  /-- An expression or nothing, preferably the expression. -/
  | optional (body : Regex)
  /-- An expression whose match is kept. -/
  | group (body : Regex)

namespace Regex

/-- A way to match an expression at the front of a text. -/
structure Way where
  taken : List Char
  /-- What the groups of the expression have matched, those that are left out included. -/
  groups : List (Option (List Char))
  rest : List Char
  deriving DecidableEq, Repr

/-- The number of groups of an expression. -/
def groupCount : Regex → Nat
  | char _ => 0
  | repeated _ => 0
  | seq front back => front.groupCount + back.groupCount
  | optional body => body.groupCount
  | group body => body.groupCount + 1

/-- The ways to match any number of characters of a set, the longest first. -/
def repeatedWays (accepts : Char → Bool) : List Char → List Way
  | [] => [⟨[], [], []⟩]
  | c :: cs =>
    (if accepts c then (repeatedWays accepts cs).map fun w => { w with taken := c :: w.taken }
      else []) ++ [⟨[], [], c :: cs⟩]

/-- The ways to match an expression at the front of a text, the preferred one first. -/
def ways : Regex → List Char → List Way
  | char _, [] => []
  | char accepts, c :: cs => if accepts c then [⟨[c], [], cs⟩] else []
  | repeated accepts, cs => repeatedWays accepts cs
  | seq front back, cs =>
    (front.ways cs).flatMap fun w => (back.ways w.rest).map fun w' =>
      ⟨w.taken ++ w'.taken, w.groups ++ w'.groups, w'.rest⟩
  | optional body, cs => body.ways cs ++ [⟨[], List.replicate body.groupCount none, cs⟩]
  | group body, cs => (body.ways cs).map fun w => { w with groups := some w.taken :: w.groups }

theorem taken_append_rest_of_repeatedWays {accepts : Char → Bool} {cs : List Char} {w : Way}
    (h : w ∈ repeatedWays accepts cs) : w.taken ++ w.rest = cs := by
  induction cs generalizing w with
  | nil =>
    rw [repeatedWays, List.mem_singleton] at h
    rw [h]
    rfl
  | cons c cs ih =>
    rw [repeatedWays, List.mem_append, List.mem_singleton] at h
    rcases h with h | rfl
    · split at h
      · obtain ⟨w', hw', rfl⟩ := List.mem_map.1 h
        rw [List.cons_append, ih hw']
      · cases h
    · rfl

/-- A way to match takes the front of the text and leaves the rest. -/
theorem taken_append_rest {r : Regex} {cs : List Char} {w : Way} (h : w ∈ r.ways cs) :
    w.taken ++ w.rest = cs := by
  induction r generalizing cs w with
  | char accepts =>
    cases cs with
    | nil => cases h
    | cons c cs =>
      rw [ways] at h
      split at h
      · rw [List.mem_singleton] at h
        rw [h]
        rfl
      · cases h
  | repeated accepts => exact taken_append_rest_of_repeatedWays h
  | seq front back ihf ihb =>
    obtain ⟨w', hw', h⟩ := List.mem_flatMap.1 h
    obtain ⟨w'', hw'', rfl⟩ := List.mem_map.1 h
    rw [List.append_assoc, ihb hw'', ihf hw']
  | optional body ih =>
    rw [ways, List.mem_append, List.mem_singleton] at h
    rcases h with h | rfl
    · exact ih h
    · rfl
  | group body ih =>
    obtain ⟨w', hw', rfl⟩ := List.mem_map.1 h
    show w'.taken ++ w'.rest = cs
    exact ih hw'

/-- The way to match that counts.  One that takes nothing is none. -/
def first? (r : Regex) (cs : List Char) : Option Way :=
  (r.ways cs).head?.filter fun w => !w.taken.isEmpty

theorem length_of_first? {r : Regex} {cs : List Char} {w : Way} (h : r.first? cs = some w) :
    w.rest.length < cs.length := by
  obtain ⟨hhead, htaken⟩ := Option.filter_eq_some_iff.1 h
  have happend := taken_append_rest (List.mem_of_head? hhead)
  have hpos : 0 < w.taken.length := by
    rw [List.length_pos_iff, ← List.isEmpty_eq_false_iff]
    simpa using htaken
  rw [← happend, List.length_append]
  omega

/-- A text with every match replaced by what is made of it. -/
def replaceAll (r : Regex) (made : Way → List Char) : List Char → List Char
  | [] => []
  | c :: cs =>
    match _h : r.first? (c :: cs) with
    | some w => made w ++ replaceAll r made w.rest
    | none => c :: replaceAll r made cs
termination_by cs => cs.length
decreasing_by
  · exact length_of_first? (by assumption)
  · simp

end Regex

end TopicBridge
