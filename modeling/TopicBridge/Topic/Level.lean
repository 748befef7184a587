/-
**Topics and their levels.**

A topic is a text whose parts, the levels, are separated by slashes.

Main definitions:

* `TopicBridge.Topic.split`, `Topic.join` — the levels of a text, and the text of some levels;
* `TopicBridge.Topic.Level` — a level of a pattern: a literal text or a wildcard;
* `Topic.trimmed?` — a text without the slashes at its ends, unless nothing is left.

Main results:

* `Topic.join_split` — joining the levels of a text gives the text;
* `Topic.split_join` — levels without a slash are found again.
-/

set_option autoImplicit false

namespace TopicBridge.Topic

/-! ### Splitting and joining -/

/-- The runs of characters between slashes. -/
def splitChars (cs : List Char) : List (List Char) :=
  cs.foldr
    (fun c runs =>
      if c = '/' then [] :: runs
      else
        match runs with
        | [] => [[c]]
        | run :: more => (c :: run) :: more)
    [[]]

/-- The levels of a text; there is always at least one. -/
def split (s : String) : List String := (splitChars s.toList).map String.ofList

/-- The text with given levels. -/
def join (levels : List String) : String :=
  String.ofList (List.intercalate ['/'] (levels.map String.toList))

@[simp] theorem splitChars_nil : splitChars [] = [[]] := rfl

theorem splitChars_ne_nil (cs : List Char) : splitChars cs ≠ [] := by
  cases cs with
  | nil => simp
  | cons c cs =>
    simp only [splitChars, List.foldr_cons]
    split
    · simp
    · split <;> simp

@[simp] theorem splitChars_slash (cs : List Char) :
    splitChars ('/' :: cs) = [] :: splitChars cs := by
  simp [splitChars]

/-- A character other than a slash belongs to the first run of what follows. -/
theorem splitChars_cons {c : Char} (hc : c ≠ '/') {cs run : List Char} {more : List (List Char)}
    (h : splitChars cs = run :: more) : splitChars (c :: cs) = (c :: run) :: more := by
  simp only [splitChars] at h ⊢
  rw [List.foldr_cons, h, if_neg hc]

theorem split_ne_nil (s : String) : split s ≠ [] := by
  simp [split, splitChars_ne_nil]

theorem intercalate_cons_cons {α : Type} (sep x y : List α) (rest : List (List α)) :
    List.intercalate sep (x :: y :: rest) = x ++ sep ++ List.intercalate sep (y :: rest) := by
  simp [List.intercalate]

theorem intercalate_splitChars (cs : List Char) :
    List.intercalate ['/'] (splitChars cs) = cs := by
  induction cs with
  | nil => rfl
  | cons c cs ih =>
    obtain ⟨run, more, h⟩ := List.exists_cons_of_ne_nil (splitChars_ne_nil cs)
    by_cases hc : c = '/'
    · subst hc
      rw [splitChars_slash, h, intercalate_cons_cons, ← h, ih]
      rfl
    · rw [splitChars_cons hc h]
      rw [h] at ih
      cases more with
      | nil => simpa [List.intercalate] using ih
      | cons run' more =>
        rw [intercalate_cons_cons] at ih ⊢
        simp [← ih]

/-- Joining the levels of a text gives the text. -/
@[simp] theorem join_split (s : String) : join (split s) = s := by
  simp [join, split, Function.comp_def, intercalate_splitChars]

theorem splitChars_append_slash (run cs : List Char) (h : '/' ∉ run) :
    splitChars (run ++ '/' :: cs) = run :: splitChars cs := by
  induction run with
  | nil => simp
  | cons c run ih =>
    simp only [List.mem_cons, not_or] at h
    exact splitChars_cons (Ne.symm h.1) (ih h.2)

theorem splitChars_of_not_mem (run : List Char) (h : '/' ∉ run) : splitChars run = [run] := by
  induction run with
  | nil => rfl
  | cons c run ih =>
    simp only [List.mem_cons, not_or] at h
    exact splitChars_cons (Ne.symm h.1) (ih h.2)

theorem splitChars_intercalate (runs : List (List Char)) (hne : runs ≠ [])
    (h : ∀ run ∈ runs, '/' ∉ run) : splitChars (List.intercalate ['/'] runs) = runs := by
  induction runs with
  | nil => exact absurd rfl hne
  | cons run more ih =>
    cases more with
    | nil =>
      simp only [List.intercalate, List.intersperse, List.flatten_cons, List.flatten_nil,
        List.append_nil]
      exact splitChars_of_not_mem run (h run (by simp))
    | cons run' more =>
      rw [intercalate_cons_cons, List.append_assoc, List.singleton_append,
        splitChars_append_slash run _ (h run (by simp))]
      rw [ih (by simp) fun r hr => h r (List.mem_cons_of_mem _ hr)]

/-- Levels without a slash are found again. -/
theorem split_join (levels : List String) (hne : levels ≠ [])
    (h : ∀ level ∈ levels, '/' ∉ level.toList) : split (join levels) = levels := by
  have hmap : ∀ run ∈ levels.map String.toList, '/' ∉ run := by
    intro run hr
    obtain ⟨level, hl, rfl⟩ := List.mem_map.1 hr
    exact h level hl
  simp [split, join, splitChars_intercalate _ (by simpa using hne) hmap, Function.comp_def]

/-! ### Levels of a pattern -/

/-- A level of a pattern. -/
inductive Level where
  /-- A level that stands for itself. -/
  | literal (text : String)
  /-- `+`: any one level. -/
  | single
  /-- `#`: all levels from here on. -/
  | multi
  deriving DecidableEq, Repr

namespace Level

/-- The level that a text stands for. -/
def ofText (s : String) : Level :=
  if s = "+" then single else if s = "#" then multi else literal s

/-- How a level is written. -/
def text : Level → String
  | literal s => s
  | single => "+"
  | multi => "#"

/-- Whether a level stands for more than itself. -/
def isWildcard : Level → Bool
  | literal _ => false
  | single => true
  | multi => true

@[simp] theorem text_ofText (s : String) : (ofText s).text = s := by
  unfold ofText
  split
  · simp_all [text]
  · split <;> simp_all [text]

end Level

/-- The levels of a text, whether or not it is a pattern. -/
def levels (s : String) : List Level := (split s).map Level.ofText

/-! ### The ends of a text -/

/-- A text without the slashes at its two ends; `none` if nothing is left. -/
def trimmed? (s : String) : Option String :=
  let front := s.toList.dropWhile (· = '/')
  let inner := (front.reverse.dropWhile (· = '/')).reverse
  if inner.isEmpty then none else some (String.ofList inner)

end TopicBridge.Topic
