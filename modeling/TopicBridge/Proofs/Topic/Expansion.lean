/-
**Matching is the inverse of expansion.**

A list of captures expands a pattern to the levels of a topic: each wildcard is replaced by the
levels of its capture.  Matching finds exactly the captures that expand the pattern to the topic,
and filling a template joins the levels to which the captures expand it.

Main definitions:

* `TopicBridge.Topic.levelsOf` — the levels of a captured text;
* `Topic.expand` — the levels to which captures expand a pattern;
* `Topic.Captured` — the captures that fit the wildcards of a pattern;
* `Topic.Proper` — what the levels of a pattern have in common.

Main results:

* `Pattern.proper` — the levels of a pattern are proper;
* `Topic.matchLevels_eq_some_iff` — **matching is the inverse of expansion**;
* `Topic.captured_iff_of_wildcards` — whether captures fit depends on the wildcards only;
* `Pattern.captures?_eq_some_iff`, `Pattern.fill_eq_ok_iff` — the same for patterns as a whole;
* `Pattern.eq_of_fill_eq` — different captures fill a template with different topics;
* `Pattern.fill_ne_ok_iff` — when captures fill a template with nothing.
-/

import Mathlib.Tactic.ByContra
import Mathlib.Tactic.SplitIfs
import TopicBridge.Topic.Capture

set_option autoImplicit false

namespace TopicBridge

namespace Topic

/-! ### Captures and what they stand for -/

/-- The levels of a captured text.  An empty one stands for none. -/
def levelsOf (c : String) : List String := if c = "" then [] else split c

/-- The levels to which captures expand a pattern. -/
def expand : List Level → List String → List String
  | [], _ => []
  | .literal s :: pattern, captures => s :: expand pattern captures
  | .single :: pattern, c :: captures => c :: expand pattern captures
  | .multi :: pattern, c :: captures => levelsOf c ++ expand pattern captures
  | .single :: pattern, [] => expand pattern []
  | .multi :: pattern, [] => expand pattern []

/-- Captures that fit the wildcards of a pattern: one level for each `+`, and levels that are not
empty, if any, for `#`. -/
def Captured : List Level → List String → Prop
  | [], captures => captures = []
  | .literal _ :: pattern, captures => Captured pattern captures
  | .single :: pattern, c :: captures => c ≠ "" ∧ '/' ∉ c.toList ∧ Captured pattern captures
  | .multi :: pattern, c :: captures => "" ∉ levelsOf c ∧ Captured pattern captures
  | .single :: _, [] => False
  | .multi :: _, [] => False

/-- What the levels of a pattern have in common: a literal is neither empty nor does it hold a
slash or a wildcard, and nothing follows a `#`. -/
def Proper : List Level → Prop
  | [] => True
  | .literal s :: pattern =>
      s ≠ "" ∧ '/' ∉ s.toList ∧ '+' ∉ s.toList ∧ '#' ∉ s.toList ∧ Proper pattern
  | .single :: pattern => Proper pattern
  | .multi :: pattern => pattern = []

@[simp] theorem levelsOf_empty : levelsOf "" = [] := rfl

theorem levelsOf_of_ne {c : String} (h : c ≠ "") : levelsOf c = split c := if_neg h

@[simp] theorem join_levelsOf (c : String) : join (levelsOf c) = c := by
  by_cases h : c = ""
  · subst h; rfl
  · rw [levelsOf_of_ne h, join_split]

/-! ### Joining -/

@[simp] theorem join_nil : join [] = "" := rfl

@[simp] theorem join_singleton (level : String) : join [level] = level := by
  simp [join, List.intercalate]

theorem toList_join_cons_cons (a b : String) (levels : List String) :
    (join (a :: b :: levels)).toList = a.toList ++ '/' :: (join (b :: levels)).toList := by
  simp [join]

theorem join_cons_cons (a b : String) (levels : List String) :
    join (a :: b :: levels) = a ++ "/" ++ join (b :: levels) := by
  refine String.toList_inj.1 ?_
  rw [toList_join_cons_cons]
  simp

/-- The characters of a joined text are slashes and the characters of the levels. -/
theorem mem_join {levels : List String} {x : Char} (hx : x ∈ (join levels).toList) :
    x = '/' ∨ ∃ level ∈ levels, x ∈ level.toList := by
  induction levels with
  | nil => simp at hx
  | cons a levels ih =>
      cases levels with
      | nil => exact Or.inr ⟨a, by simp, by simpa using hx⟩
      | cons b levels =>
          rw [toList_join_cons_cons, List.mem_append, List.mem_cons] at hx
          rcases hx with hx | rfl | hx
          · exact Or.inr ⟨a, by simp, hx⟩
          · exact Or.inl rfl
          · rcases ih hx with rfl | ⟨level, hl, hx⟩
            · exact Or.inl rfl
            · exact Or.inr ⟨level, List.mem_cons_of_mem _ hl, hx⟩

theorem mem_join_of_mem {levels : List String} {level : String} (hl : level ∈ levels) {x : Char}
    (hx : x ∈ level.toList) : x ∈ (join levels).toList := by
  induction levels with
  | nil => simp at hl
  | cons a levels ih =>
      cases levels with
      | nil => simpa [List.mem_singleton.1 hl] using hx
      | cons b levels =>
          rw [toList_join_cons_cons, List.mem_append, List.mem_cons]
          rcases List.mem_cons.1 hl with rfl | hl
          · exact Or.inl hx
          · exact Or.inr (Or.inr (ih hl))

/-- A run of levels in the place of one. -/
theorem join_append {front back : List String} (hf : front ≠ []) (hb : back ≠ []) :
    join (front ++ back) = join front ++ "/" ++ join back := by
  induction front with
  | nil => exact absurd rfl hf
  | cons a front ih =>
      cases front with
      | nil =>
          obtain ⟨b, back, rfl⟩ := List.exists_cons_of_ne_nil hb
          simp [join_cons_cons]
      | cons a' front =>
          have h := ih (by simp)
          rw [List.cons_append, List.cons_append, join_cons_cons, ← List.cons_append, h,
            join_cons_cons]
          simp [String.append_assoc]

/-- Splitting the texts that are joined changes nothing. -/
theorem join_flatMap_split (texts : List String) : join (texts.flatMap split) = join texts := by
  induction texts with
  | nil => rfl
  | cons a texts ih =>
      cases texts with
      | nil => simp
      | cons b texts =>
          have hne : (b :: texts).flatMap split ≠ [] := by
            simp [List.flatMap_cons, split_ne_nil]
          rw [List.flatMap_cons, join_append (split_ne_nil a) hne, ih, join_split, join_cons_cons]

/-! ### Splitting -/

theorem slash_not_mem_of_mem_splitChars {cs run : List Char} (h : run ∈ splitChars cs) :
    '/' ∉ run := by
  induction cs generalizing run with
  | nil => simp_all
  | cons c cs ih =>
      obtain ⟨first, more, hs⟩ := List.exists_cons_of_ne_nil (splitChars_ne_nil cs)
      by_cases hc : c = '/'
      · subst hc
        rw [splitChars_slash, List.mem_cons] at h
        rcases h with rfl | h
        · simp
        · exact ih h
      · rw [splitChars_cons hc hs, List.mem_cons] at h
        rcases h with rfl | h
        · have hfirst : '/' ∉ first := ih (by rw [hs]; exact List.mem_cons_self ..)
          simp only [List.mem_cons, not_or]
          exact ⟨fun he => hc he.symm, hfirst⟩
        · exact ih (by rw [hs]; exact List.mem_cons_of_mem _ h)

/-- No level of a text holds a slash. -/
theorem slash_not_mem_of_mem_split {s level : String} (h : level ∈ split s) :
    '/' ∉ level.toList := by
  obtain ⟨run, hr, rfl⟩ := List.mem_map.1 h
  rw [String.toList_ofList]
  exact slash_not_mem_of_mem_splitChars hr

theorem split_of_not_mem {s : String} (h : '/' ∉ s.toList) : split s = [s] := by
  simp [split, splitChars_of_not_mem _ h]

theorem slash_not_mem_of_mem_levelsOf {c level : String} (h : level ∈ levelsOf c) :
    '/' ∉ level.toList := by
  by_cases hc : c = ""
  · simp [hc] at h
  · rw [levelsOf_of_ne hc] at h
    exact slash_not_mem_of_mem_split h

theorem join_ne_empty {levels : List String} (hne : levels ≠ []) (he : "" ∉ levels) :
    join levels ≠ "" := by
  obtain ⟨a, more, rfl⟩ := List.exists_cons_of_ne_nil hne
  have ha : a ≠ "" := by rintro rfl; simp at he
  obtain ⟨x, hx⟩ := List.exists_mem_of_ne_nil _ (mt String.toList_eq_nil_iff.1 ha)
  have hmem := mem_join_of_mem (List.mem_cons_self (a := a) (l := more)) hx
  intro h
  simp [h] at hmem

/-- Levels of which none is empty are those of the text that they make up. -/
theorem levelsOf_join {levels : List String} (hs : ∀ level ∈ levels, '/' ∉ level.toList)
    (he : "" ∉ levels) : levelsOf (join levels) = levels := by
  by_cases hne : levels = []
  · subst hne; rfl
  · rw [levelsOf_of_ne (join_ne_empty hne he), split_join _ hne hs]

/-! ### Matching -/

/-- The levels that a topic has under a proper pattern hold no slash. -/
theorem slash_not_mem_of_mem_expand {pattern : List Level} (hp : Proper pattern)
    {captures : List String} (hc : Captured pattern captures) {level : String}
    (h : level ∈ expand pattern captures) : '/' ∉ level.toList := by
  induction pattern, captures using expand.induct with
  | case1 captures => simp [expand] at h
  | case2 s pattern captures ih =>
      rcases List.mem_cons.1 h with rfl | h
      · exact hp.2.1
      · exact ih hp.2.2.2.2 hc h
  | case3 pattern c captures ih =>
      rcases List.mem_cons.1 h with rfl | h
      · exact hc.2.1
      · exact ih hp hc.2.2 h
  | case4 pattern c captures ih =>
      rcases List.mem_append.1 h with h | h
      · exact slash_not_mem_of_mem_levelsOf h
      · obtain rfl : pattern = [] := hp
        simp [expand] at h
  | case5 pattern ih => exact absurd hc (by simp [Captured])
  | case6 pattern ih => exact absurd hc (by simp [Captured])

/-- None of the levels that a topic has under a proper pattern is empty. -/
theorem empty_not_mem_expand {pattern : List Level} (hp : Proper pattern) {captures : List String}
    (hc : Captured pattern captures) : "" ∉ expand pattern captures := by
  induction pattern, captures using expand.induct with
  | case1 captures => simp [expand]
  | case2 s pattern captures ih =>
      have hs : s ≠ "" := hp.1
      simpa [expand, hs.symm] using ih hp.2.2.2.2 hc
  | case3 pattern c captures ih =>
      have hne : c ≠ "" := hc.1
      simpa [expand, hne.symm] using ih hp hc.2.2
  | case4 pattern c captures ih =>
      obtain rfl : pattern = [] := hp
      simpa [expand] using hc.1
  | case5 pattern ih => exact absurd hc (by simp [Captured])
  | case6 pattern ih => exact absurd hc (by simp [Captured])

/-- The levels to which captures expand a pattern are found again in the text that they make up. -/
theorem split_join_expand {pattern : List Level} (hp : Proper pattern) {captures : List String}
    (hc : Captured pattern captures) (hne : expand pattern captures ≠ []) :
    split (join (expand pattern captures)) = expand pattern captures :=
  split_join _ hne fun _ hl => slash_not_mem_of_mem_expand hp hc hl

/-- **Matching is the inverse of expansion**: the captures of a topic are those that fit the
pattern and expand it to the topic. -/
theorem matchLevels_eq_some_iff {pattern : List Level} (hp : Proper pattern)
    {topic captures : List String} (ht : ∀ level ∈ topic, '/' ∉ level.toList) :
    matchLevels pattern topic = some captures ↔
      Captured pattern captures ∧ expand pattern captures = topic := by
  induction pattern generalizing topic captures with
  | nil => cases topic <;> simp [matchLevels, Captured, expand, eq_comm]
  | cons level pattern ih =>
      cases level with
      | literal s =>
          cases topic with
          | nil => simp [matchLevels, expand]
          | cons a topic =>
              have ht' : ∀ level ∈ topic, '/' ∉ level.toList :=
                fun l hl => ht l (List.mem_cons_of_mem _ hl)
              have hs : s ≠ "" := hp.1
              rw [matchLevels, expand, Captured, List.cons.injEq]
              split
              · rename_i h
                rw [ih hp.2.2.2.2 ht']
                simp [h.2]
              · rename_i h
                have : s ≠ a := by rintro rfl; exact h ⟨hs, rfl⟩
                simp [this]
      | single =>
          cases topic with
          | nil => cases captures <;> simp [matchLevels, expand, Captured]
          | cons a topic =>
              have ht' : ∀ level ∈ topic, '/' ∉ level.toList :=
                fun l hl => ht l (List.mem_cons_of_mem _ hl)
              have ha : '/' ∉ a.toList := ht a (List.mem_cons_self ..)
              rw [matchLevels]
              split
              · rename_i h
                cases captures with
                | nil => simp [Captured]
                | cons c captures =>
                    simp only [Captured, expand, List.cons.injEq, reduceCtorEq, false_iff]
                    rintro ⟨⟨hc, -⟩, rfl, -⟩
                    exact hc h
              · rename_i h
                cases captures with
                | nil => simp [Captured]
                | cons c captures =>
                    simp only [Option.map_eq_some_iff, List.cons.injEq, Captured, expand]
                    constructor
                    · rintro ⟨found, hf, rfl, rfl⟩
                      obtain ⟨hc, he⟩ := (ih hp ht').1 hf
                      exact ⟨⟨h, ha, hc⟩, rfl, he⟩
                    · rintro ⟨⟨-, -, hc⟩, rfl, he⟩
                      exact ⟨captures, (ih hp ht').2 ⟨hc, he⟩, rfl, rfl⟩
      | multi =>
          obtain rfl : pattern = [] := hp
          rw [matchLevels]
          cases captures with
          | nil => split <;> simp [Captured]
          | cons c captures =>
              simp only [Captured, expand, List.append_nil]
              split
              · rename_i h
                simp only [reduceCtorEq, false_iff]
                rintro ⟨⟨hc, -⟩, rfl⟩
                exact hc (by simpa using h)
              · rename_i h
                have he : "" ∉ topic := by simpa using h
                simp only [Option.some.injEq, List.cons.injEq]
                constructor
                · rintro ⟨rfl, rfl⟩
                  rw [levelsOf_join ht he]
                  exact ⟨⟨he, rfl⟩, rfl⟩
                · rintro ⟨⟨-, rfl⟩, rfl⟩
                  exact ⟨join_levelsOf c, rfl⟩

/-- Only `#` expands to no level. -/
theorem eq_of_expand_eq_nil {pattern : List Level} (hp : Proper pattern) {captures : List String}
    (hc : Captured pattern captures) (h : expand pattern captures = []) :
    pattern = [] ∨ pattern = [.multi] := by
  cases pattern with
  | nil => exact Or.inl rfl
  | cons level pattern =>
      cases level with
      | literal s => simp [expand] at h
      | single =>
          cases captures with
          | nil => exact absurd hc (by simp [Captured])
          | cons c captures => simp [expand] at h
      | multi =>
          obtain rfl : pattern = [] := hp
          exact Or.inr rfl

/-! ### Wildcards -/

/-- Whether captures fit depends on the wildcards only. -/
theorem captured_filter_isWildcard (pattern : List Level) (captures : List String) :
    Captured (pattern.filter Level.isWildcard) captures ↔ Captured pattern captures := by
  induction pattern generalizing captures with
  | nil => rfl
  | cons level pattern ih =>
      cases level with
      | literal s =>
          rw [List.filter_cons_of_neg (by simp [Level.isWildcard]), ih, Captured]
      | single =>
          rw [List.filter_cons_of_pos rfl]
          cases captures <;> simp [Captured, ih]
      | multi =>
          rw [List.filter_cons_of_pos rfl]
          cases captures <;> simp [Captured, ih]

theorem captured_iff_of_wildcards {pattern template : List Level}
    (h : pattern.filter Level.isWildcard = template.filter Level.isWildcard)
    (captures : List String) : Captured pattern captures ↔ Captured template captures := by
  rw [← captured_filter_isWildcard, h, captured_filter_isWildcard]

/-- Captures that fit are as many as the wildcards. -/
theorem Captured.length_eq {pattern : List Level} {captures : List String}
    (h : Captured pattern captures) :
    captures.length = (pattern.filter Level.isWildcard).length := by
  induction pattern generalizing captures with
  | nil => simp_all [Captured]
  | cons level pattern ih =>
      cases level with
      | literal s =>
          rw [List.filter_cons_of_neg (by simp [Level.isWildcard])]
          exact ih h
      | single =>
          cases captures with
          | nil => exact absurd h (by simp [Captured])
          | cons c captures =>
              rw [List.filter_cons_of_pos rfl, List.length_cons, List.length_cons, ih h.2.2]
      | multi =>
          cases captures with
          | nil => exact absurd h (by simp [Captured])
          | cons c captures =>
              rw [List.filter_cons_of_pos rfl, List.length_cons, List.length_cons, ih h.2]

/-! ### Filling -/

/-- The texts that fill a template, without empty ones, are made up of its levels. -/
theorem flatMap_split_fill {pattern : List Level} (hp : Proper pattern) {captures : List String}
    (hc : Captured pattern captures) :
    ((fill pattern captures).filter (· ≠ "")).flatMap split = expand pattern captures := by
  induction pattern, captures using expand.induct with
  | case1 captures => rfl
  | case2 s pattern captures ih =>
      have hs : s ≠ "" := hp.1
      simp [fill, expand, hs, split_of_not_mem hp.2.1, ← ih hp.2.2.2.2 hc]
  | case3 pattern c captures ih =>
      have hne : c ≠ "" := hc.1
      simp [fill, expand, hne, split_of_not_mem hc.2.1, ← ih hp hc.2.2]
  | case4 pattern c captures ih =>
      have hp' : pattern = [] := hp
      have ih' := ih (by simp [hp', Proper]) hc.2
      by_cases hne : c = ""
      · simp [fill, expand, hne, ← ih']
      · simp [fill, expand, hne, levelsOf_of_ne hne, ← ih']
  | case5 pattern ih => exact absurd hc (by simp [Captured])
  | case6 pattern ih => exact absurd hc (by simp [Captured])

end Topic

/-! ### Patterns -/

namespace Pattern

open Topic

theorem proper_of_levelsError?_eq_none {levels : List String}
    (hs : ∀ level ∈ levels, '/' ∉ level.toList) (h : levelsError? levels = none) :
    Proper (levels.map Level.ofText) := by
  induction levels with
  | nil => trivial
  | cons a levels ih =>
      rw [levelsError?] at h
      split at h
      · simp at h
      · rename_i ha
        have ih' := ih (fun l hl => hs l (List.mem_cons_of_mem _ hl)) h
        have hslash := hs a (List.mem_cons_self ..)
        rw [List.map_cons, Level.ofText]
        split_ifs with h1 h2
        · exact ih'
        · subst h2
          cases levels with
          | nil => rfl
          | cons b levels => exact absurd ha (by simp [levelError?])
        · simp only [levelError?] at ha
          split_ifs at ha with h3 h4 h5
          refine ⟨h3, hslash, ?_, h4, ih'⟩
          intro hplus
          exact h5 ⟨hplus, h1⟩

/-- The levels of a pattern are proper. -/
theorem proper (p : Pattern) : Proper p.levels := by
  have h := p.isPattern
  rw [patternError?] at h
  split at h
  · simp at h
  · exact proper_of_levelsError?_eq_none (fun _ hl => slash_not_mem_of_mem_split hl) h

/-- The captures of a topic name are those that fit and expand the pattern to it. -/
theorem captures?_eq_some_iff {p : Pattern} {topic : String} {captures : List String} :
    p.captures? topic = some captures ↔
      IsName topic ∧ ¬(isReserved topic ∧ p.startsWild) ∧ Captured p.levels captures ∧
        expand p.levels captures = split topic := by
  rw [captures?, ite_not]
  split_ifs with h1 h2
  · simp only [false_iff]
    exact fun h => h.2.1 h2
  · rw [matchLevels_eq_some_iff p.proper fun _ hl => slash_not_mem_of_mem_split hl]
    simp only [h1, h2, not_false_eq_true, true_and]
  · simp [h1]

/-- The captures of a topic are those of its levels. -/
theorem matchLevels_of_captures? {p : Pattern} {topic : String} {captures : List String}
    (h : p.captures? topic = some captures) :
    matchLevels p.levels (split topic) = some captures := by
  obtain ⟨-, -, hc, he⟩ := captures?_eq_some_iff.1 h
  exact (matchLevels_eq_some_iff p.proper fun _ hl => slash_not_mem_of_mem_split hl).2 ⟨hc, he⟩

/-- Captures that fit fill a template with the levels to which they expand it, if there are any. -/
theorem fill_eq_ok_iff {template : Pattern} {captures : List String}
    (hc : Captured template.levels captures) {topic : String} :
    template.fill captures = .ok topic ↔
      expand template.levels captures ≠ [] ∧ topic = join (expand template.levels captures) := by
  have hl : captures.length = template.wildcards.length := hc.length_eq
  rw [fill, if_neg (fun hne => hne hl), ← flatMap_split_fill template.proper hc, join_flatMap_split]
  cases h : (Topic.fill template.levels captures).filter (· ≠ "") with
  | nil => simp
  | cons a texts =>
      have hne : (a :: texts).flatMap split ≠ [] := by simp [List.flatMap_cons, split_ne_nil]
      simp only [Except.ok.injEq, hne, ne_eq, not_false_eq_true, true_and]
      exact eq_comm

/-- The levels of a filled template are those to which the captures expand it. -/
theorem split_of_fill {template : Pattern} {captures : List String}
    (hc : Captured template.levels captures) {topic : String}
    (hf : template.fill captures = .ok topic) : split topic = expand template.levels captures := by
  obtain ⟨hne, rfl⟩ := (fill_eq_ok_iff hc).1 hf
  exact split_join_expand template.proper hc hne

/-- **Different captures fill a template with different topics.** -/
theorem eq_of_fill_eq {template : Pattern} {captures captures' : List String}
    (hc : Captured template.levels captures) (hc' : Captured template.levels captures')
    {topic : String} (hf : template.fill captures = .ok topic)
    (hf' : template.fill captures' = .ok topic) : captures = captures' := by
  have hslash : ∀ level ∈ split topic, '/' ∉ level.toList :=
    fun _ hl => slash_not_mem_of_mem_split hl
  have hm : matchLevels template.levels (split topic) = some captures :=
    (matchLevels_eq_some_iff template.proper hslash).2 ⟨hc, (split_of_fill hc hf).symm⟩
  have hm' : matchLevels template.levels (split topic) = some captures' :=
    (matchLevels_eq_some_iff template.proper hslash).2 ⟨hc', (split_of_fill hc' hf').symm⟩
  exact Option.some.inj (hm.symm.trans hm')

/-- A template is right for a pattern if the wildcards are the same. -/
theorem checkTemplate_eq_ok_iff {p template : Pattern} :
    p.checkTemplate template = .ok () ↔ p.wildcards = template.wildcards := by
  rw [checkTemplate]
  split_ifs with h <;> simp [h]

/-! ### Templates that are filled with nothing -/

theorem levels_eq_multi_iff {p : Pattern} : p.levels = [.multi] ↔ p.text = "#" := by
  constructor
  · intro h
    rw [← p.join_text_levels, h]
    rfl
  · intro h
    rw [levels, h]
    rfl

/-- Only the pattern `#` expands to no level. -/
theorem text_of_expand_eq_nil {p : Pattern} {captures : List String}
    (hc : Captured p.levels captures) (h : expand p.levels captures = []) : p.text = "#" := by
  have hne : p.levels ≠ [] := by simp [levels, Topic.levels, split_ne_nil]
  exact levels_eq_multi_iff.1 ((eq_of_expand_eq_nil p.proper hc h).resolve_left hne)

theorem fill_ne_ok_iff {template : Pattern} {captures : List String}
    (hc : Captured template.levels captures) :
    (∀ topic, template.fill captures ≠ .ok topic) ↔ template.text = "#" ∧ captures = [""] := by
  have hfill : (∀ topic, template.fill captures ≠ .ok topic) ↔
      expand template.levels captures = [] := by
    constructor
    · intro h
      by_contra hne
      exact h _ ((fill_eq_ok_iff hc).2 ⟨hne, rfl⟩)
    · intro h topic hok
      exact ((fill_eq_ok_iff hc).1 hok).1 h
  rw [hfill]
  constructor
  · intro h
    have htext : template.text = "#" := text_of_expand_eq_nil hc h
    refine ⟨htext, ?_⟩
    rw [levels_eq_multi_iff.2 htext] at hc h
    cases captures with
    | nil => exact absurd hc (by simp [Captured])
    | cons c captures =>
        obtain rfl : captures = [] := hc.2
        have hc' : levelsOf c = [] := by simpa [expand] using h
        rw [← join_levelsOf c, hc']
        rfl
  · rintro ⟨htext, rfl⟩
    rw [levels_eq_multi_iff.2 htext]
    rfl

/-- A template that is filled with nothing is refused as empty. -/
theorem fill_multi_nothing {template : Pattern} (h : template.text = "#") :
    template.fill [""] = .error .empty := by
  have hlevels : template.levels = [.multi] := levels_eq_multi_iff.2 h
  have hwild : template.wildcards = [.multi] := by
    rw [wildcards, hlevels]
    rfl
  simp [fill, hwild, hlevels, Topic.fill]

end Pattern

end TopicBridge
