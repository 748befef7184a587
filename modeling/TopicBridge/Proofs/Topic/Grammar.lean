/-
**Which texts are patterns.**

Whether a text is a pattern is decided level by level, from the left, and its levels are found by
splitting it again.  Here the patterns are told by a grammar instead: a text of some bytes, not too
many, without U+0000, each of whose levels can stand where it stands.  The levels that are found are
the only ones that spell the text, and those of a pattern behind a prefix are the levels of the two
one after the other.

Main definitions:

* `TopicBridge.Topic.Stands` — a level can stand in a pattern, as the last one or before it;
* `Topic.Grammatical` — a text as the grammar has it;
* `Topic.Spells` — some levels are those of a pattern, and the text is how they are written.

Main results:

* `Topic.patternError?_eq_none_iff` — nothing is wrong with a text exactly if it is grammatical;
* `Topic.Spells.eq_levels` — a text is spelled in one way only;
* `Topic.Grammatical.addLevels` — a pattern behind a prefix is a pattern, unless it is too long;
* `Pattern.parse_exact` — **a text is read exactly if it is grammatical, as the levels that spell
  it**.
-/

import TopicBridge.Config.Validation
import TopicBridge.Proofs.Rule.Coverage

set_option autoImplicit false

namespace TopicBridge

namespace Topic

/-! ### The grammar -/

/-- A level can stand in a pattern: it is not empty, and is a `+`, a last `#`, or free of both. -/
def Stands (isLast : Prop) (level : String) : Prop :=
  level ≠ "" ∧
    (level = "+" ∨ level = "#" ∧ isLast ∨ '+' ∉ level.toList ∧ '#' ∉ level.toList)

/-- A text as the grammar of patterns has it. -/
structure Grammatical (s : String) : Prop where
  size_pos : 1 ≤ s.utf8ByteSize
  size_le : s.utf8ByteSize ≤ 65535
  null_not_mem : '\x00' ∉ s.toList
  stands : ∀ i level, (split s)[i]? = some level → Stands (i + 1 = (split s).length) level

/-- Some levels are those of a pattern, and the text is how they are written: a literal has
characters, but neither a slash nor a wildcard, and nothing follows a `#`. -/
structure Spells (levels : List Level) (s : String) : Prop where
  ne_nil : levels ≠ []
  join_eq : join (levels.map Level.text) = s
  literal : ∀ t, .literal t ∈ levels →
    t ≠ "" ∧ '/' ∉ t.toList ∧ '+' ∉ t.toList ∧ '#' ∉ t.toList
  multi : ∀ i, levels[i]? = some .multi → i + 1 = levels.length

variable {s t front level : String} {levels : List Level} {parts : List String}

/-! ### Texts that are accepted -/

theorem levelError?_eq_none_iff {isLast : Bool} :
    levelError? isLast level = none ↔ Stands (isLast = true) level := by
  have hplus : '+' ∈ "+".toList := by decide
  have hhash : '#' ∈ "#".toList := by decide
  rw [levelError?, Stands]
  split_ifs with hempty hmem hne hlast hpartial
  · exact iff_of_false (by intro h; cases h) fun h => h.1 hempty
  · -- a `#` that does not stand alone
    refine iff_of_false (by intro h; cases h) ?_
    rintro ⟨-, rfl | ⟨rfl, -⟩ | ⟨-, hfree⟩⟩
    · exact absurd hmem (by decide)
    · exact hne rfl
    · exact hfree hmem
  · exact iff_of_true rfl ⟨hempty, .inr (.inl ⟨not_not.1 hne, hlast⟩)⟩
  · -- a `#` that stands before the last level
    refine iff_of_false (by intro h; cases h) ?_
    rintro ⟨-, rfl | ⟨-, h⟩ | ⟨-, hfree⟩⟩
    · exact absurd hmem (by decide)
    · exact hlast h
    · exact hfree hmem
  · -- a `+` that does not stand alone
    refine iff_of_false (by intro h; cases h) ?_
    rintro ⟨-, hsingle | ⟨rfl, -⟩ | ⟨hfree, -⟩⟩
    · exact hpartial.2 hsingle
    · exact hmem hhash
    · exact hfree hpartial.1
  · refine iff_of_true rfl ⟨hempty, ?_⟩
    by_cases hsingle : level = "+"
    · exact .inl hsingle
    · exact .inr (.inr ⟨fun hp => hpartial ⟨hp, hsingle⟩, hmem⟩)

/-- Nothing is wrong with some levels exactly if each can stand where it stands. -/
theorem levelsError?_eq_none_iff :
    levelsError? parts = none ↔
      ∀ i level, parts[i]? = some level → Stands (i + 1 = parts.length) level := by
  induction parts with
  | nil => simp [levelsError?]
  | cons a parts ih =>
      have hfirst :
          levelError? parts.isEmpty a = none ↔ Stands (0 + 1 = (a :: parts).length) a := by
        rw [levelError?_eq_none_iff, List.isEmpty_iff_length_eq_zero, List.length_cons,
          Nat.zero_add, eq_comm (a := 1), Nat.add_eq_right]
      have hnone : levelsError? (a :: parts) = none ↔
          levelError? parts.isEmpty a = none ∧ levelsError? parts = none := by
        rw [levelsError?]
        split
        · rename_i he
          simp [he]
        · rename_i he
          simp [he]
      rw [hnone, hfirst, ih]
      constructor
      · rintro ⟨hhead, htail⟩ i level hi
        cases i with
        | zero =>
            obtain rfl : a = level := by simpa using hi
            exact hhead
        | succ i =>
            have h := htail i level (by simpa using hi)
            rwa [List.length_cons, Nat.add_left_inj]
      · intro h
        refine ⟨h 0 a rfl, fun i level hi => ?_⟩
        have h' := h (i + 1) level (by simpa using hi)
        rwa [List.length_cons, Nat.add_left_inj] at h'

theorem textError?_eq_none_iff :
    textError? s = none ↔
      1 ≤ s.utf8ByteSize ∧ s.utf8ByteSize ≤ 65535 ∧ '\x00' ∉ s.toList := by
  have hpos : 1 ≤ s.utf8ByteSize ↔ s ≠ "" := by
    rw [Nat.one_le_iff_ne_zero, ne_eq, ne_eq, String.utf8ByteSize_eq_zero_iff]
  rw [textError?, hpos, maxSize]
  split_ifs with hempty hlong hnull
  · exact iff_of_false (by intro h; cases h) fun h => h.1 hempty
  · exact iff_of_false (by intro h; cases h) fun h => by omega
  · exact iff_of_false (by intro h; cases h) fun h => h.2.2 hnull
  · exact iff_of_true rfl ⟨hempty, Nat.not_lt.1 hlong, hnull⟩

/-- Nothing is wrong with a text exactly if it is grammatical. -/
theorem patternError?_eq_none_iff : patternError? s = none ↔ Grammatical s := by
  have hboth : patternError? s = none ↔
      textError? s = none ∧ levelsError? (split s) = none := by
    rw [patternError?]
    split
    · rename_i he
      simp [he]
    · rename_i he
      simp [he]
  rw [hboth, textError?_eq_none_iff, levelsError?_eq_none_iff]
  constructor
  · rintro ⟨⟨hpos, hle, hnull⟩, hstands⟩
    exact ⟨hpos, hle, hnull, hstands⟩
  · rintro ⟨hpos, hle, hnull, hstands⟩
    exact ⟨⟨hpos, hle, hnull⟩, hstands⟩

/-! ### Levels that are found -/

theorem Level.ofText_eq_literal_iff :
    Level.ofText level = .literal t ↔ level = t ∧ t ≠ "+" ∧ t ≠ "#" := by
  rw [Level.ofText]
  split_ifs with hplus hhash
  · refine iff_of_false (by intro h; cases h) ?_
    rintro ⟨rfl, hne, -⟩
    exact hne hplus
  · refine iff_of_false (by intro h; cases h) ?_
    rintro ⟨rfl, -, hne⟩
    exact hne hhash
  · rw [Level.literal.injEq]
    constructor
    · rintro rfl
      exact ⟨rfl, hplus, hhash⟩
    · exact fun h => h.1

theorem Level.ofText_eq_multi_iff : Level.ofText level = .multi ↔ level = "#" := by
  rw [Level.ofText]
  split_ifs with hplus hhash
  · exact iff_of_false (by intro h; cases h) (by rw [hplus]; decide)
  · exact iff_of_true rfl hhash
  · exact iff_of_false (by intro h; cases h) hhash

theorem Level.ofText_text {level : Level}
    (h : ∀ t, level = .literal t → '+' ∉ t.toList ∧ '#' ∉ t.toList) :
    Level.ofText level.text = level := by
  cases level with
  | literal t =>
      obtain ⟨hplus, hhash⟩ := h t rfl
      refine Level.ofText_eq_literal_iff.2 ⟨rfl, ?_, ?_⟩
      · rintro rfl
        exact hplus (by decide)
      · rintro rfl
        exact hhash (by decide)
  | single => rfl
  | multi => rfl

/-- A grammatical text is spelled by the levels that are found in it. -/
theorem Grammatical.spells (h : Grammatical s) : Spells (Topic.levels s) s where
  ne_nil := by
    rw [Topic.levels, ne_eq, List.map_eq_nil_iff]
    exact split_ne_nil s
  join_eq := by simp [Topic.levels, Function.comp_def]
  literal := by
    intro t ht
    obtain ⟨level, hlevel, htext⟩ := List.mem_map.1 ht
    obtain ⟨rfl, hplus, hhash⟩ := Level.ofText_eq_literal_iff.1 htext
    obtain ⟨i, hi⟩ := List.getElem?_of_mem hlevel
    obtain ⟨hempty, hsingle | ⟨hmulti, -⟩ | hfree⟩ := h.stands i level hi
    · exact absurd hsingle hplus
    · exact absurd hmulti hhash
    · exact ⟨hempty, slash_not_mem_of_mem_split hlevel, hfree⟩
  multi := by
    intro i hi
    rw [Topic.levels, List.getElem?_map, Option.map_eq_some_iff] at hi
    obtain ⟨level, hlevel, hmulti⟩ := hi
    obtain rfl := Level.ofText_eq_multi_iff.1 hmulti
    rw [Topic.levels, List.length_map]
    obtain ⟨-, hsingle | ⟨-, hlast⟩ | ⟨-, hfree⟩⟩ := h.stands i _ hlevel
    · exact absurd hsingle (by decide)
    · exact hlast
    · exact absurd hfree (by decide)

/-- Levels that spell a text are those that are found in it. -/
theorem Spells.eq_levels (h : Spells levels s) : levels = Topic.levels s := by
  have hslash : ∀ text ∈ levels.map Level.text, '/' ∉ text.toList := by
    intro text htext
    obtain ⟨level, hlevel, rfl⟩ := List.mem_map.1 htext
    cases level with
    | literal t => exact (h.literal t hlevel).2.1
    | single => decide
    | multi => decide
  have hsplit : split s = levels.map Level.text := by
    rw [← h.join_eq]
    exact split_join _ (by simpa using h.ne_nil) hslash
  rw [Topic.levels, hsplit, List.map_map, List.map_congr_left, List.map_id]
  intro level hlevel
  refine Level.ofText_text fun t ht => ?_
  exact (h.literal t (ht ▸ hlevel)).2.2

/-- A `#` that is never followed by anything occurs once at most. -/
theorem count_multi_le_one (h : ∀ i, levels[i]? = some .multi → i + 1 = levels.length) :
    levels.count .multi ≤ 1 := by
  induction levels with
  | nil => exact Nat.zero_le 1
  | cons level levels ih =>
      by_cases hmulti : level = .multi
      · have hlast : 0 + 1 = (level :: levels).length := h 0 (by rw [hmulti]; rfl)
        rw [List.length_cons, Nat.add_right_cancel_iff] at hlast
        rw [List.length_eq_zero_iff.1 hlast.symm]
        exact List.count_le_length
      · rw [List.count_cons_of_ne hmulti]
        refine ih fun i hi => ?_
        have hlast := h (i + 1) hi
        rwa [List.length_cons, Nat.add_right_cancel_iff] at hlast

/-! ### Prefixes -/

theorem prefixError?_eq_none_iff :
    prefixError? front = none ↔ Grammatical front ∧ hasWildcard front = false := by
  rw [prefixError?, ← patternError?_eq_none_iff]
  split
  · rename_i he
    simp [he]
  · rename_i he
    simp [he]

/-- A pattern behind a text without wildcards that is itself a pattern. -/
theorem Grammatical.addLevels (hf : Grammatical front) (hw : hasWildcard front = false)
    (hs : Grammatical s) (hsize : (addLevels front s).utf8ByteSize ≤ 65535) :
    Grammatical (addLevels front s) where
  size_pos := by
    rw [utf8ByteSize_addLevels]
    omega
  size_le := hsize
  null_not_mem := by
    rw [toList_addLevels, List.mem_append, List.mem_cons]
    rintro (h | h | h)
    · exact hf.null_not_mem h
    · cases h
    · exact hs.null_not_mem h
  stands := by
    intro i level hi
    rw [split_addLevels] at hi ⊢
    rw [List.length_append]
    rcases Nat.lt_or_ge i (split front).length with hlt | hge
    · -- a level of the prefix is a literal, and can stand anywhere
      rw [List.getElem?_append_left hlt] at hi
      have hliteral : .literal level ∈ Topic.levels front := by
        rw [levels_of_hasWildcard_eq_false hw]
        exact List.mem_map_of_mem (List.mem_of_getElem? hi)
      obtain ⟨hempty, -, hfree⟩ := hf.spells.literal level hliteral
      exact ⟨hempty, .inr (.inr hfree)⟩
    · rw [List.getElem?_append_right hge] at hi
      obtain ⟨hempty, hsingle | ⟨hmulti, hlast⟩ | hfree⟩ := hs.stands _ level hi
      · exact ⟨hempty, .inl hsingle⟩
      · exact ⟨hempty, .inr (.inl ⟨hmulti, by omega⟩)⟩
      · exact ⟨hempty, .inr (.inr hfree)⟩

end Topic

/-! ### Patterns -/

namespace Pattern

open Topic

variable {s : String} {p : Pattern}

theorem exists_parse_iff : (∃ p, parse s = .ok p) ↔ Grammatical s := by
  rw [← patternError?_eq_none_iff]
  constructor
  · rintro ⟨p, hp⟩
    rw [← parse_eq_ok_iff.1 hp]
    exact p.isPattern
  · intro h
    exact ⟨⟨s, h⟩, parse_eq_ok_iff.2 rfl⟩

theorem levels_of_parse (h : parse s = .ok p) : p.levels = Topic.levels s := by
  rw [Pattern.levels, parse_eq_ok_iff.1 h]

/-- A text is read as a pattern exactly if it is grammatical.  The levels of the pattern spell the
text, no other levels do, and there is one `#` at most.  Behind a prefix that has been checked the
text is read again, unless the two are too long together: the levels of the prefix, all of them
literals, come first, and then those of the pattern. -/
theorem parse_exact (s : String) :
    ((∃ p, parse s = .ok p) ↔ Grammatical s) ∧
      (∀ p, parse s = .ok p →
        Spells p.levels s ∧ p.levels.count .multi ≤ 1 ∧
          ∀ levels, Spells levels s → levels = p.levels) ∧
      ∀ front p, prefixError? front = none → parse s = .ok p →
        (addLevels front s).utf8ByteSize ≤ 65535 →
        ∃ f q, parse front = .ok f ∧ f.levels = (split front).map .literal ∧
          parse (addLevels front s) = .ok q ∧ q.levels = f.levels ++ p.levels := by
  refine ⟨exists_parse_iff, ?_, ?_⟩
  · intro p hp
    have hspells : Spells p.levels s := by
      rw [levels_of_parse hp]
      exact (exists_parse_iff.1 ⟨p, hp⟩).spells
    refine ⟨hspells, count_multi_le_one hspells.multi, fun levels h => ?_⟩
    rw [h.eq_levels, levels_of_parse hp]
  · intro front p hfront hp hsize
    obtain ⟨hgrammar, hwild⟩ := prefixError?_eq_none_iff.1 hfront
    obtain ⟨f, hf⟩ := exists_parse_iff.2 hgrammar
    obtain ⟨q, hq⟩ := exists_parse_iff.2
      (hgrammar.addLevels hwild (exists_parse_iff.1 ⟨p, hp⟩) hsize)
    refine ⟨f, q, hf, ?_, hq, ?_⟩
    · rw [levels_of_parse hf, levels_of_hasWildcard_eq_false hwild]
    · rw [levels_of_parse hq, levels_of_parse hf, levels_of_parse hp, Topic.levels,
        split_addLevels, List.map_append]
      rfl

end Pattern

end TopicBridge
