/-
**Matching, level by level.**

Which topics a pattern matches can be said by numbers.  The levels in front of the `#`, or all
levels if there is none, are compared with as many levels of the topic, each with the one in its
place; a `#` takes the levels that are left, and without a `#` there must not be any.  Both ways of
matching a topic, over lists of levels and along the text, come to that.

Main definitions:

* `Topic.fixed` — the levels of a pattern in front of its `#`;
* `Topic.Agrees` — a list of levels is what a pattern asks for;
* `Topic.taken` — what the wildcards of a pattern stand for.

Main results:

* `Topic.matchLevels_eq_some_iff_agrees` — matching compares the levels in their places;
* `Topic.scan_eq` — so does reading along the text;
* `Pattern.captures?_levelwise` — **matching is the comparison of levels**.
-/

import TopicBridge.Proofs.Topic.Expansion
import TopicBridge.Topic.Scan

set_option autoImplicit false

namespace TopicBridge

namespace Topic

/-! ### The comparison -/

/-- A level of a pattern admits a level of a topic. -/
def Level.Admits : Level → String → Prop
  | literal s, part => part = s
  | single, _ => True
  | multi, _ => True

theorem Level.literal_ne_multi (s : String) : literal s ≠ multi := by
  intro h
  cases h

theorem Level.single_ne_multi : single ≠ multi := by
  intro h
  cases h

/-- The levels of a pattern in front of its `#`. -/
def fixed (pattern : List Level) : List Level := pattern.takeWhile (· ≠ .multi)

/-- A list of levels is what a pattern asks for. -/
structure Agrees (pattern : List Level) (topic : List String) : Prop where
  /-- With a `#` there may be more levels than stand in front of it, without one there are just as
  many as in the pattern. -/
  length : if .multi ∈ pattern then (fixed pattern).length ≤ topic.length
    else topic.length = pattern.length
  /-- Each level is admitted by the one in its place. -/
  admits : ∀ (i : Nat) (level : Level) (part : String), (fixed pattern)[i]? = some level →
    topic[i]? = some part → level.Admits part

/-- What the wildcards of a pattern stand for: each `+` for the level in its place, and a `#` for
the levels that are left. -/
def taken (pattern : List Level) (topic : List String) : List String :=
  (((fixed pattern).zip topic).filter fun pair => pair.1 = .single).map (·.2) ++
    if .multi ∈ pattern then [join (topic.drop (fixed pattern).length)] else []

variable {pattern : List Level} {topic : List String}

theorem agrees_nil : Agrees [] topic ↔ topic = [] := by
  constructor
  · intro h
    exact List.length_eq_zero_iff.1 h.length
  · rintro rfl
    exact ⟨rfl, fun i level part hlevel => by cases hlevel⟩

theorem agrees_multi : Agrees (.multi :: pattern) topic := by
  constructor
  · rw [if_pos List.mem_cons_self]
    exact Nat.zero_le _
  · intro i level part hlevel
    cases hlevel

theorem fixed_cons {level : Level} (h : level ≠ .multi) :
    fixed (level :: pattern) = level :: fixed pattern := by
  rw [fixed, List.takeWhile_cons_of_pos (by simpa using h), fixed]

theorem multi_mem_cons {level : Level} (h : level ≠ .multi) :
    .multi ∈ level :: pattern ↔ .multi ∈ pattern := by
  rw [List.mem_cons, or_iff_right h.symm]

theorem not_agrees_nil {level : Level} (h : level ≠ .multi) : ¬Agrees (level :: pattern) [] := by
  intro hagrees
  have hlen := hagrees.length
  rw [fixed_cons h] at hlen
  split at hlen
  · simp at hlen
  · simp at hlen

theorem agrees_cons {level : Level} {part : String} (h : level ≠ .multi) :
    Agrees (level :: pattern) (part :: topic) ↔ level.Admits part ∧ Agrees pattern topic := by
  constructor
  · intro hagrees
    refine ⟨hagrees.admits 0 level part (by rw [fixed_cons h]; rfl) rfl, ?_, ?_⟩
    · have hlen := hagrees.length
      simpa only [fixed_cons h, multi_mem_cons h, List.length_cons, Nat.add_le_add_iff_right,
        Nat.add_right_cancel_iff] using hlen
    · intro i level' part' hlevel hpart
      exact hagrees.admits (i + 1) level' part' (by rw [fixed_cons h]; exact hlevel) hpart
  · rintro ⟨hfirst, hrest⟩
    constructor
    · simpa only [fixed_cons h, multi_mem_cons h, List.length_cons, Nat.add_le_add_iff_right,
        Nat.add_right_cancel_iff] using hrest.length
    · intro i level' part' hlevel hpart
      rw [fixed_cons h] at hlevel
      cases i with
      | zero =>
          cases hlevel
          cases hpart
          exact hfirst
      | succ i => exact hrest.admits i level' part' hlevel hpart

theorem taken_multi : taken (.multi :: pattern) topic = [join topic] := by
  rw [taken, if_pos List.mem_cons_self]
  rfl

theorem taken_literal {s part : String} :
    taken (.literal s :: pattern) (part :: topic) = taken pattern topic := by
  have h : Level.literal s ≠ .multi := Level.literal_ne_multi s
  simp only [taken, fixed_cons h, multi_mem_cons h, List.zip_cons_cons, List.length_cons,
    List.drop_succ_cons]
  rfl

theorem taken_single {part : String} :
    taken (.single :: pattern) (part :: topic) = part :: taken pattern topic := by
  have h : Level.single ≠ .multi := Level.single_ne_multi
  simp only [taken, fixed_cons h, multi_mem_cons h, List.zip_cons_cons, List.length_cons,
    List.drop_succ_cons]
  rfl

/-- **Matching compares the levels in their places**, and none of them may be empty. -/
theorem matchLevels_eq_some_iff_agrees (hp : Proper pattern) {captures : List String} :
    matchLevels pattern topic = some captures ↔
      "" ∉ topic ∧ Agrees pattern topic ∧ captures = taken pattern topic := by
  induction pattern generalizing topic captures with
  | nil =>
      rw [agrees_nil]
      cases topic with
      | nil =>
          constructor
          · intro h
            cases h
            exact ⟨List.not_mem_nil, rfl, rfl⟩
          · rintro ⟨-, -, rfl⟩
            rfl
      | cons part topic =>
          constructor
          · intro h
            cases h
          · rintro ⟨-, h, -⟩
            cases h
  | cons level pattern ih =>
      cases level with
      | multi =>
          rw [matchLevels, taken_multi]
          by_cases hany : topic.any (· = "")
          · rw [if_pos hany]
            refine iff_of_false (Option.some_ne_none captures).symm ?_
            rintro ⟨hfull, -⟩
            exact hfull (by simpa using hany)
          · rw [if_neg hany]
            have hfull : "" ∉ topic := by simpa using hany
            constructor
            · intro h
              cases h
              exact ⟨hfull, agrees_multi, rfl⟩
            · rintro ⟨-, -, rfl⟩
              rfl
      | literal s =>
          have hne : Level.literal s ≠ .multi := Level.literal_ne_multi s
          cases topic with
          | nil =>
              refine iff_of_false (Option.some_ne_none captures).symm ?_
              rintro ⟨-, hagrees, -⟩
              exact not_agrees_nil hne hagrees
          | cons part topic =>
              obtain ⟨hs, -, -, -, hproper⟩ := hp
              rw [matchLevels, taken_literal, agrees_cons hne, List.mem_cons, not_or]
              by_cases hpart : part = s
              · rw [if_pos ⟨hpart ▸ hs, hpart⟩, ih hproper]
                constructor
                · rintro ⟨hfull, hagrees, hcaptures⟩
                  exact ⟨⟨hpart ▸ hs.symm, hfull⟩, ⟨hpart, hagrees⟩, hcaptures⟩
                · rintro ⟨⟨-, hfull⟩, ⟨-, hagrees⟩, hcaptures⟩
                  exact ⟨hfull, hagrees, hcaptures⟩
              · rw [if_neg fun h => hpart h.2]
                exact iff_of_false (Option.some_ne_none captures).symm fun h => hpart h.2.1.1
      | single =>
          have hne : Level.single ≠ .multi := Level.single_ne_multi
          cases topic with
          | nil =>
              refine iff_of_false (Option.some_ne_none captures).symm ?_
              rintro ⟨-, hagrees, -⟩
              exact not_agrees_nil hne hagrees
          | cons part topic =>
              rw [matchLevels, taken_single, agrees_cons hne, List.mem_cons, not_or]
              by_cases hpart : part = ""
              · rw [if_pos hpart]
                exact iff_of_false (Option.some_ne_none captures).symm fun h => h.1.1 hpart.symm
              · rw [if_neg hpart, Option.map_eq_some_iff]
                constructor
                · rintro ⟨found, hfound, rfl⟩
                  obtain ⟨hfull, hagrees, rfl⟩ := (ih hp).1 hfound
                  exact ⟨⟨Ne.symm hpart, hfull⟩, ⟨trivial, hagrees⟩, rfl⟩
                · rintro ⟨⟨-, hfull⟩, ⟨-, hagrees⟩, rfl⟩
                  exact ⟨_, (ih hp).2 ⟨hfull, hagrees, rfl⟩, rfl⟩

/-- A topic that ends where the `#` begins leaves nothing for it. -/
example : matchLevels [.literal "a", .single, .multi] ["a", "b"] = some ["b", ""] := by decide

/-! ### Reading along the text -/

/-- The levels of a topic that have not been read. -/
def Cursor.pending (c : Cursor) : List String := if c.exhausted then [] else split c.remaining

/-- The first slash ends the first run of characters. -/
theorem splitChars_of_splitOnceChars? {cs head tail : List Char}
    (h : splitOnceChars? cs = some (head, tail)) : splitChars cs = head :: splitChars tail := by
  induction cs generalizing head with
  | nil => cases h
  | cons c cs ih =>
      rw [splitOnceChars?] at h
      by_cases hc : c = '/'
      · rw [if_pos hc] at h
        cases h
        rw [hc, splitChars_slash]
      · rw [if_neg hc] at h
        obtain ⟨⟨head', tail'⟩, hcs, hparts⟩ := Option.map_eq_some_iff.1 h
        cases hparts
        exact splitChars_cons hc (ih hcs)

/-- Without a slash there is one run. -/
theorem splitChars_of_splitOnceChars?_eq_none {cs : List Char} (h : splitOnceChars? cs = none) :
    splitChars cs = [cs] := by
  induction cs with
  | nil => rfl
  | cons c cs ih =>
      rw [splitOnceChars?] at h
      by_cases hc : c = '/'
      · rw [if_pos hc] at h
        cases h
      · rw [if_neg hc, Option.map_eq_none_iff] at h
        exact splitChars_cons hc (ih h)

theorem split_of_splitOnce? {s head tail : String} (h : splitOnce? s = some (head, tail)) :
    split s = head :: split tail := by
  obtain ⟨⟨front, back⟩, hparts, hboth⟩ := Option.map_eq_some_iff.1 h
  cases hboth
  rw [split, splitChars_of_splitOnceChars? hparts, split, String.toList_ofList]
  rfl

theorem split_of_splitOnce?_eq_none {s : String} (h : splitOnce? s = none) : split s = [s] := by
  rw [splitOnce?, Option.map_eq_none_iff] at h
  rw [split, splitChars_of_splitOnceChars?_eq_none h, List.map_singleton, String.ofList_toList]

/-- The level that is read is the first of those that have not been read. -/
theorem read?_cases (c : Cursor) :
    (c.read? = none ∧ c.pending = []) ∨
    ∃ head c', c.read? = some (head, c') ∧ c.pending = head :: c'.pending ∧
      c'.captures = c.captures := by
  by_cases hend : c.exhausted
  · exact .inl ⟨by rw [Cursor.read?, if_pos hend], by rw [Cursor.pending, if_pos hend]⟩
  · right
    rw [Cursor.read?, if_neg hend, Cursor.pending, if_neg hend]
    cases hs : splitOnce? c.remaining with
    | some parts =>
        obtain ⟨head, tail⟩ := parts
        refine ⟨head, { c with remaining := tail }, rfl, ?_, rfl⟩
        rw [split_of_splitOnce? hs, Cursor.pending, if_neg hend]
    | none =>
        exact ⟨c.remaining, { c with exhausted := true }, rfl, split_of_splitOnce?_eq_none hs, rfl⟩

/-- **Reading along the text finds what the comparison of levels finds.** -/
theorem scan_eq (pattern : List Level) (c : Cursor) :
    scan pattern c = (matchLevels pattern c.pending).map (c.captures ++ ·) := by
  induction pattern generalizing c with
  | nil =>
      rw [scan]
      by_cases hend : c.exhausted
      · rw [if_pos hend, Cursor.pending, if_pos hend, matchLevels, Option.map_some,
          List.append_nil]
      · obtain ⟨part, rest, hparts⟩ := List.exists_cons_of_ne_nil (split_ne_nil c.remaining)
        rw [if_neg hend, Cursor.pending, if_neg hend, hparts]
        rfl
  | cons level pattern ih =>
      cases level with
      | multi =>
          rw [scan, matchLevels]
          by_cases hend : c.exhausted
          · rw [Cursor.pending, if_pos hend, if_pos hend, hend]
            rfl
          · rw [Cursor.pending, if_neg hend, if_neg hend, join_split, eq_false_of_ne_true hend]
            split
            · rename_i hempty
              rw [if_pos (by simpa using hempty)]
              rfl
            · rename_i hfull
              rw [if_neg (by simpa using hfull)]
              rfl
      | literal expected =>
          rcases read?_cases c with ⟨hread, hpending⟩ | ⟨head, c', hread, hpending, hcaptures⟩
          · rw [scan, hread, hpending]
            rfl
          · rw [scan, hread, hpending]
            dsimp only
            rw [matchLevels, ih, hcaptures]
            by_cases hhead : head ≠ "" ∧ head = expected
            · rw [if_pos hhead, if_neg]
              rintro (hempty | hother)
              · exact hhead.1 hempty
              · exact hother hhead.2.symm
            · rw [if_neg hhead, if_pos]
              · rfl
              · by_cases hempty : head = ""
                · exact .inl hempty
                · exact .inr fun hsame => hhead ⟨hempty, hsame.symm⟩
      | single =>
          rcases read?_cases c with ⟨hread, hpending⟩ | ⟨head, c', hread, hpending, hcaptures⟩
          · rw [scan, hread, hpending]
            rfl
          · rw [scan, hread, hpending]
            dsimp only
            rw [matchLevels, ih]
            by_cases hempty : head = ""
            · rw [if_pos hempty, if_pos hempty]
              rfl
            · have hnext : (c'.capture head).captures = c.captures ++ [head] := by
                rw [Cursor.capture, hcaptures]
              have hlater : (c'.capture head).pending = c'.pending := rfl
              rw [if_neg hempty, if_neg hempty, hnext, hlater, Option.map_map]
              congr 1
              funext found
              exact List.append_assoc ..

end Topic

/-! ### Patterns -/

namespace Pattern

open Topic

theorem scan?_eq (p : Pattern) (topic : String) : p.scan? topic = p.captures? topic := by
  rw [scan?, captures?, scan_eq]
  simp [Cursor.start, Cursor.pending]

/-- **Matching is the comparison of levels.**  A topic matches a pattern if it is a name without
empty levels, if it is not set apart from a pattern that starts with a wildcard, and if its levels
are what the pattern asks for; what is captured is what the wildcards stand for.  Whoever reads along
the text finds the same. -/
theorem captures?_levelwise (p : Pattern) (topic : String) (captures : List String) :
    (p.captures? topic = some captures ↔
      (IsName topic ∧ "" ∉ split topic ∧ ¬(isReserved topic ∧ p.startsWild) ∧
        Agrees p.levels (split topic)) ∧
      captures = taken p.levels (split topic)) ∧
    p.scan? topic = p.captures? topic := by
  refine ⟨?_, p.scan?_eq topic⟩
  rw [captures?, ite_not]
  by_cases hname : IsName topic
  · rw [if_pos hname]
    by_cases happart : isReserved topic ∧ p.startsWild
    · rw [if_pos happart]
      exact iff_of_false (Option.some_ne_none captures).symm fun h => h.1.2.2.1 happart
    · rw [if_neg happart, matchLevels_eq_some_iff_agrees p.proper]
      constructor
      · rintro ⟨hfull, hagrees, hcaptures⟩
        exact ⟨⟨hname, hfull, happart, hagrees⟩, hcaptures⟩
      · rintro ⟨⟨-, hfull, -, hagrees⟩, hcaptures⟩
        exact ⟨hfull, hagrees, hcaptures⟩
  · rw [if_neg hname]
    exact iff_of_false (Option.some_ne_none captures).symm fun h => hname h.1.1

end Pattern

end TopicBridge
