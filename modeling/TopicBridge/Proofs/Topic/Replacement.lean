/-
**Filling, level by level.**

What a template is filled with can be said by numbers, as matching can: each level is replaced in
its place, and a wildcard is replaced by the capture of its rank, the number of wildcards in front
of it.  Only a `#` can have an empty capture, and only when the topic that has been matched ends
where the `#` begins; it is the last level, and is left out then.  Both ways of filling a template,
over lists of levels and along the template, come to that.

Main definitions:

* `TopicBridge.Topic.rank` — the number of wildcards in front of a level;
* `Topic.replaced` — the levels of a template with its wildcards replaced;
* `Topic.EndsEarly` — a topic ends where the `#` of a pattern begins.

Main results:

* `Topic.filter_fill` — filling replaces the levels in their places;
* `Topic.getLast?_eq_empty_iff` — when the capture of a `#` is empty;
* `Pattern.compose_eq` — writing along the template gives the same topic;
* `Pattern.fill_eq` — **what the captures of a topic fill a template with**.
-/

import Mathlib.Tactic.ByContra
import TopicBridge.Proofs.Topic.Levelwise
import TopicBridge.Proofs.Topic.Refill
import TopicBridge.Topic.Draft

set_option autoImplicit false

namespace TopicBridge

namespace Topic

/-! ### Writing along the template -/

theorem join_eq_empty_iff {levels : List String} (he : "" ∉ levels) :
    join levels = "" ↔ levels = [] := by
  constructor
  · intro h
    by_contra hne
    exact join_ne_empty hne he h
  · rintro rfl
    rfl

/-- Writing a level adds it to those that have been written, unless it is empty. -/
theorem Draft.add_join {front captures : List String} (hf : "" ∉ front) (level : String) :
    Draft.add ⟨join front, captures⟩ level =
      ⟨join (front ++ [level].filter (· ≠ "")), captures⟩ := by
  rw [add]
  by_cases hlevel : level = ""
  · rw [if_pos hlevel, List.filter_cons_of_neg (by simpa using hlevel), List.filter_nil,
      List.append_nil]
  · rw [if_neg hlevel, List.filter_cons_of_pos (by simpa using hlevel), List.filter_nil]
    by_cases hfront : front = []
    · subst hfront
      simp
    · have hlast : [level] ≠ [] := List.cons_ne_nil level []
      rw [if_neg (join_ne_empty hfront hf), join_append hfront hlast, join_singleton]

theorem Draft.take_join {front captures : List String} (hf : "" ∉ front) :
    Draft.take ⟨join front, captures⟩ =
      ⟨join (front ++ [captures.headD ""].filter (· ≠ "")), captures.tail⟩ :=
  add_join hf _

theorem empty_not_mem_append_filter {front : List String} (hf : "" ∉ front) (level : String) :
    "" ∉ front ++ [level].filter (· ≠ "") := by
  simp [hf]

theorem Draft.write_of_isWildcard {level : Level} (h : level.isWildcard) (d : Draft) :
    d.write level = d.take := by
  cases level with
  | literal s => cases h
  | single => rfl
  | multi => rfl

/-- What is left of a wildcard that is filled in: the first of the captures, unless it is empty. -/
theorem filter_fill_of_isWildcard {level : Level} (h : level.isWildcard) (template : List Level)
    (captures : List String) :
    (fill (level :: template) captures).filter (· ≠ "") =
      [captures.headD ""].filter (· ≠ "") ++ (fill template captures.tail).filter (· ≠ "") := by
  rw [← List.filter_append]
  cases level with
  | literal s => cases h
  | single => cases captures <;> simp [fill]
  | multi => cases captures <;> simp [fill]

/-- **What is written along a template** are the levels that have been written and those that it is
filled with. -/
theorem Draft.text_foldl_write (template : List Level) {front captures : List String}
    (hf : "" ∉ front) :
    (template.foldl Draft.write ⟨join front, captures⟩).text =
      join (front ++ (fill template captures).filter (· ≠ "")) := by
  induction template generalizing front captures with
  | nil => simp [fill]
  | cons level template ih =>
      rw [List.foldl_cons]
      by_cases hwild : level.isWildcard
      · rw [write_of_isWildcard hwild, take_join hf, ih (empty_not_mem_append_filter hf _),
          filter_fill_of_isWildcard hwild, List.append_assoc]
      · cases level with
        | literal s =>
            rw [Draft.write, add_join hf, ih (empty_not_mem_append_filter hf s), fill,
              List.append_assoc, ← List.filter_append, List.singleton_append]
        | single => exact absurd rfl hwild
        | multi => exact absurd rfl hwild

/-! ### Replacement in place -/

/-- What stands for a level of a template, if `capture` is what its wildcard is replaced by. -/
def Level.replacedBy (capture : String) : Level → String
  | literal s => s
  | single => capture
  | multi => capture

/-- The number of wildcards in front of a level. -/
def rank (template : List Level) (i : Nat) : Nat := (template.take i).countP Level.isWildcard

theorem rank_literal_succ (s : String) (template : List Level) (i : Nat) :
    rank (.literal s :: template) (i + 1) = rank template i := by
  rw [rank, List.take_succ_cons, List.countP_cons_of_neg (by simp [Level.isWildcard]), rank]

theorem rank_wildcard_succ {level : Level} (h : level.isWildcard) (template : List Level)
    (i : Nat) : rank (level :: template) (i + 1) = rank template i + 1 := by
  rw [rank, List.take_succ_cons, List.countP_cons_of_pos h, rank]

/-- The levels of a template, each wildcard replaced by the capture of its rank.  If the last
capture is empty, the last level is left out. -/
def replaced (template : List Level) (captures : List String) : List String :=
  let texts := template.mapIdx fun i level => level.replacedBy (captures.getD (rank template i) "")
  if captures.getLast? = some "" then texts.dropLast else texts

/-- Replacing the wildcards one after the other replaces each by the capture of its rank. -/
theorem mapIdx_replacedBy {template : List Level} {captures : List String}
    (h : Captured template captures) :
    (template.mapIdx fun i level => level.replacedBy (captures.getD (rank template i) "")) =
      fill template captures := by
  induction template generalizing captures with
  | nil => rfl
  | cons level template ih =>
      rw [List.mapIdx_cons]
      cases level with
      | literal s =>
          simp only [rank_literal_succ, fill, ← ih h]
          rfl
      | single =>
          cases captures with
          | nil => exact absurd h (by simp [Captured])
          | cons c captures =>
              simp only [@rank_wildcard_succ .single rfl, fill, ← ih h.2.2]
              rfl
      | multi =>
          cases captures with
          | nil => exact absurd h (by simp [Captured])
          | cons c captures =>
              simp only [@rank_wildcard_succ .multi rfl, fill, ← ih h.2]
              rfl

theorem fill_ne_nil {template : List Level} {captures : List String}
    (h : Captured template captures) {c : String} (hlast : captures.getLast? = some c) :
    fill template captures ≠ [] := by
  cases template with
  | nil =>
      obtain rfl : captures = [] := h
      cases hlast
  | cons level template =>
      cases captures with
      | nil => cases hlast
      | cons first captures => cases level <;> simp [fill]

theorem cons_ite_dropLast {p : Prop} [Decidable p] {texts : List String} (h : p → texts ≠ [])
    (text : String) :
    text :: (if p then texts.dropLast else texts) =
      if p then (text :: texts).dropLast else text :: texts := by
  by_cases hp : p
  · rw [if_pos hp, if_pos hp, List.dropLast_cons_of_ne_nil (h hp)]
  · rw [if_neg hp, if_neg hp]

/-- **An empty capture leaves out the last level**, and no other. -/
theorem filter_fill {template : List Level} (hp : Proper template) {captures : List String}
    (h : Captured template captures) :
    (fill template captures).filter (· ≠ "") = replaced template captures := by
  rw [replaced, mapIdx_replacedBy h]
  induction template generalizing captures with
  | nil =>
      obtain rfl : captures = [] := h
      rfl
  | cons level template ih =>
      cases level with
      | literal s =>
          obtain ⟨hs, -, -, -, hp'⟩ := hp
          rw [fill, List.filter_cons_of_pos (by simpa using hs), ih hp' h]
          exact cons_ite_dropLast (@fill_ne_nil template captures h "") s
      | single =>
          cases captures with
          | nil => exact absurd h (by simp [Captured])
          | cons c captures =>
              obtain ⟨hc, -, h'⟩ := h
              rw [fill, List.filter_cons_of_pos (by simpa using hc), ih hp h']
              cases captures with
              | nil =>
                  have hlast : [c].getLast? ≠ some "" := by simpa using hc
                  rw [if_neg hlast]
                  rfl
              | cons next captures =>
                  rw [List.getLast?_cons_cons]
                  exact cons_ite_dropLast (fill_ne_nil h') c
      | multi =>
          obtain rfl : template = [] := hp
          cases captures with
          | nil => exact absurd h (by simp [Captured])
          | cons c captures =>
              obtain rfl : captures = [] := h.2
              by_cases hc : c = ""
              · subst hc
                rfl
              · have hlast : [c].getLast? ≠ some "" := by simpa using hc
                rw [if_neg hlast, fill, List.filter_cons_of_pos (by simpa using hc)]
                rfl

/-- Only of a `#` nothing may be left. -/
theorem replaced_eq_nil_iff {template : List Level} (hp : Proper template) (hne : template ≠ [])
    {captures : List String} (hc : Captured template captures) :
    replaced template captures = [] ↔ template = [.multi] ∧ captures.getLast? = some "" := by
  constructor
  · intro h
    have hexpand : expand template captures = [] := by
      rw [← flatMap_split_fill hp hc, filter_fill hp hc, h, List.flatMap_nil]
    obtain rfl := (eq_of_expand_eq_nil hp hc hexpand).resolve_left hne
    refine ⟨rfl, ?_⟩
    by_contra hlast
    rw [replaced, if_neg hlast] at h
    cases h
  · rintro ⟨rfl, hlast⟩
    rw [replaced, if_pos hlast]
    rfl

/-! ### Empty captures -/

/-- A topic ends where the `#` of a pattern begins. -/
structure EndsEarly (pattern : List Level) (topic : List String) : Prop where
  multi_mem : .multi ∈ pattern
  length : topic.length = (fixed pattern).length

/-- What stands for a `+` is a level of the topic. -/
theorem mem_of_mem_taken {pattern : List Level} {topic : List String} (h : .multi ∉ pattern)
    {c : String} (hc : c ∈ taken pattern topic) : c ∈ topic := by
  rw [taken, if_neg h, List.append_nil, List.mem_map] at hc
  obtain ⟨⟨level, part⟩, hpair, rfl⟩ := hc
  exact (List.of_mem_zip (List.mem_filter.1 hpair).1).2

/-- **The last capture is empty** if and only if the topic ends where the `#` begins. -/
theorem getLast?_eq_empty_iff {pattern : List Level} (hp : Proper pattern)
    {topic captures : List String} (h : matchLevels pattern topic = some captures) :
    captures.getLast? = some "" ↔ EndsEarly pattern topic := by
  obtain ⟨hfull, hagrees, rfl⟩ := (matchLevels_eq_some_iff_agrees hp).1 h
  by_cases hmulti : .multi ∈ pattern
  · have hleft : "" ∉ topic.drop (fixed pattern).length :=
      fun hmem => hfull (List.mem_of_mem_drop hmem)
    have hlength := hagrees.length
    rw [if_pos hmulti] at hlength
    rw [taken, if_pos hmulti, List.getLast?_concat, Option.some.injEq, join_eq_empty_iff hleft,
      List.drop_eq_nil_iff]
    constructor
    · intro hle
      exact ⟨hmulti, Nat.le_antisymm hle hlength⟩
    · intro hends
      exact Nat.le_of_eq hends.length
  · refine iff_of_false ?_ fun hends => hmulti hends.multi_mem
    intro hlast
    exact hfull (mem_of_mem_taken hmulti (List.mem_of_getLast? hlast))

end Topic

/-! ### Patterns -/

namespace Pattern

open Topic

variable {template : Pattern} {captures : List String}

/-- **Writing along the template** gives what replacing its wildcards gives. -/
theorem compose_eq (template : Pattern) (captures : List String) :
    template.compose captures = template.fill captures := by
  rw [compose, fill]
  by_cases hlength : captures.length ≠ template.wildcards.length
  · rw [if_pos hlength, if_pos hlength]
  · rw [if_neg hlength, if_neg hlength]
    have htext : (template.levels.foldl Draft.write ⟨"", captures⟩).text =
        join ((Topic.fill template.levels captures).filter (· ≠ "")) :=
      Draft.text_foldl_write template.levels List.not_mem_nil
    dsimp only
    rw [htext]
    cases hlevels : (Topic.fill template.levels captures).filter (· ≠ "") with
    | nil => rfl
    | cons level levels =>
        have hfull : "" ∉ level :: levels := by
          rw [← hlevels]
          simp
        rw [if_neg (join_ne_empty (List.cons_ne_nil level levels) hfull)]

/-- **What captures fill a template with**: its levels, with the wildcards replaced, unless it
consists of a `#` that has captured nothing. -/
theorem fill_eq (hc : Captured template.levels captures) :
    template.fill captures =
      if template.levels = [.multi] ∧ captures.getLast? = some "" then .error .empty
      else .ok (join (replaced template.levels captures)) := by
  have hlength : captures.length = template.wildcards.length := hc.length_eq
  have hne : template.levels ≠ [] := by simp [levels, Topic.levels, split_ne_nil]
  have hnothing := replaced_eq_nil_iff template.proper hne hc
  rw [fill, if_neg (fun hother => hother hlength), filter_fill template.proper hc]
  cases hlevels : replaced template.levels captures with
  | nil => rw [if_pos (hnothing.1 hlevels)]
  | cons level levels =>
      have hsome : ¬(template.levels = [.multi] ∧ captures.getLast? = some "") := by
        rw [← hnothing, hlevels]
        exact List.cons_ne_nil level levels
      rw [if_neg hsome]

end Pattern

end TopicBridge
