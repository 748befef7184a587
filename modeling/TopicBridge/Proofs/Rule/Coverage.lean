/-
**What is subscribed to and what is handled.**

The topics of the reverse flow are subscribed to under the filters of the rules, and a topic that
comes in is looked up in the rules.  For a rule behind a prefix these are two different questions:
the filter is the prefix and the pattern as one text, while the rule drops the prefix and matches
the rest.  They have the same answer but for the topics that a rule strands: the prefix alone,
where the pattern is `#`, and topics that go on with a dollar sign behind the prefix, where the
pattern starts with a wildcard.

Main definitions:

* `TopicBridge.Rule.Strands` — a topic that the filter of a rule matches and the rule does not.

Main results:

* `Topic.split_addLevels` — the levels of a topic behind a prefix;
* `Rule.matches?_of_subscriptionFilter` — **the filter of a rule against the rule**;
* `Registry.exists_reverse_matches?_iff` — the filters of the reverse flow against its rules;
* `Registry.reverse_reserved_stranded` — a topic that is subscribed to and handled by no rule.
-/

import Mathlib.Tactic.ByContra
import TopicBridge.Proofs.Rule.RoundTrip

set_option autoImplicit false

namespace TopicBridge

namespace Topic

/-! ### Levels behind a prefix -/

theorem splitChars_append_slash_append (front back : List Char) :
    splitChars (front ++ '/' :: back) = splitChars front ++ splitChars back := by
  induction front with
  | nil => simp
  | cons c front ih =>
      obtain ⟨run, more, h⟩ := List.exists_cons_of_ne_nil (splitChars_ne_nil front)
      by_cases hc : c = '/'
      · subst hc
        rw [List.cons_append, splitChars_slash, splitChars_slash, ih, List.cons_append]
      · rw [splitChars_cons hc h, List.cons_append, List.cons_append]
        refine splitChars_cons hc ?_
        rw [ih, h, List.cons_append]

/-- The levels of a topic behind a prefix are those of the prefix and those of the topic. -/
theorem split_addLevels (front topic : String) :
    split (addLevels front topic) = split front ++ split topic := by
  simp [split, toList_addLevels, splitChars_append_slash_append]

theorem utf8ByteSize_addLevels (front topic : String) :
    (addLevels front topic).utf8ByteSize = front.utf8ByteSize + 1 + topic.utf8ByteSize := by
  simp [addLevels, toString]
  rfl

theorem eq_of_split_eq {a b : String} (h : split a = split b) : a = b := by
  rw [← join_split a, h, join_split]

/-! ### Literals before a pattern -/

theorem captured_map_literal_append (front : List String) (pattern : List Level)
    (captures : List String) :
    Captured (front.map .literal ++ pattern) captures ↔ Captured pattern captures := by
  induction front with
  | nil => rfl
  | cons a front ih => exact ih

theorem expand_map_literal_append (front : List String) (pattern : List Level)
    (captures : List String) :
    expand (front.map .literal ++ pattern) captures = front ++ expand pattern captures := by
  induction front with
  | nil => rfl
  | cons a front ih => simp [expand, ih]

/-- The levels of a text without wildcards are literals. -/
theorem levels_of_hasWildcard_eq_false {s : String} (h : hasWildcard s = false) :
    levels s = (split s).map .literal := by
  refine List.map_congr_left fun level hl => ?_
  have hne : ∀ x ∈ level.toList, x ≠ '+' ∧ x ≠ '#' := by
    intro x hx
    have hmem : x ∈ s.toList := by
      rw [← join_split s]
      exact mem_join_of_mem hl hx
    simp only [hasWildcard, List.any_eq_false] at h
    simpa using h x hmem
  rw [Level.ofText]
  split_ifs with h1 h2
  · subst h1
    exact absurd rfl (hne '+' (by simp)).1
  · subst h2
    exact absurd rfl (hne '#' (by simp)).2
  · rfl

end Topic

/-! ### Rules -/

namespace Rule

open Topic

/-- A topic that the filter of a rule matches and the rule does not: the prefix alone, where the
pattern is `#`, or one that goes on with a dollar sign behind the prefix, where the pattern starts
with a wildcard. -/
def Strands (r : Rule) (topic : String) : Prop :=
  ∃ front, r.topicPrefix = some front ∧
    ((topic = front ∧ r.dest.text = "#") ∨
      ∃ rest, topic = addLevels front rest ∧ isReserved rest ∧ r.dest.startsWild ∧
        (matchLevels r.dest.levels (split rest)).isSome)

variable {r : Rule} {topic front : String} {filter : Pattern}

theorem isSome_captures?_reverse_iff (hr : r.appliesTo .reverse)
    (hf : r.topicPrefix = some front) :
    (r.captures? .reverse topic).isSome ↔
      ∃ rest, topic = addLevels front rest ∧ (r.dest.captures? rest).isSome := by
  have hbare : r.bare? .reverse topic = dropLevels? front topic := by simp [bare?, hf]
  rw [Rule.captures?, if_pos hr, hbare, Option.isSome_bind, Option.any_eq_true]
  simp only [dropLevels?_eq_some_iff]
  rfl

/-- A pattern behind a prefix matches the topics behind the prefix that the pattern matches. -/
theorem isSome_captures?_addLevels_iff (hw : prefixError? front = none)
    (ht : filter.text = addLevels front r.dest.text) :
    (filter.captures? topic).isSome ↔
      IsName topic ∧ ∃ captures, Captured r.dest.levels captures ∧
        split front ++ expand r.dest.levels captures = split topic := by
  have hfront : hasWildcard front = false := by
    simp only [prefixError?] at hw
    split at hw
    · simp at hw
    · simpa using hw
  have hlevels : filter.levels = (split front).map .literal ++ r.dest.levels := by
    rw [← levels_of_hasWildcard_eq_false hfront, Pattern.levels, ht, levels, split_addLevels,
      List.map_append]
    rfl
  have hwild : filter.startsWild = false := by
    obtain ⟨a, more, ha⟩ := List.exists_cons_of_ne_nil (split_ne_nil front)
    simp [Pattern.startsWild, hlevels, ha, Level.isWildcard]
  simp only [Option.isSome_iff_exists, Pattern.captures?_eq_some_iff, hwild, hlevels,
    captured_map_literal_append, expand_map_literal_append]
  simp

/-- What stands behind the prefix of a topic name is a topic name, if it is not empty. -/
theorem isName_of_isName_addLevels {rest : String} (h : IsName (addLevels front rest))
    (hne : rest ≠ "") : IsName rest := by
  obtain ⟨-, hsize, hplain⟩ := (isName_iff _).1 h
  refine (isName_iff rest).2 ⟨hne, ?_, fun x hx => hplain x ?_⟩
  · have := utf8ByteSize_addLevels front rest
    omega
  · rw [toList_addLevels]
    exact List.mem_append_right _ (List.mem_cons_of_mem _ hx)

/-- A topic whose levels are those of the prefix and of an expanded pattern is the rule's, or
stranded by it. -/
theorem captures?_or_strands (hr : r.appliesTo .reverse) (hf : r.topicPrefix = some front)
    (hn : IsName topic) {captures : List String} (hc : Captured r.dest.levels captures)
    (he : split front ++ expand r.dest.levels captures = split topic) :
    (r.captures? .reverse topic).isSome ∨ r.Strands topic := by
  by_cases hnil : expand r.dest.levels captures = []
  · -- nothing stands behind the prefix
    refine Or.inr ⟨front, hf, Or.inl ⟨?_, Pattern.text_of_expand_eq_nil hc hnil⟩⟩
    rw [hnil, List.append_nil] at he
    exact (eq_of_split_eq he).symm
  have hproper := r.dest.proper
  -- what stands behind the prefix is a topic name, made of the expanded levels
  obtain ⟨rest, hrest⟩ : ∃ rest, rest = join (expand r.dest.levels captures) := ⟨_, rfl⟩
  have hsplit : split rest = expand r.dest.levels captures := by
    rw [hrest]
    exact split_join_expand hproper hc hnil
  have htopic : topic = addLevels front rest := by
    refine eq_of_split_eq ?_
    rw [split_addLevels, hsplit, he]
  have hne : rest ≠ "" := by
    rw [hrest]
    exact join_ne_empty hnil (empty_not_mem_expand hproper hc)
  have hname : IsName rest := isName_of_isName_addLevels (htopic ▸ hn) hne
  by_cases hres : isReserved rest ∧ r.dest.startsWild
  · have hmatch := (matchLevels_eq_some_iff hproper fun _ hl => slash_not_mem_of_mem_split hl).2
      ⟨hc, hsplit.symm⟩
    exact Or.inr ⟨front, hf, Or.inr ⟨rest, htopic, hres.1, hres.2, by rw [hmatch]; rfl⟩⟩
  · have hfound := Pattern.captures?_eq_some_iff.2 ⟨hname, hres, hc, hsplit.symm⟩
    rw [isSome_captures?_reverse_iff hr hf]
    exact Or.inl ⟨rest, htopic, by rw [hfound]; rfl⟩

theorem exists_expand_of_captures?_or_strands (hr : r.appliesTo .reverse)
    (hf : r.topicPrefix = some front)
    (h : (r.captures? .reverse topic).isSome ∨ r.Strands topic) :
    ∃ captures, Captured r.dest.levels captures ∧
      split front ++ expand r.dest.levels captures = split topic := by
  rw [isSome_captures?_reverse_iff hr hf] at h
  rcases h with ⟨rest, htopic, hfound⟩ | ⟨front', hf', hstrand⟩
  · obtain ⟨captures, hfound⟩ := Option.isSome_iff_exists.1 hfound
    obtain ⟨-, -, hc, he⟩ := Pattern.captures?_eq_some_iff.1 hfound
    exact ⟨captures, hc, by rw [htopic, split_addLevels, he]⟩
  · obtain rfl : front = front' := Option.some.inj (hf.symm.trans hf')
    rcases hstrand with ⟨rfl, hmulti⟩ | ⟨rest, htopic, -, -, hmatch⟩
    · -- the prefix alone: `#` captures no level
      have hlevels : r.dest.levels = [.multi] := Pattern.levels_eq_multi_iff.2 hmulti
      refine ⟨[""], ?_, ?_⟩ <;> simp [hlevels, Captured, expand]
    · obtain ⟨captures, hmatch⟩ := Option.isSome_iff_exists.1 hmatch
      obtain ⟨hc, he⟩ := (matchLevels_eq_some_iff r.dest.proper
        fun _ hl => slash_not_mem_of_mem_split hl).1 hmatch
      exact ⟨captures, hc, by rw [htopic, split_addLevels, he]⟩

theorem matches?_of_topicPrefix_eq_none (hr : r.appliesTo .reverse) (hf : r.topicPrefix = none)
    (ht : filter.text = r.subscriptionFilter .reverse) :
    filter.matches? topic = (r.captures? .reverse topic).isSome := by
  have htext : filter.text = r.dest.text := by
    rw [ht]
    simp [subscriptionFilter, hf, inbound]
  have hsame : filter = r.dest := by
    cases filter
    cases hd : r.dest
    simp_all
  simp [Pattern.matches?, hsame, Rule.captures?, hr, bare?, hf, inbound]

/-- **The filter of a rule against the rule**: the filter matches the topics that the rule matches
and those that it strands. -/
theorem matches?_of_subscriptionFilter (hr : r.appliesTo .reverse)
    (hw : ∀ front, r.topicPrefix = some front → prefixError? front = none)
    (ht : filter.text = r.subscriptionFilter .reverse) (hn : IsName topic) :
    filter.matches? topic ↔ (r.captures? .reverse topic).isSome ∨ r.Strands topic := by
  cases hf : r.topicPrefix with
  | none =>
      have hno : ¬r.Strands topic := by
        rintro ⟨front, hfront, -⟩
        simp [hf] at hfront
      rw [matches?_of_topicPrefix_eq_none hr hf ht]
      simp [hno]
  | some front =>
      have ht' : filter.text = addLevels front r.dest.text := by
        rw [ht]
        simp [subscriptionFilter, hf]
      rw [Pattern.matches?, isSome_captures?_addLevels_iff (hw front hf) ht']
      constructor
      · rintro ⟨-, captures, hc, he⟩
        exact captures?_or_strands hr hf hn hc he
      · intro h
        exact ⟨hn, exists_expand_of_captures?_or_strands hr hf h⟩

/-- A rule that matches a topic of a flow relays in it. -/
theorem appliesTo_of_isSome_captures? {flow : Flow} (h : (r.captures? flow topic).isSome) :
    r.appliesTo flow := by
  by_contra ha
  simp [Rule.captures?, ha] at h

end Rule

/-! ### Registries -/

namespace Registry

variable {c : Config} {g : Registry} {topic : String}

theorem isSome_find?_iff {flow : Flow} :
    (g.find? flow topic).isSome ↔ ∃ r ∈ g.rules, (r.captures? flow topic).isSome := by
  rw [find?, List.findSome?_isSome_iff]
  simp

/-- **What is subscribed to against what is handled**: a filter of the reverse flow matches a topic
if and only if a rule handles it, or a rule that relays both ways strands it. -/
theorem exists_reverse_matches?_iff (hv : c.validate = .ok ()) (hg : build c = .ok g)
    (hn : Topic.IsName topic) :
    (∃ i ∈ g.interests .reverse, i.filter.matches? topic) ↔
      (g.find? .reverse topic).isSome ∨
        ∃ r ∈ g.rules, r.direction = .bidirectional ∧ r.Strands topic := by
  have hrule : ∀ r ∈ g.rules, ∀ front, r.topicPrefix = some front → prefixError? front = none :=
    fun r hr front hf => prefixError?_eq_none hv hg hr hf
  have happlies : ∀ r : Rule, r.appliesTo .reverse ↔ r.direction = .bidirectional := by
    simp [Rule.appliesTo]
  rw [isSome_find?_iff]
  constructor
  · rintro ⟨i, hi, hmatch⟩
    obtain ⟨r, hr, ha, ht⟩ := (exists_interest_iff hg .reverse i.filter.text).1 ⟨i, hi, rfl⟩
    rcases (Rule.matches?_of_subscriptionFilter ha (hrule r hr) ht.symm hn).1 hmatch with h | h
    · exact Or.inl ⟨r, hr, h⟩
    · exact Or.inr ⟨r, hr, (happlies r).1 ha, h⟩
  · have hback : ∀ r ∈ g.rules, r.appliesTo .reverse →
        (r.captures? .reverse topic).isSome ∨ r.Strands topic →
        ∃ i ∈ g.interests .reverse, i.filter.matches? topic := by
      intro r hr ha h
      obtain ⟨i, hi, ht⟩ := (exists_interest_iff hg .reverse _).2 ⟨r, hr, ha, rfl⟩
      exact ⟨i, hi, (Rule.matches?_of_subscriptionFilter ha (hrule r hr) ht hn).2 h⟩
    rintro (⟨r, hr, h⟩ | ⟨r, hr, hd, h⟩)
    · exact hback r hr (Rule.appliesTo_of_isSome_captures? h) (Or.inl h)
    · exact hback r hr ((happlies r).2 hd) (Or.inr h)

/-- The topic `site/up/x` comes in under the filter `site/up/+/#`, and the rule handles it. -/
theorem exists_reverse_matches?_iff_prefixed :
    ∃ g, (mirrored "data/+/#" "up/+/#" (some "site")).validate = .ok () ∧
      build (mirrored "data/+/#" "up/+/#" (some "site")) = .ok g ∧ Topic.IsName "site/up/x" ∧
      (∃ i ∈ g.interests .reverse, i.filter.matches? "site/up/x") ∧
      ((g.find? .reverse "site/up/x").isSome ∨
        ∃ r ∈ g.rules, r.direction = .bidirectional ∧ r.Strands "site/up/x") := by
  have hv : (mirrored "data/+/#" "up/+/#" (some "site")).validate = .ok () := by rfl
  have hg : build (mirrored "data/+/#" "up/+/#" (some "site")) = .ok
      ⟨[prefixedRule], [⟨1, prefixedRule.source, .atLeastOnce⟩],
        [⟨1, ⟨"site/up/+/#", by decide +kernel⟩, .atLeastOnce⟩]⟩ := by rfl
  have hn : Topic.IsName "site/up/x" := by decide +kernel
  have hmatch : ∃ i ∈ [Interest.mk 1 ⟨"site/up/+/#", by decide +kernel⟩ .atLeastOnce],
      i.filter.matches? "site/up/x" := by decide +kernel
  exact ⟨_, hv, hg, hn, hmatch, (exists_reverse_matches?_iff hv hg hn).1 hmatch⟩

/-- The rule from `a/+` to `+` behind `p`. -/
def bareRuleBehind : Rule := { bareRule with topicPrefix := some "p" }

/-- The topic `p/$x` comes in under the filter `p/+`, and no rule handles it. -/
theorem reverse_reserved_stranded :
    ∃ g, (mirrored "a/+" "+" (some "p")).validate = .ok () ∧
      build (mirrored "a/+" "+" (some "p")) = .ok g ∧ Topic.IsName "p/$x" ∧
      (∃ i ∈ g.interests .reverse, i.filter.matches? "p/$x") ∧
      g.find? .reverse "p/$x" = none :=
  ⟨⟨[bareRuleBehind], [⟨1, bareRule.source, .atLeastOnce⟩],
      [⟨1, ⟨"p/+", by decide +kernel⟩, .atLeastOnce⟩]⟩,
    by rfl, by rfl, by decide +kernel, by decide +kernel, by decide +kernel⟩

end Registry

end TopicBridge
