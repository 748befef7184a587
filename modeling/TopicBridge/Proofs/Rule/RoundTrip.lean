/-
**There and back again.**

A rule that relays both ways leads the topics that it makes back to the topics that it has made
them from.  The way back starts from what stands behind the prefix, and that has to match the
destination pattern again: it does not if it is too long, or if it is set apart by a dollar sign
while the pattern starts with a wildcard.  The prefix itself never is in the way.

Main definitions:

* `TopicBridge.Rule.placed` — a topic in the place to which a flow leads.

Main results:

* `Rule.outboundTopic_eq`, `Rule.bare?_reverse_eq_some_iff` — a prefix that has been put before a
  topic can be dropped again;
* `Rule.captures?_reverse` — **what a rule captures on the way back**;
* `Registry.route?_reverse_of_find?_forward` — the way back through the rules as a whole;
* `Registry.route?_reverse_reserved_ne` — a topic that does not find its way back.
-/

import TopicBridge.Proofs.Rule.Built
import TopicBridge.Proofs.Topic.Refill

set_option autoImplicit false

namespace TopicBridge

/-! ### Prefixes -/

theorem Topic.toList_addLevels (front topic : String) :
    (addLevels front topic).toList = front.toList ++ '/' :: topic.toList := by
  simp [addLevels, toString]

/-- Dropping a prefix finds what stands behind it, and nothing else. -/
theorem Topic.dropLevels?_eq_some_iff {front topic rest : String} :
    dropLevels? front topic = some rest ↔ topic = addLevels front rest := by
  rw [← String.toList_inj, toList_addLevels, dropLevels?]
  split_ifs with h
  · obtain ⟨back, hback⟩ := List.isPrefixOf_iff_prefix.1 h
    rw [← hback]
    simp [← String.toList_inj]
  · simp only [false_iff]
    intro hback
    refine h (List.isPrefixOf_iff_prefix.2 ⟨rest.toList, ?_⟩)
    simp [hback]

/-! ### Rules -/

namespace Rule

variable {r : Rule} {topic outbound : String} {captures : List String}

theorem captures?_forward (r : Rule) (topic : String) :
    r.captures? .forward topic = r.source.captures? topic := by
  simp [Rule.captures?, appliesTo, bare?, inbound]

/-- A topic in the place to which a flow leads: on the destination side it stands behind the
prefix. -/
def placed (r : Rule) (flow : Flow) (topic : String) : String :=
  if flow = .forward then r.topicPrefix.elim topic fun front => Topic.addLevels front topic
  else topic

theorem placed_forward_of_none (hf : r.topicPrefix = none) (topic : String) :
    r.placed .forward topic = topic := by
  rw [placed, if_pos rfl, hf]
  rfl

theorem placed_forward_of_some {front : String} (hf : r.topicPrefix = some front)
    (topic : String) : r.placed .forward topic = Topic.addLevels front topic := by
  rw [placed, if_pos rfl, hf]
  rfl

/-- A rule fills its template and puts the topic in its place. -/
theorem outboundTopic_eq (r : Rule) (flow : Flow) (captures : List String) :
    r.outboundTopic flow captures = ((r.outbound flow).fill captures).map (r.placed flow) := by
  rw [outboundTopic]
  cases (r.outbound flow).fill captures with
  | error e => rfl
  | ok filled =>
      cases flow with
      | forward =>
          cases hf : r.topicPrefix with
          | none => exact congrArg Except.ok (placed_forward_of_none hf filled).symm
          | some front => exact congrArg Except.ok (placed_forward_of_some hf filled).symm
      | reverse => rfl

theorem outboundTopic_eq_ok_iff {flow : Flow} :
    r.outboundTopic flow captures = .ok outbound ↔
      ∃ filled, (r.outbound flow).fill captures = .ok filled ∧ r.placed flow filled = outbound := by
  rw [outboundTopic_eq]
  cases (r.outbound flow).fill captures <;> simp [Except.map]

/-- The part of a topic from the destination side that is matched is what stands in its place
there. -/
theorem bare?_reverse_eq_some_iff {bare : String} :
    r.bare? .reverse topic = some bare ↔ topic = r.placed .forward bare := by
  cases hf : r.topicPrefix with
  | none =>
      rw [placed_forward_of_none hf]
      simp only [bare?, hf]
      exact Option.some_inj
  | some front =>
      rw [placed_forward_of_some hf]
      simp only [bare?, hf]
      exact Topic.dropLevels?_eq_some_iff

/-- What stands behind the prefix of an outbound topic is the filled template. -/
theorem exists_bare_of_outboundTopic (h : r.outboundTopic .forward captures = .ok outbound) :
    ∃ bare, r.bare? .reverse outbound = some bare ∧ r.dest.fill captures = .ok bare := by
  obtain ⟨filled, hfill, hplaced⟩ := outboundTopic_eq_ok_iff.1 h
  exact ⟨filled, bare?_reverse_eq_some_iff.2 hplaced.symm, hfill⟩

/-- **What a rule captures on the way back**: what it has captured on the way there, unless what
stands behind the prefix is too long, or set apart while the pattern starts with a wildcard. -/
theorem captures?_reverse (hw : r.source.wildcards = r.dest.wildcards)
    (hr : r.appliesTo .reverse) (hc : r.captures? .forward topic = some captures)
    (ho : r.outboundTopic .forward captures = .ok outbound) :
    ∃ bare, r.bare? .reverse outbound = some bare ∧
      r.captures? .reverse outbound =
        if bare.utf8ByteSize ≤ Topic.maxSize ∧ ¬(Topic.isReserved bare ∧ r.dest.startsWild) then
          some captures
        else none := by
  obtain ⟨bare, hbare, hfill⟩ := exists_bare_of_outboundTopic ho
  rw [captures?_forward] at hc
  refine ⟨bare, hbare, ?_⟩
  rw [Rule.captures?, if_pos hr, hbare]
  exact Pattern.captures?_of_fill hw hc hfill

theorem outboundTopic_reverse (hc : r.captures? .forward topic = some captures) :
    r.outboundTopic .reverse captures = .ok topic := by
  rw [captures?_forward] at hc
  rw [outboundTopic, outbound, Pattern.fill_captures hc]
  rfl

end Rule

/-! ### Registries -/

namespace Registry

variable {c : Config} {g : Registry} {m : Match} {topic outbound : String}

/-- The rule that handles a topic stands behind rules that do not. -/
theorem exists_split_of_find? {flow : Flow} (h : g.find? flow topic = some m) :
    ∃ after, g.rules = g.rules.takeWhile (· ≠ m.rule) ++ m.rule :: after ∧
      m.rule.captures? flow topic = some m.captures ∧
      ∀ r ∈ g.rules.takeWhile (· ≠ m.rule), r.captures? flow topic = none := by
  obtain ⟨before, r, after, hrules, hr, hbefore⟩ := List.findSome?_eq_some_iff.1 h
  obtain ⟨captures, hc, rfl⟩ := Option.map_eq_some_iff.1 hr
  have hnone : ∀ b ∈ before, b.captures? flow topic = none := by
    intro b hb
    simpa using hbefore b hb
  -- the rule does not stand among the earlier ones, since it handles the topic
  have hne : ∀ b ∈ before, decide (b ≠ r) = true := by
    intro b hb
    simp only [decide_eq_true_eq]
    rintro rfl
    simp [hnone b hb] at hc
  have htake : g.rules.takeWhile (· ≠ r) = before := by
    rw [hrules, List.takeWhile_append_of_pos hne]
    simp
  refine ⟨after, ?_, hc, ?_⟩
  · rw [htake, hrules]
  · rw [htake]
    exact hnone

theorem find?_eq_some_of_captures? {flow : Flow} {r : Rule} {captures : List String}
    {before after : List Rule} (hrules : g.rules = before ++ r :: after)
    (hbefore : ∀ b ∈ before, b.captures? flow topic = none)
    (hr : r.captures? flow topic = some captures) : g.find? flow topic = some ⟨r, captures⟩ := by
  refine List.findSome?_eq_some_iff.2 ⟨before, r, after, hrules, by simp [hr], ?_⟩
  intro b hb
  simp [hbefore b hb]

/-- **The way back**: let the topic that a rule has made lead to no earlier rule.  Then it leads
back, through the same rule, to the topic that it has been made from; only if what stands behind
the prefix is too long, or set apart while the pattern of the rule starts with a wildcard, the rule
does not handle it. -/
theorem route?_reverse_of_find?_forward (hg : build c = .ok g)
    (hm : g.find? .forward topic = some m) (hd : m.rule.direction = .bidirectional)
    (ho : outboundTopic .forward m = .ok outbound)
    (hfirst : ∀ r ∈ g.rules.takeWhile (· ≠ m.rule), r.captures? .reverse outbound = none) :
    ∃ bare, m.rule.bare? .reverse outbound = some bare ∧
      (bare.utf8ByteSize ≤ Topic.maxSize ∧
          ¬(Topic.isReserved bare ∧ m.rule.dest.startsWild) →
        g.route? .reverse outbound = some (m.rule, topic)) ∧
      (¬(bare.utf8ByteSize ≤ Topic.maxSize ∧
          ¬(Topic.isReserved bare ∧ m.rule.dest.startsWild)) →
        m.rule.captures? .reverse outbound = none) := by
  obtain ⟨after, hrules, hc, -⟩ := exists_split_of_find? hm
  have hmem : m.rule ∈ g.rules := by
    rw [hrules]
    exact List.mem_append_right _ (List.mem_cons_self ..)
  have hr : m.rule.appliesTo .reverse := by simp [Rule.appliesTo, hd]
  obtain ⟨bare, hbare, hback⟩ := Rule.captures?_reverse (wildcards_eq hg hmem) hr hc ho
  refine ⟨bare, hbare, fun hfit => ?_, fun hfit => ?_⟩
  · rw [if_pos hfit] at hback
    have hfind := find?_eq_some_of_captures? hrules hfirst hback
    have hout : outboundTopic .reverse m = .ok topic := Rule.outboundTopic_reverse hc
    simp [route?, hfind, hout, Except.toOption]
  · rw [hback, if_neg hfit]

/-- Settings with one rule that relays both ways. -/
def mirrored (source dest : String) (front : Option String) : Config where
  source := { host := "a" }
  destination := { host := "b" }
  rules := [{
    sourceTopic := source
    destTopic := dest
    direction := .bidirectional
    topicPrefix := front }]

/-- The rule from `data/+/#` to `up/+/#` behind `site`. -/
def prefixedRule : Rule where
  id := "0"
  source := ⟨"data/+/#", by decide +kernel⟩
  dest := ⟨"up/+/#", by decide +kernel⟩
  direction := .bidirectional
  filters := []
  qos := .atLeastOnce
  topicPrefix := some "site"

/-- The topic `data/x` of the pattern `data/+/#`, of which `#` captures nothing, goes to
`site/up/x` and back. -/
theorem route?_reverse_of_find?_forward_prefixed :
    ∃ g m bare, build (mirrored "data/+/#" "up/+/#" (some "site")) = .ok g ∧
      g.find? .forward "data/x" = some m ∧ m.rule.direction = .bidirectional ∧
      outboundTopic .forward m = .ok "site/up/x" ∧
      (∀ r ∈ g.rules.takeWhile (· ≠ m.rule), r.captures? .reverse "site/up/x" = none) ∧
      m.rule.bare? .reverse "site/up/x" = some bare ∧
      g.route? .reverse "site/up/x" = some (m.rule, "data/x") := by
  have hg : build (mirrored "data/+/#" "up/+/#" (some "site")) = .ok
      ⟨[prefixedRule], [⟨1, prefixedRule.source, .atLeastOnce⟩],
        [⟨1, ⟨"site/up/+/#", by decide +kernel⟩, .atLeastOnce⟩]⟩ := by rfl
  have hm : (Registry.mk [prefixedRule] [⟨1, prefixedRule.source, .atLeastOnce⟩]
      [⟨1, ⟨"site/up/+/#", by decide +kernel⟩, .atLeastOnce⟩]).find? .forward "data/x" =
        some ⟨prefixedRule, ["x", ""]⟩ := by decide +kernel
  have ho : outboundTopic .forward ⟨prefixedRule, ["x", ""]⟩ = .ok "site/up/x" := by rfl
  have hfirst : ∀ r ∈ [prefixedRule].takeWhile (· ≠ prefixedRule),
      r.captures? .reverse "site/up/x" = none := by decide +kernel
  obtain ⟨bare, hbare, hback, -⟩ := route?_reverse_of_find?_forward hg hm rfl ho hfirst
  have hup : bare = "up/x" :=
    Option.some.inj (hbare.symm.trans (by decide +kernel : _ = some "up/x"))
  exact ⟨_, _, bare, hg, hm, rfl, ho, hfirst, hbare, hback (by rw [hup]; decide +kernel)⟩

/-- The rule from `a/+` to `+`. -/
def bareRule : Rule where
  id := "0"
  source := ⟨"a/+", by decide +kernel⟩
  dest := ⟨"+", by decide +kernel⟩
  direction := .bidirectional
  filters := []
  qos := .atLeastOnce
  topicPrefix := none

/-- The topic `a/$x` goes to `$x`, which the pattern `+` does not match. -/
theorem route?_reverse_reserved_ne :
    ∃ g m, (mirrored "a/+" "+" none).validate = .ok () ∧
      build (mirrored "a/+" "+" none) = .ok g ∧
      g.find? .forward "a/$x" = some m ∧ m.rule.direction = .bidirectional ∧
      outboundTopic .forward m = .ok "$x" ∧
      (∀ r ∈ g.rules.takeWhile (· ≠ m.rule), r.captures? .reverse "$x" = none) ∧
      g.route? .reverse "$x" ≠ some (m.rule, "a/$x") :=
  ⟨⟨[bareRule], [⟨1, bareRule.source, .atLeastOnce⟩], [⟨1, bareRule.dest, .atLeastOnce⟩]⟩,
    ⟨bareRule, ["$x"]⟩, by rfl, by rfl, by decide +kernel, rfl, by rfl, by decide +kernel,
    by decide +kernel⟩

end Registry

end TopicBridge
