/-
**What a rule makes of a topic.**

In either flow a rule takes a topic through three stages: what stands behind the prefix is matched,
the captures fill the other pattern of the rule, and the result is put behind the prefix, each of
the prefixes only on the destination side.  No stage makes one topic of two, so neither does the
rule.  Only the second stage can fail, and it does so in one case: the template is a `#`, and there
is nothing to put in its place.

Main definitions:

* `TopicBridge.Rule.Vanishes` — a topic of which nothing is left.

Main results:

* `Rule.eq_of_bare?_eq`, `Rule.placed_injective` — dropping and adding a prefix merge no topics;
* `Rule.outboundTopic_ne_of_ne` — **a rule never merges two topics**;
* `Rule.vanishes_iff` — nothing is left of a topic if a `#` has captured nothing and stands alone;
* `Rule.outboundTopic_of_captures?` — **what a rule makes of a topic, and when it fails**.
-/

import TopicBridge.Proofs.Rule.Outbound
import TopicBridge.Proofs.Topic.Replacement

set_option autoImplicit false

namespace TopicBridge

namespace Rule

open Topic

variable {settings : RuleSettings} {index : Nat} {common : Option String} {r : Rule} {flow : Flow}

/-- Both sides of a compiled rule have the same wildcards. -/
theorem wildcards_eq (hr : compile settings index common = .ok r) :
    r.source.wildcards = r.dest.wildcards :=
  (of_read_eq_ok (mapError_eq_ok_iff.1 hr)).1

/-! ### Two topics -/

/-- Dropping the prefix makes no two topics alike. -/
theorem eq_of_bare?_eq {topic topic' bare : String} (h : r.bare? flow topic = some bare)
    (h' : r.bare? flow topic' = some bare) : topic = topic' := by
  cases flow with
  | forward =>
      have hbare : topic = bare := Option.some.inj h
      have hbare' : topic' = bare := Option.some.inj h'
      rw [hbare, hbare']
  | reverse => rw [bare?_reverse_eq_some_iff.1 h, bare?_reverse_eq_some_iff.1 h']

/-- Adding the prefix makes no two topics alike. -/
theorem placed_injective (r : Rule) (flow : Flow) : Function.Injective (r.placed flow) := by
  intro topic topic' h
  cases flow with
  | forward =>
      have hbare := bare?_reverse_eq_some_iff.2 (Eq.refl (r.placed .forward topic))
      have hbare' := bare?_reverse_eq_some_iff.2 h
      exact Option.some.inj (hbare.symm.trans hbare')
  | reverse => exact h

/-- **A rule never merges two topics**: of different topics it makes different topics, also if a `#`
captures nothing of one of them. -/
theorem outboundTopic_ne_of_ne (hr : compile settings index common = .ok r)
    {topic topic' : String} (hne : topic ≠ topic') {captures captures' : List String}
    (hc : r.captures? flow topic = some captures) (hc' : r.captures? flow topic' = some captures')
    {outbound outbound' : String} (ho : r.outboundTopic flow captures = .ok outbound)
    (ho' : r.outboundTopic flow captures' = .ok outbound') : outbound ≠ outbound' := by
  intro hsame
  subst hsame
  have hw := wildcards_eq hr
  -- one filled template for both, since the prefix is the same
  obtain ⟨filled, hfill, hplaced⟩ := outboundTopic_eq_ok_iff.1 ho
  obtain ⟨filled', hfill', hplaced'⟩ := outboundTopic_eq_ok_iff.1 ho'
  obtain rfl : filled = filled' := r.placed_injective flow (hplaced.trans hplaced'.symm)
  obtain rfl : captures = captures' :=
    Pattern.eq_of_fill_eq (captured_outbound hw hc) (captured_outbound hw hc') hfill hfill'
  -- the captures give back what has been matched, and that the topic
  obtain ⟨bare, hbare, hmatch⟩ := exists_captures?_inbound hc
  obtain ⟨bare', hbare', hmatch'⟩ := exists_captures?_inbound hc'
  obtain rfl : bare = bare' :=
    Except.ok.inj ((Pattern.fill_captures hmatch).symm.trans (Pattern.fill_captures hmatch'))
  exact hne (eq_of_bare?_eq hbare hbare')

/-- The settings of a rule that relays both ways. -/
def twoWay (source dest : String) (front : Option String) : RuleSettings where
  sourceTopic := source
  destTopic := dest
  direction := .bidirectional
  topicPrefix := front

/-- Under the rule from `data/+/#` to `up/+/#` behind `site`, the topics `data/x` and `data/x/y` lead
to different topics. -/
theorem outboundTopic_ne_of_ne_prefixed :
    compile (twoWay "data/+/#" "up/+/#" (some "site")) 0 none = .ok Registry.prefixedRule ∧
      Registry.prefixedRule.captures? .forward "data/x" = some ["x", ""] ∧
      Registry.prefixedRule.captures? .forward "data/x/y" = some ["x", "y"] ∧
      Registry.prefixedRule.outboundTopic .forward ["x", ""] = .ok "site/up/x" ∧
      Registry.prefixedRule.outboundTopic .forward ["x", "y"] = .ok "site/up/x/y" ∧
      "site/up/x" ≠ "site/up/x/y" := by
  have hr : compile (twoWay "data/+/#" "up/+/#" (some "site")) 0 none =
      .ok Registry.prefixedRule := by rfl
  have hc : Registry.prefixedRule.captures? .forward "data/x" = some ["x", ""] := by
    decide +kernel
  have hc' : Registry.prefixedRule.captures? .forward "data/x/y" = some ["x", "y"] := by
    decide +kernel
  have ho : Registry.prefixedRule.outboundTopic .forward ["x", ""] = .ok "site/up/x" := by rfl
  have ho' : Registry.prefixedRule.outboundTopic .forward ["x", "y"] = .ok "site/up/x/y" := by rfl
  exact ⟨hr, hc, hc', ho, ho', outboundTopic_ne_of_ne hr (by decide) hc hc' ho ho'⟩

/-! ### Topics of which nothing is left -/

/-- What a rule matches of a topic ends where the `#` of its pattern begins. -/
def EndsEarly (r : Rule) (flow : Flow) (topic : String) : Prop :=
  ∃ bare, r.bare? flow topic = some bare ∧ Topic.EndsEarly (r.inbound flow).levels (split bare)

/-- A topic of which nothing is left: the template is a `#`, and there is nothing to put in its
place. -/
structure Vanishes (r : Rule) (flow : Flow) (topic : String) : Prop where
  levels : (r.outbound flow).levels = [.multi]
  endsEarly : r.EndsEarly flow topic

variable {topic : String} {captures : List String}

theorem getLast?_eq_empty_iff (hc : r.captures? flow topic = some captures) :
    captures.getLast? = some "" ↔ r.EndsEarly flow topic := by
  obtain ⟨bare, hbare, hmatch⟩ := exists_captures?_inbound hc
  rw [Topic.getLast?_eq_empty_iff (r.inbound flow).proper (Pattern.matchLevels_of_captures? hmatch)]
  constructor
  · intro h
    exact ⟨bare, hbare, h⟩
  · rintro ⟨bare', hbare', h⟩
    obtain rfl : bare = bare' := Option.some.inj (hbare.symm.trans hbare')
    exact h

/-- Nothing is left of a topic if a `#` that stands alone is filled with nothing. -/
theorem vanishes_iff (hc : r.captures? flow topic = some captures) :
    r.Vanishes flow topic ↔
      (r.outbound flow).levels = [.multi] ∧ captures.getLast? = some "" := by
  rw [getLast?_eq_empty_iff hc]
  constructor
  · intro h
    exact ⟨h.levels, h.endsEarly⟩
  · rintro ⟨hlevels, hends⟩
    exact ⟨hlevels, hends⟩

/-- What is filled in is the template with its wildcards replaced, unless nothing is left. -/
theorem fill_outbound (hr : compile settings index common = .ok r)
    (hc : r.captures? flow topic = some captures) :
    (r.Vanishes flow topic → (r.outbound flow).fill captures = .error .empty) ∧
      (¬r.Vanishes flow topic →
        (r.outbound flow).fill captures =
          .ok (join (replaced (r.outbound flow).levels captures))) := by
  rw [Pattern.fill_eq (captured_outbound (wildcards_eq hr) hc), vanishes_iff hc]
  exact ⟨fun h => if_pos h, fun h => if_neg h⟩

/-- **What a rule makes of a topic, and when it fails**: it never misses a capture, it fails if and
only if nothing is left of the topic, and otherwise it makes its template with the wildcards
replaced, behind the prefix if the flow leads to the destination.  A capture that is left out is
that of a `#` for which the topic has no level.  Writing along the template gives the same. -/
theorem outboundTopic_of_captures? (hr : compile settings index common = .ok r)
    (hc : r.captures? flow topic = some captures) :
    (∀ expected actual,
        r.outboundTopic flow captures ≠ .error (.captureCount expected actual)) ∧
      (r.outboundTopic flow captures = .error .empty ↔ r.Vanishes flow topic) ∧
      (¬r.Vanishes flow topic →
        (r.outbound flow).fill captures =
            .ok (join (replaced (r.outbound flow).levels captures)) ∧
          r.outboundTopic flow captures =
            .ok (r.placed flow (join (replaced (r.outbound flow).levels captures)))) ∧
      (captures.getLast? = some "" ↔ r.EndsEarly flow topic) ∧
      (r.outbound flow).compose captures = (r.outbound flow).fill captures := by
  obtain ⟨hnothing, hsomething⟩ := fill_outbound hr hc
  have hcompose := Pattern.compose_eq (r.outbound flow) captures
  by_cases hvanishes : r.Vanishes flow topic
  · have hout : r.outboundTopic flow captures = .error .empty := by
      rw [outboundTopic_eq, hnothing hvanishes]
      rfl
    rw [hout]
    refine ⟨?_, iff_of_true rfl hvanishes, fun h => absurd hvanishes h,
      getLast?_eq_empty_iff hc, hcompose⟩
    intro expected actual h
    cases h
  · have hfill := hsomething hvanishes
    have hout := outboundTopic_eq_ok_iff.2 ⟨_, hfill, rfl⟩
    rw [hout]
    refine ⟨?_, iff_of_false ?_ hvanishes, fun _ => ⟨hfill, rfl⟩,
      getLast?_eq_empty_iff hc, hcompose⟩
    · intro expected actual h
      cases h
    · intro h
      cases h

/-- Under the rule from `in/#` to `#` behind `site`, the topic `in` leads nowhere, `in/b` leads to
`site/b`, and `site/b` back to `in/b`. -/
theorem outboundTopic_of_captures?_stripping :
    compile (twoWay "in/#" "#" (some "site")) 0 none = .ok Registry.strippingRule ∧
      Registry.strippingRule.captures? .forward "in" = some [""] ∧
      Registry.strippingRule.captures? .forward "in/b" = some ["b"] ∧
      Registry.strippingRule.captures? .reverse "site/b" = some ["b"] ∧
      Registry.strippingRule.outboundTopic .forward [""] = .error .empty ∧
      Registry.strippingRule.outboundTopic .forward ["b"] = .ok "site/b" ∧
      Registry.strippingRule.outboundTopic .reverse ["b"] = .ok "in/b" := by
  have hr : compile (twoWay "in/#" "#" (some "site")) 0 none = .ok Registry.strippingRule := by rfl
  have hend : Registry.strippingRule.captures? .forward "in" = some [""] := by decide +kernel
  have hgo : Registry.strippingRule.captures? .forward "in/b" = some ["b"] := by decide +kernel
  have hback : Registry.strippingRule.captures? .reverse "site/b" = some ["b"] := by
    decide +kernel
  have hfull : ["b"].getLast? ≠ some "" := by decide
  obtain ⟨-, hempty, -⟩ := outboundTopic_of_captures? hr hend
  obtain ⟨-, -, hforward, -⟩ := outboundTopic_of_captures? hr hgo
  obtain ⟨-, -, hreverse, -⟩ := outboundTopic_of_captures? hr hback
  refine ⟨hr, hend, hgo, hback, hempty.2 ((vanishes_iff hend).2 ⟨by rfl, by rfl⟩), ?_, ?_⟩
  · exact (hforward fun h => hfull ((vanishes_iff hgo).1 h).2).2
  · exact (hreverse fun h => hfull ((vanishes_iff hback).1 h).2).2

end Rule

end TopicBridge
