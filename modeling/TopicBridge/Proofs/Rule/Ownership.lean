/-
**Who owns a topic.**

Of the copies of a message, the one counts that the first matching filter has brought in; the rule
that handles the message is looked up on its own.  The filters are fewer than the rules, since
rules may share a filter, but they stand in the order in which the rules use them first.  So in the
forward flow, where a rule matches what its filter matches, both searches come to the same end.

Main definitions:

* `TopicBridge.Pattern.isMatch` — whether a text is a pattern that a topic matches.

Main results:

* `Registry.map_rule_find?` — the rule that handles a topic is the first that matches it;
* `Registry.map_filter_find?_forward` — **the first filter that matches a topic is that of the rule
  which handles it**;
* `Registry.owner?_forward` — the subscription that owns a topic against the rule that handles it.
-/

import Mathlib.Data.List.Nodup
import TopicBridge.Proofs.Rule.RoundTrip

set_option autoImplicit false

namespace TopicBridge

/-! ### Patterns as texts -/

namespace Pattern

theorem parse_text (p : Pattern) : parse p.text = .ok p := parse_eq_ok_iff.2 rfl

/-- Whether a text is a pattern that a topic matches. -/
def isMatch (topic text : String) : Bool := (parse text).toOption.any fun p => p.matches? topic

theorem isMatch_text (topic : String) (p : Pattern) : isMatch topic p.text = p.matches? topic := by
  rw [isMatch, parse_text]
  rfl

end Pattern

/-! ### The forward flow -/

namespace Rule

/-- In the forward flow a rule matches what its filter matches. -/
theorem isSome_captures?_forward (r : Rule) (topic : String) :
    (r.captures? .forward topic).isSome =
      Pattern.isMatch topic (r.subscriptionFilter .forward) := by
  have hfilter : r.subscriptionFilter .forward = r.source.text := rfl
  rw [captures?_forward, hfilter, Pattern.isMatch_text]
  rfl

end Rule

namespace Registry

variable {c : Config} {g : Registry}

/-- The rule that handles a topic is the first that matches it. -/
theorem map_rule_find? (g : Registry) (flow : Flow) (topic : String) :
    (g.find? flow topic).map Match.rule =
      g.rules.find? fun r => (r.captures? flow topic).isSome := by
  rw [find?]
  induction g.rules with
  | nil => rfl
  | cons r rules ih =>
      rw [List.findSome?_cons, List.find?_cons]
      cases hr : r.captures? flow topic with
      | none => simpa using ih
      | some captures => rfl

/-- **The first filter that matches a topic is that of the rule which handles it.** -/
theorem map_filter_find?_forward (hg : build c = .ok g) (topic : String) :
    ((g.interests .forward).find? fun i => i.filter.matches? topic).map (fun i => i.filter.text) =
      (g.find? .forward topic).map fun m => m.rule.source.text := by
  have hall : (g.rules.filter fun r => r.appliesTo .forward) = g.rules :=
    List.filter_eq_self.2 fun _ _ => rfl
  have hfirst := (collects_interests hg .forward).find?_text (Pattern.isMatch topic)
  rw [hall, List.find?_map, List.find?_map] at hfirst
  have hfilter : (fun i : Interest => i.filter.matches? topic) =
      Pattern.isMatch topic ∘ fun i : Interest => i.filter.text := by
    funext i
    exact (Pattern.isMatch_text topic i.filter).symm
  have hrule : (Pattern.isMatch topic ∘ fun r : Rule => r.subscriptionFilter .forward) =
      fun r : Rule => (r.captures? .forward topic).isSome := by
    funext r
    exact (r.isSome_captures?_forward topic).symm
  rw [hfilter, hfirst, hrule, ← map_rule_find?, Option.map_map]
  rfl

theorem owner?_nil (g : Registry) (flow : Flow) (topic : String) :
    g.owner? flow topic [] =
      ((g.interests flow).find? fun i => i.filter.matches? topic).map Interest.id := by
  simp [owner?]

/-- Identifiers tell the filters of a flow apart, as far as there are enough of them. -/
theorem eq_of_id_eq (hg : build c = .ok g) {flow : Flow}
    (hlen : (g.interests flow).length < UInt32.size) {i j : Interest}
    (hi : i ∈ g.interests flow) (hj : j ∈ g.interests flow) (h : i.id = j.id) : i = j := by
  have hnodup : ((g.interests flow).map Interest.id).Nodup :=
    List.pairwise_map.2 ((pairwise_id_lt hg hlen).imp fun hlt => UInt32.ne_of_lt hlt)
  exact List.inj_on_of_nodup_map hnodup hi hj h

/-- **The subscription that owns a topic against the rule that handles it**: there is the one if
and only if there is the other, and then the subscription has the filter of the rule, at its
quality of service or above. -/
theorem owner?_forward (hg : build c = .ok g) (topic : String) :
    ((g.owner? .forward topic []).isSome ↔ (g.find? .forward topic).isSome) ∧
      ∀ m, g.find? .forward topic = some m →
        ∃ i ∈ g.interests .forward, g.owner? .forward topic [] = some i.id ∧
          i.filter.text = m.rule.source.text ∧ m.rule.qos ≤ i.qos ∧
          ((g.interests .forward).length < UInt32.size →
            ∀ j ∈ g.interests .forward, j.id = i.id → j = i) := by
  have hsame := map_filter_find?_forward hg topic
  rw [owner?_nil]
  constructor
  · have hsome := congrArg Option.isSome hsame
    rw [Option.isSome_map, Option.isSome_map] at hsome
    rw [Option.isSome_map, hsome]
  · intro m hm
    rw [hm, Option.map_some] at hsame
    obtain ⟨i, hi, htext⟩ := Option.map_eq_some_iff.1 hsame
    have hmem : i ∈ g.interests .forward := List.mem_of_find?_eq_some hi
    obtain ⟨after, hrules, -⟩ := exists_split_of_find? hm
    have hrule : m.rule ∈ g.rules.filter fun r => r.appliesTo .forward := by
      rw [List.mem_filter, hrules]
      exact ⟨List.mem_append_right _ (List.mem_cons_self ..), rfl⟩
    -- the entry that serves the rule has its filter, and so has the entry that has been found
    have hc := collects_interests hg .forward
    obtain ⟨j, hj, htext', hqos⟩ := hc.exists_interest _ hrule
    obtain rfl : j = i :=
      List.inj_on_of_nodup_map hc.nodup_text hj hmem (htext'.trans htext.symm)
    refine ⟨j, hj, by rw [hi]; rfl, htext, hqos, ?_⟩
    intro hlen k hk hid
    exact eq_of_id_eq hg hlen hk hj hid

/-- Settings with two rules for one filter, and a rule for a wider filter between them. -/
def sharing : Config where
  source := { host := "a" }
  destination := { host := "b" }
  rules := [
    { sourceTopic := "plant/+", destTopic := "low/+", qos := 0 },
    { sourceTopic := "plant/#", destTopic := "all/#", qos := 1 },
    { sourceTopic := "plant/+", destTopic := "high/+", qos := 2 }]

/-- The first rule handles the topic `plant/x` at most once; the subscription that owns it is the
first, which serves the third rule too. -/
theorem owner?_forward_sharing :
    ∃ g m, build sharing = .ok g ∧ g.find? .forward "plant/x" = some m ∧ m.rule.id = "0" ∧
      m.rule.qos = .atMostOnce ∧ (g.owner? .forward "plant/x" []).isSome ∧
      ∃ i ∈ g.interests .forward, g.owner? .forward "plant/x" [] = some i.id ∧ i.id = 1 ∧
        i.filter.text = "plant/+" ∧ m.rule.qos ≤ i.qos := by
  have hfacts : (build sharing).toOption.map (fun g =>
      ((g.find? .forward "plant/x").map fun m => (m.rule.id, m.rule.qos, m.rule.source.text),
        g.owner? .forward "plant/x" [])) =
      some (some ("0", .atMostOnce, "plant/+"), some 1) := by decide +kernel
  obtain ⟨g, hbuild, hboth⟩ := Option.map_eq_some_iff.1 hfacts
  obtain ⟨hfind, howner⟩ := Prod.mk.inj hboth
  obtain ⟨m, hm, hrule⟩ := Option.map_eq_some_iff.1 hfind
  obtain ⟨hid, hqos, htext⟩ := Prod.mk.inj hrule |>.imp_right Prod.mk.inj
  obtain ⟨hsome, howned⟩ := owner?_forward (toOption_eq_some_iff.1 hbuild) "plant/x"
  obtain ⟨i, hi, hown, hfilter, hle, -⟩ := howned m hm
  refine ⟨g, m, toOption_eq_some_iff.1 hbuild, hm, hid, hqos, hsome.2 ?_, i, hi, hown, ?_,
    hfilter.trans htext, hle⟩
  · rw [hm]
    rfl
  · exact Option.some.inj (hown.symm.trans howner)

end Registry

end TopicBridge
