/-
**Outbound topics.**

The topic that a rule makes is put together from a prefix, the literals of a template and captured
text, and it is not checked again.  It needs no check but for its length: none of its levels is
empty, and no character occurs that a topic name does not hold.  A rule fails to make a topic in one
case only, and the decision says so.

Main definitions:

* `TopicBridge.Registry.stripping`, `Registry.lifting` — a registry of one rule from `in/#` to `#`
  behind `site`, and one of a rule from `#` to `out/#`.

Main results:

* `Rule.wellFormed_outboundTopic` — **what a rule makes is well-formed**;
* `Mqtt.Publish.exists_encode_iff` — when a message has a written form;
* `Registry.forwarded_topic` — the topics of forwarded messages, and the messages without one;
* `Registry.forwarded_topic_too_long` — a message that is forwarded under no topic name.
-/

import TopicBridge.Proofs.Mqtt.Reread
import TopicBridge.Proofs.Rule.Coverage
import TopicBridge.Relay.Decision

set_option autoImplicit false

namespace TopicBridge

/-! ### Prefixes -/

namespace Topic

variable {front topic : String}

/-- A well-formed topic behind a well-formed prefix is well-formed. -/
theorem WellFormed.addLevels (hf : WellFormed front) (ht : WellFormed topic) :
    WellFormed (addLevels front topic) where
  empty_not_mem_split := by
    rw [split_addLevels, List.mem_append, not_or]
    exact ⟨hf.empty_not_mem_split, ht.empty_not_mem_split⟩
  plain := by
    intro x hx
    rw [toList_addLevels, List.mem_append, List.mem_cons] at hx
    rcases hx with hx | rfl | hx
    · exact hf.plain x hx
    · decide
    · exact ht.plain x hx

/-- A prefix with which nothing is wrong is well-formed. -/
theorem wellFormed_of_prefixError? (h : prefixError? front = none) : WellFormed front := by
  simp only [prefixError?] at h
  split at h
  · cases h
  rename_i hpattern
  have hwild : hasWildcard front = false := by simpa using h
  obtain ⟨p, hp⟩ : ∃ p : Pattern, p = ⟨front, hpattern⟩ := ⟨_, rfl⟩
  -- the prefix is a pattern of literals, and the levels of a pattern are proper
  have hlevels : p.levels = (split front).map .literal ++ [] := by
    rw [List.append_nil, ← levels_of_hasWildcard_eq_false hwild, hp]
    rfl
  have hc : Captured p.levels [] := by
    rw [hlevels, captured_map_literal_append]
    rfl
  have hexpand : expand p.levels [] = split front := by
    rw [hlevels, expand_map_literal_append, expand, List.append_nil]
  constructor
  · rw [← hexpand]
    exact empty_not_mem_expand p.proper hc
  · rw [← join_split front, plain_join_iff]
    intro level hl
    refine p.plain_of_literal_mem_levels ?_
    rw [hlevels, List.append_nil]
    exact List.mem_map_of_mem hl

end Topic

/-! ### Rules -/

namespace Rule

variable {r : Rule} {flow : Flow} {topic outbound : String} {captures : List String}

/-- The captures of an inbound topic are those of a part of it. -/
theorem exists_captures?_inbound (h : r.captures? flow topic = some captures) :
    ∃ bare, r.bare? flow topic = some bare ∧ (r.inbound flow).captures? bare = some captures := by
  rw [Rule.captures?] at h
  split_ifs at h
  exact Option.bind_eq_some_iff.1 h

/-- The captures of an inbound topic fit the template of outbound topics. -/
theorem captured_outbound (hw : r.source.wildcards = r.dest.wildcards)
    (hc : r.captures? flow topic = some captures) :
    Topic.Captured (r.outbound flow).levels captures := by
  obtain ⟨bare, -, hbare⟩ := exists_captures?_inbound hc
  obtain ⟨-, -, hfit, -⟩ := Pattern.captures?_eq_some_iff.1 hbare
  cases flow with
  | forward => exact (Topic.captured_iff_of_wildcards hw captures).1 hfit
  | reverse => exact (Topic.captured_iff_of_wildcards hw captures).2 hfit

/-- **What a rule makes is well-formed.** -/
theorem wellFormed_outboundTopic (hw : r.source.wildcards = r.dest.wildcards)
    (hp : ∀ front, r.topicPrefix = some front → prefixError? front = none)
    (hc : r.captures? flow topic = some captures)
    (ho : r.outboundTopic flow captures = .ok outbound) : Topic.WellFormed outbound := by
  obtain ⟨bare, -, hbare⟩ := exists_captures?_inbound hc
  obtain ⟨filled, hfill, rfl⟩ := outboundTopic_eq_ok_iff.1 ho
  cases flow with
  | forward =>
      have hfilled := Pattern.wellFormed_of_fill hw hbare hfill
      cases hfront : r.topicPrefix with
      | none =>
          rw [placed_forward_of_none hfront]
          exact hfilled
      | some front =>
          rw [placed_forward_of_some hfront]
          exact (Topic.wellFormed_of_prefixError? (hp front hfront)).addLevels hfilled
  | reverse => exact Pattern.wellFormed_of_fill hw.symm hbare hfill

/-- A rule makes no topic if and only if it would have to make one of nothing. -/
theorem outboundTopic_ne_ok_iff (hc : Topic.Captured (r.outbound flow).levels captures) :
    (∀ outbound, r.outboundTopic flow captures ≠ .ok outbound) ↔
      (r.outbound flow).text = "#" ∧ captures = [""] := by
  rw [← Pattern.fill_ne_ok_iff hc]
  constructor
  · intro h filled hfill
    exact h _ (outboundTopic_eq_ok_iff.2 ⟨filled, hfill, rfl⟩)
  · intro h outbound ho
    obtain ⟨filled, hfill, -⟩ := outboundTopic_eq_ok_iff.1 ho
    exact h filled hfill

end Rule

/-! ### Messages -/

namespace Mqtt

theorem exists_writeText_iff {s : String} :
    (∃ bytes, writeText s = .ok bytes) ↔ s.utf8ByteSize ≤ Topic.maxSize := by
  have hlen : (Bytes.ofString s).length = s.utf8ByteSize := Bytes.length_ofString s
  rw [writeText, writeBinary, hlen, Topic.maxSize]
  split_ifs with h <;> simp [h]

/-- A message has a written form if its topic is not too long and nothing else is in the way. -/
theorem Publish.exists_encode_iff {p : Publish} :
    (∃ bytes, p.encode = .ok bytes) ↔
      p.topic.utf8ByteSize ≤ Topic.maxSize ∧
        (∃ header, Frame.header p.first p.bodySize = .ok header) ∧
          ∃ properties, p.properties.encode = .ok properties := by
  simp only [encode_eq_ok_iff, ← exists_writeText_iff]
  constructor
  · rintro ⟨_, header, topic, properties, hheader, htopic, hproperties, -⟩
    exact ⟨⟨topic, htopic⟩, ⟨header, hheader⟩, properties, hproperties⟩
  · rintro ⟨⟨topic, htopic⟩, ⟨header, hheader⟩, properties, hproperties⟩
    exact ⟨_, header, topic, properties, hheader, htopic, hproperties, rfl⟩

end Mqtt

/-! ### Decisions -/

namespace Registry

variable {c : Config} {g : Registry} {flow : Flow} {refused : List UInt32} {m out : Message}
  {now : WallTime} {id : String} {found : Match}

/-- The decision on a copy that counts, of a message that a rule handles and its filters accept. -/
theorem decide_of_find? (hd : g.isDuplicate flow refused m = false)
    (hf : g.find? flow m.topic = some found)
    (ha : Filter.verdict found.rule.filters m.payload now = .accept) :
    g.decide flow refused m now =
      match outboundTopic flow found with
      | .ok topic => .forward found.rule.id (redirect m topic)
      | .error e => .noTopic found.rule.id e := by
  cases ho : outboundTopic flow found <;> simp [decide, hd, hf, ha, ho]

/-- A message is forwarded under the topic that the rule which handles it makes. -/
theorem exists_match_of_forward (h : g.decide flow refused m now = .forward id out) :
    ∃ found, g.find? flow m.topic = some found ∧ id = found.rule.id ∧
      outboundTopic flow found = .ok out.topic := by
  rw [decide] at h
  split_ifs at h
  split at h
  · cases h
  rename_i found hfind
  split at h
  · cases h
  split at h
  · rename_i topic hout
    cases h
    exact ⟨found, hfind, rfl, hout⟩
  · cases h

/-- The rule that handles a topic is one of the registry's, and has captured from the topic. -/
theorem captures?_of_find? {topic : String} (h : g.find? flow topic = some found) :
    found.rule ∈ g.rules ∧ found.rule.captures? flow topic = some found.captures := by
  obtain ⟨after, hrules, hc, -⟩ := exists_split_of_find? h
  refine ⟨?_, hc⟩
  rw [hrules]
  exact List.mem_append_right _ (List.mem_cons_self ..)

/-- **The topics of forwarded messages**: each is well-formed, so that it is a topic name, and can be
written, unless it is too long.  A message that a rule has to make a topic of nothing for is
reported, and no other. -/
theorem forwarded_topic (hv : c.validate = .ok ()) (hg : build c = .ok g) (flow : Flow)
    (refused : List UInt32) (m : Message) (now : WallTime) :
    (∀ id out, g.decide flow refused m now = .forward id out →
      Topic.WellFormed out.topic ∧
        (Topic.IsName out.topic ↔ out.topic.utf8ByteSize ≤ Topic.maxSize) ∧
        ∀ p : Mqtt.Publish, p.topic = out.topic →
          ((∃ bytes, p.encode = .ok bytes) ↔
            out.topic.utf8ByteSize ≤ Topic.maxSize ∧
              (∃ header, Mqtt.Frame.header p.first p.bodySize = .ok header) ∧
                ∃ properties, p.properties.encode = .ok properties)) ∧
    ∀ found, g.isDuplicate flow refused m = false → g.find? flow m.topic = some found →
      Filter.verdict found.rule.filters m.payload now = .accept →
        ((∀ topic, outboundTopic flow found ≠ .ok topic) ↔
          g.decide flow refused m now = .noTopic found.rule.id .empty) ∧
        ((∀ topic, outboundTopic flow found ≠ .ok topic) ↔
          (found.rule.outbound flow).text = "#" ∧ found.captures = [""]) := by
  constructor
  · intro id out h
    obtain ⟨found, hf, -, ho⟩ := exists_match_of_forward h
    obtain ⟨hmem, hc⟩ := captures?_of_find? hf
    have hwell : Topic.WellFormed out.topic :=
      Rule.wellFormed_outboundTopic (wildcards_eq hg hmem)
        (fun front hfront => prefixError?_eq_none hv hg hmem hfront) hc ho
    refine ⟨hwell, hwell.isName_iff, ?_⟩
    intro p hp
    rw [← hp]
    exact Mqtt.Publish.exists_encode_iff
  · intro found hd hf ha
    obtain ⟨hmem, hc⟩ := captures?_of_find? hf
    have hfit := Rule.captured_outbound (wildcards_eq hg hmem) hc
    have hnothing : (∀ topic, outboundTopic flow found ≠ .ok topic) ↔
        (found.rule.outbound flow).text = "#" ∧ found.captures = [""] :=
      Rule.outboundTopic_ne_ok_iff hfit
    refine ⟨?_, hnothing⟩
    rw [decide_of_find? hd hf ha]
    constructor
    · intro h
      obtain ⟨htext, hcaptures⟩ := hnothing.1 h
      have hempty : outboundTopic flow found = .error .empty := by
        rw [outboundTopic, Rule.outboundTopic, hcaptures, Pattern.fill_multi_nothing htext]
        rfl
      rw [hempty]
    · intro h topic hok
      simp [hok] at h

/-- The rule from `in/#` to `#` behind `site`. -/
def strippingRule : Rule where
  id := "0"
  source := ⟨"in/#", by decide +kernel⟩
  dest := ⟨"#", by decide +kernel⟩
  direction := .bidirectional
  filters := []
  qos := .atLeastOnce
  topicPrefix := some "site"

/-- The registry of that rule. -/
def stripping : Registry :=
  ⟨[strippingRule], [⟨1, strippingRule.source, .atLeastOnce⟩],
    [⟨1, ⟨"site/#", by decide +kernel⟩, .atLeastOnce⟩]⟩

/-- A message without content. -/
def blank (topic : String) : Message := ⟨topic, [], .atLeastOnce, false, {}⟩

/-- Under a rule from `in/#` to `#` behind `site`, a message under `in/b` goes to `site/b`, and for one
under `in` no topic can be made. -/
theorem forwarded_topic_stripping :
    (mirrored "in/#" "#" (some "site")).validate = .ok () ∧
      build (mirrored "in/#" "#" (some "site")) = .ok stripping ∧
      (∃ out, stripping.decide .forward [] (blank "in/b") .beforeEpoch = .forward "0" out ∧
        out.topic = "site/b" ∧ Topic.WellFormed out.topic ∧ Topic.IsName out.topic) ∧
      stripping.decide .forward [] (blank "in") .beforeEpoch = .noTopic "0" .empty := by
  have hv : (mirrored "in/#" "#" (some "site")).validate = .ok () := by rfl
  have hg : build (mirrored "in/#" "#" (some "site")) = .ok stripping := by rfl
  have hforward : stripping.decide .forward [] (blank "in/b") .beforeEpoch =
      .forward "0" (blank "site/b") := by rfl
  have hfind : stripping.find? .forward "in" = some ⟨strippingRule, [""]⟩ := by rfl
  obtain ⟨hwell, hname, -⟩ :=
    (forwarded_topic hv hg .forward [] (blank "in/b") .beforeEpoch).1 _ _ hforward
  have hnothing :=
    (forwarded_topic hv hg .forward [] (blank "in") .beforeEpoch).2 _ (by rfl) hfind (by rfl)
  exact ⟨hv, hg, ⟨_, hforward, rfl, hwell, hname.2 (by decide +kernel)⟩,
    hnothing.1.1 (hnothing.2.2 ⟨rfl, rfl⟩)⟩

/-! ### A topic that gets too long -/

/-- The rule from `#` to `out/#`. -/
def liftingRule : Rule where
  id := "0"
  source := ⟨"#", by decide +kernel⟩
  dest := ⟨"out/#", by decide +kernel⟩
  direction := .bidirectional
  filters := []
  qos := .atLeastOnce
  topicPrefix := none

/-- The registry of that rule. -/
def lifting : Registry :=
  ⟨[liftingRule], [⟨1, liftingRule.source, .atLeastOnce⟩], [⟨1, liftingRule.dest, .atLeastOnce⟩]⟩

/-- The rule from `#` takes a topic of one level as it is. -/
theorem captures?_lifting {topic : String} (hn : Topic.IsName topic) (hs : '/' ∉ topic.toList)
    (hr : Topic.isReserved topic = false) :
    liftingRule.captures? .forward topic = some [topic] := by
  have hne : topic ≠ "" := ((Topic.isName_iff topic).1 hn).1
  have hsplit : Topic.split topic = [topic] := Topic.split_of_not_mem hs
  have hlevels : liftingRule.source.levels = [.multi] := by rfl
  rw [Rule.captures?_forward, Pattern.captures?_eq_some_iff, hlevels]
  refine ⟨hn, by simp [hr], ⟨?_, rfl⟩, ?_⟩
  · simpa [Topic.levelsOf_of_ne hne, hsplit] using hne.symm
  · simp [Topic.expand, Topic.levelsOf_of_ne hne]

theorem outboundTopic_lifting {topic : String} (hne : topic ≠ "") :
    liftingRule.outboundTopic .forward [topic] = .ok (Topic.addLevels "out" topic) := by
  have hlevels : liftingRule.dest.levels = [.literal "out", .multi] := by rfl
  have hwild : liftingRule.dest.wildcards = [.multi] := by rfl
  have hjoin : Topic.join ["out", topic] = Topic.addLevels "out" topic := by
    rw [← String.toList_inj, Topic.toList_join_cons_cons, Topic.toList_addLevels,
      Topic.join_singleton]
  have hfill : liftingRule.dest.fill [topic] = .ok (Topic.addLevels "out" topic) := by
    simp [Pattern.fill, hwild, hlevels, Topic.fill, hne, hjoin]
  rw [Rule.outboundTopic, Rule.outbound, hfill]
  rfl

/-- A topic of one level that is not set apart goes behind `out`. -/
theorem decide_lifting {topic : String} (hn : Topic.IsName topic) (hs : '/' ∉ topic.toList)
    (hr : Topic.isReserved topic = false) :
    lifting.decide .forward [] (blank topic) .beforeEpoch =
      .forward "0" (blank (Topic.addLevels "out" topic)) := by
  have hrules : lifting.rules = [] ++ liftingRule :: [] := rfl
  have hfind : lifting.find? .forward topic = some ⟨liftingRule, [topic]⟩ :=
    find?_eq_some_of_captures? hrules (by simp) (captures?_lifting hn hs hr)
  have hout := outboundTopic_lifting ((Topic.isName_iff topic).1 hn).1
  rw [decide_of_find? (by rfl) hfind (by rfl), outboundTopic, hout]
  rfl

/-- The topic of one level with `n` letters. -/
def letters (n : Nat) : String := String.ofList (List.replicate n 'a')

theorem utf8ByteSize_letters (n : Nat) : (letters n).utf8ByteSize = n := by
  induction n with
  | zero => rfl
  | succ n ih =>
      have hsucc : letters (n + 1) = "a" ++ letters n := by
        rw [← String.toList_inj]
        simp [letters, List.replicate_succ]
      rw [hsucc, String.utf8ByteSize_append, ih, Nat.add_comm]
      rfl

theorem isName_letters {n : Nat} (hpos : 0 < n) (hmax : n ≤ Topic.maxSize) :
    Topic.IsName (letters n) := by
  rw [Topic.isName_iff, utf8ByteSize_letters]
  refine ⟨?_, hmax, ?_⟩
  · intro h
    have hsize := utf8ByteSize_letters n
    rw [h] at hsize
    simp at hsize
    omega
  · intro x hx
    rw [letters, String.toList_ofList] at hx
    rw [List.eq_of_mem_replicate hx]
    decide

/-- **A message that is forwarded under no topic name**: its topic is as long as a topic can be, and
the template adds a level. -/
theorem forwarded_topic_too_long :
    ∃ out, (mirrored "#" "out/#" none).validate = .ok () ∧
      build (mirrored "#" "out/#" none) = .ok lifting ∧
      Topic.IsName (letters 65535) ∧
      lifting.decide .forward [] (blank (letters 65535)) .beforeEpoch = .forward "0" out ∧
      ¬Topic.IsName out.topic ∧
      ∀ p : Mqtt.Publish, p.topic = out.topic → ∀ bytes, p.encode ≠ .ok bytes := by
  have hn : Topic.IsName (letters 65535) := isName_letters (by decide) (by decide)
  have hs : '/' ∉ (letters 65535).toList := by
    rw [letters, String.toList_ofList, List.mem_replicate]
    simp
  have hr : Topic.isReserved (letters 65535) = false := by
    rw [Topic.isReserved, letters, String.toList_ofList, List.head?_replicate]
    simp
  have hlong : ¬(Topic.addLevels "out" (letters 65535)).utf8ByteSize ≤ Topic.maxSize := by
    rw [Topic.utf8ByteSize_addLevels, utf8ByteSize_letters]
    decide
  refine ⟨_, by rfl, by rfl, hn, decide_lifting hn hs hr, ?_, ?_⟩
  · intro hout
    exact hlong ((Topic.isName_iff _).1 hout).2.1
  · intro p hp bytes hencode
    have hsize := (Mqtt.Publish.exists_encode_iff.1 ⟨bytes, hencode⟩).1
    rw [hp] at hsize
    exact hlong hsize

end Registry

end TopicBridge
