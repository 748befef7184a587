/-
**What a registry is built of.**

Every rule of a registry that has been built is one of the rules of the settings, read without an
error; and the filters of a flow are those of the rules that relay in it, each once and in the order
of their first use.  That is kept as the rules are taken in one after the other.  The results that
follow are all that other modules need to know of how a registry is built.

Main definitions:

* `TopicBridge.Registry.serve` — the entry of a filter after a further rule;
* `Registry.Collects` — the filters that have been collected from some rules.

Main results:

* `Registry.wildcards_eq` — both sides of a rule have the same wildcards;
* `Registry.prefixError?_eq_none` — with settings that have been checked, a prefix is right;
* `Registry.addInterest_cases` — what taking in a further rule does;
* `Registry.collects_interests` — **what the filters of a flow are**;
* `Registry.exists_interest_iff` — the filters of a flow are those of its rules;
* `Registry.map_id_interests` — the filters of a flow are numbered in their order;
* `Registry.owner?_eq_some` — the subscription whose copy counts has the lowest identifier.
-/

import Mathlib.Tactic.SplitIfs
import TopicBridge.Config.Validation
import TopicBridge.Proofs.Topic.Expansion
import TopicBridge.Rule.Registry

set_option autoImplicit false

namespace TopicBridge

/-! ### Checks one after the other -/

theorem bind_eq_ok_iff {ε α β : Type} {x : Except ε α} {f : α → Except ε β} {b : β} :
    x >>= f = .ok b ↔ ∃ a, x = .ok a ∧ f a = .ok b := by
  cases x with
  | error e => simp [bind, Except.bind]
  | ok a => simp [bind, Except.bind]

theorem bind_eq_error {ε α β : Type} {x : Except ε α} {f : α → β} {e : ε}
    (h : (do return f (← x)) = Except.error e) : x = .error e := by
  cases x with
  | error e' =>
      cases h
      rfl
  | ok a => cases h

theorem mapError_eq_ok_iff {ε δ α : Type} {x : Except ε α} {f : ε → δ} {a : α} :
    x.mapError f = .ok a ↔ x = .ok a := by
  cases x <;> simp [Except.mapError]

theorem toOption_eq_some_iff {ε α : Type} {x : Except ε α} {a : α} :
    x.toOption = some a ↔ x = .ok a := by
  cases x <;> simp [Except.toOption]

/-- What has been made of the parts of a list, one after the other, has been made of one of them. -/
theorem exists_of_mem_mapM {ε α β : Type} {f : α → Except ε β} {l : List α} {made : List β}
    (h : l.mapM f = .ok made) {b : β} (hb : b ∈ made) : ∃ a ∈ l, f a = .ok b := by
  induction l generalizing made with
  | nil =>
      obtain rfl : [] = made := Except.ok.inj h
      simp at hb
  | cons a l ih =>
      rw [List.mapM_cons, bind_eq_ok_iff] at h
      obtain ⟨c, hc, h⟩ := h
      rw [bind_eq_ok_iff] at h
      obtain ⟨more, hmore, h⟩ := h
      obtain rfl : c :: more = made := Except.ok.inj h
      rcases List.mem_cons.1 hb with rfl | hb
      · exact ⟨a, List.mem_cons_self .., hc⟩
      · obtain ⟨a', ha', hf⟩ := ih hmore hb
        exact ⟨a', List.mem_cons_of_mem _ ha', hf⟩

/-- Where something has been made of a list, something has been made of each of its parts. -/
theorem exists_of_mem_of_mapM {ε α β : Type} {f : α → Except ε β} {l : List α} {made : List β}
    (h : l.mapM f = .ok made) {a : α} (ha : a ∈ l) : ∃ b, f a = .ok b := by
  induction l generalizing made with
  | nil => cases ha
  | cons first l ih =>
      rw [List.mapM_cons, bind_eq_ok_iff] at h
      obtain ⟨b, hb, h⟩ := h
      rw [bind_eq_ok_iff] at h
      obtain ⟨more, hmore, -⟩ := h
      rcases List.mem_cons.1 ha with rfl | ha
      · exact ⟨b, hb⟩
      · exact ih hmore ha

/-! ### Rules -/

namespace Rule

/-- What a rule keeps of the settings that it is read from. -/
theorem of_read_eq_ok {s : RuleSettings} {index : Nat} {common : Option String} {r : Rule}
    (h : read s index common = .ok r) :
    r.source.wildcards = r.dest.wildcards ∧
      r.topicPrefix = match s.topicPrefix with
        | some own => Topic.trimmed? own
        | none => common := by
  rw [read, bind_eq_ok_iff] at h
  obtain ⟨source, -, h⟩ := h
  rw [bind_eq_ok_iff] at h
  obtain ⟨dest, -, h⟩ := h
  rw [bind_eq_ok_iff] at h
  obtain ⟨_, hcheck, h⟩ := h
  rw [bind_eq_ok_iff] at h
  obtain ⟨filters, -, h⟩ := h
  rw [mapError_eq_ok_iff] at hcheck
  have hw : source.wildcards = dest.wildcards := Pattern.checkTemplate_eq_ok_iff.1 hcheck
  split at h
  · cases h
  · cases h
    exact ⟨hw, rfl⟩

end Rule

/-! ### Settings that have been checked -/

theorem Config.validate_eq_ok_iff {c : Config} : c.validate = .ok () ↔ c.problem? = none := by
  rw [Config.validate]
  cases c.problem? <;> simp

/-- Nothing is wrong with the prefix of a rule whose settings have been checked. -/
theorem Config.prefixError?_of_rule {c : Config} (hv : c.validate = .ok ()) {s : RuleSettings}
    {index : Nat} (hs : (s, index) ∈ c.rules.zipIdx) {own front : String}
    (ho : s.topicPrefix = some own) (hf : Topic.trimmed? own = some front) :
    prefixError? front = none := by
  have h := Config.validate_eq_ok_iff.1 hv
  simp only [Config.problem?, Option.or_eq_none_iff] at h
  have hrules : rulesProblem? c.rules = none := by
    have hne : c.rules ≠ [] := by rintro he; simp [he] at hs
    simpa [hne] using h.1.2
  have hrule : s.problem? = none := by
    have := List.findSome?_eq_none_iff.1 hrules (s, index) hs
    simpa using this
  rw [RuleSettings.problem?] at hrule
  split_ifs at hrule
  simpa [ho, hf] using hrule

/-- Nothing is wrong with the common prefix of settings that have been checked. -/
theorem Config.prefixError?_of_relay {c : Config} (hv : c.validate = .ok ()) {front : String}
    (hf : c.relay.trimmedPrefix? = some front) : prefixError? front = none := by
  have h := Config.validate_eq_ok_iff.1 hv
  simp only [Config.problem?, Option.or_eq_none_iff] at h
  have hrelay : c.relay.problem? = none := by simpa using h.2
  rw [RelayOptions.problem?] at hrelay
  split_ifs at hrelay
  simpa [hf] using hrelay

/-! ### Registries -/

namespace Registry

variable {c : Config} {g : Registry} {r : Rule}

/-- The parts of a registry that has been built. -/
theorem of_build_eq_ok (h : build c = .ok g) :
    compileAll c.rules c.relay.trimmedPrefix? = .ok g.rules ∧
      TopicBridge.interests .forward g.rules = .ok g.forward ∧
      TopicBridge.interests .reverse g.rules = .ok g.reverse := by
  rw [build, ofRules, bind_eq_ok_iff] at h
  obtain ⟨rules, hr, h⟩ := h
  rw [bind_eq_ok_iff] at h
  obtain ⟨forward, hf, h⟩ := h
  rw [bind_eq_ok_iff] at h
  obtain ⟨reverse, hv, h⟩ := h
  cases h
  exact ⟨hr, hf, hv⟩

/-- A rule of a registry is one of the rules of the settings. -/
theorem exists_settings_of_mem (h : build c = .ok g) (hr : r ∈ g.rules) :
    ∃ s index, (s, index) ∈ c.rules.zipIdx ∧ Rule.read s index c.relay.trimmedPrefix? = .ok r := by
  obtain ⟨⟨s, index⟩, hs, hc⟩ := exists_of_mem_mapM (of_build_eq_ok h).1 hr
  exact ⟨s, index, hs, mapError_eq_ok_iff.1 hc⟩

theorem wildcards_eq (h : build c = .ok g) (hr : r ∈ g.rules) :
    r.source.wildcards = r.dest.wildcards := by
  obtain ⟨s, index, -, hread⟩ := exists_settings_of_mem h hr
  exact (Rule.of_read_eq_ok hread).1

/-- With settings that have been checked, nothing is wrong with the prefix of a rule. -/
theorem prefixError?_eq_none (hv : c.validate = .ok ()) (h : build c = .ok g) (hr : r ∈ g.rules)
    {front : String} (hf : r.topicPrefix = some front) : prefixError? front = none := by
  obtain ⟨s, index, hs, hread⟩ := exists_settings_of_mem h hr
  have hp := (Rule.of_read_eq_ok hread).2
  rw [hf] at hp
  cases ho : s.topicPrefix with
  | none => exact Config.prefixError?_of_relay hv (by simpa [ho] using hp.symm)
  | some own => exact Config.prefixError?_of_rule hv hs ho (by simpa [ho] using hp.symm)

/-! ### Filters -/

/-- The identifiers of the first `n` filters. -/
def firstIds (n : Nat) : List UInt32 := (List.range n).map fun k => UInt32.ofNat (k + 1)

theorem firstIds_succ (n : Nat) : firstIds (n + 1) = firstIds n ++ [UInt32.ofNat (n + 1)] := by
  rw [firstIds, List.range_succ, List.map_append]
  rfl

/-- The entry of a filter after a further rule, which may have the same filter. -/
def serve (flow : Flow) (r : Rule) (i : Interest) : Interest :=
  if i.filter.text = r.subscriptionFilter flow then { i with qos := max i.qos r.qos } else i

@[simp] theorem filter_serve (flow : Flow) (r : Rule) (i : Interest) :
    (serve flow r i).filter = i.filter := by
  rw [serve]
  split_ifs <;> rfl

@[simp] theorem id_serve (flow : Flow) (r : Rule) (i : Interest) :
    (serve flow r i).id = i.id := by
  rw [serve]
  split_ifs <;> rfl

theorem qos_serve_of_eq {flow : Flow} {r : Rule} {i : Interest}
    (h : i.filter.text = r.subscriptionFilter flow) : (serve flow r i).qos = max i.qos r.qos := by
  rw [serve, if_pos h]

theorem qos_serve_of_ne {flow : Flow} {r : Rule} {i : Interest}
    (h : i.filter.text ≠ r.subscriptionFilter flow) : (serve flow r i).qos = i.qos := by
  rw [serve, if_neg h]

theorem qos_le_qos_serve (flow : Flow) (r : Rule) (i : Interest) :
    i.qos ≤ (serve flow r i).qos := by
  by_cases h : i.filter.text = r.subscriptionFilter flow
  · rw [qos_serve_of_eq h]
    exact Mqtt.QoS.le_max_left i.qos r.qos
  · rw [qos_serve_of_ne h]
    exact Mqtt.QoS.le_refl i.qos

/-- **What taking in a further rule does**: its filter is there already and the entry serves the
rule too, or it is a pattern and gets an entry of its own. -/
theorem addInterest_cases {flow : Flow} {found next : List Interest} {r : Rule}
    (h : addInterest flow found r = .ok next) :
    (r.subscriptionFilter flow ∈ found.map (fun i => i.filter.text) ∧
        next = found.map (serve flow r)) ∨
      (r.subscriptionFilter flow ∉ found.map (fun i => i.filter.text) ∧
        ∃ pattern : Pattern, pattern.text = r.subscriptionFilter flow ∧
          next = found ++ [⟨UInt32.ofNat (found.length + 1), pattern, r.qos⟩]) := by
  have hany : (found.any fun i => i.filter.text = r.subscriptionFilter flow) ↔
      r.subscriptionFilter flow ∈ found.map fun i => i.filter.text := by
    simp
  simp only [addInterest] at h
  split_ifs at h with hfound
  · obtain rfl := Except.ok.inj h
    exact Or.inl ⟨hany.1 hfound, rfl⟩
  · split at h
    · cases h
    · rename_i pattern hparse
      obtain rfl := Except.ok.inj h
      exact Or.inr ⟨fun hmem => hfound (hany.2 hmem), pattern,
        Pattern.parse_eq_ok_iff.1 hparse, rfl⟩

/-- The filters that have been collected from some rules. -/
structure Collects (flow : Flow) (rules : List Rule) (found : List Interest) : Prop where
  /-- Whatever is asked for, the first filter that has it is that of the first rule whose filter
  has it. -/
  find?_text : ∀ p : String → Bool,
    (found.map fun i => i.filter.text).find? p =
      (rules.map fun r => r.subscriptionFilter flow).find? p
  nodup_text : (found.map fun i => i.filter.text).Nodup
  map_id : found.map Interest.id = firstIds found.length
  exists_interest : ∀ r ∈ rules, ∃ i ∈ found,
    i.filter.text = r.subscriptionFilter flow ∧ r.qos ≤ i.qos
  exists_rule : ∀ i ∈ found, ∃ r ∈ rules,
    r.subscriptionFilter flow = i.filter.text ∧ r.qos = i.qos

theorem collects_nil (flow : Flow) : Collects flow [] [] where
  find?_text _ := rfl
  nodup_text := List.nodup_nil
  map_id := rfl
  exists_interest := List.forall_mem_nil _
  exists_rule := List.forall_mem_nil _

section Step

variable {flow : Flow} {rules : List Rule} {found : List Interest} {r : Rule}

theorem map_text_serve (flow : Flow) (r : Rule) (found : List Interest) :
    ((found.map (serve flow r)).map fun i => i.filter.text) = found.map fun i => i.filter.text := by
  rw [List.map_map]
  refine List.map_congr_left ?_
  intro i _
  rw [Function.comp_apply, filter_serve]

/-- A rule whose filter is there already. -/
theorem Collects.concat_of_mem (hc : Collects flow rules found)
    (hmem : r.subscriptionFilter flow ∈ found.map fun i => i.filter.text) :
    Collects flow (rules ++ [r]) (found.map (serve flow r)) where
  find?_text := by
    intro p
    rw [map_text_serve, hc.find?_text, List.map_append, List.find?_append]
    cases hp : (rules.map fun r => r.subscriptionFilter flow).find? p with
    | some filter => rfl
    | none =>
        have hnot := List.find?_eq_none.1 ((hc.find?_text p).trans hp) _ hmem
        rw [Option.none_or, List.map_singleton, List.find?_singleton, if_neg hnot]
  nodup_text := by
    rw [map_text_serve]
    exact hc.nodup_text
  map_id := by
    rw [List.map_map, List.length_map, ← hc.map_id]
    refine List.map_congr_left ?_
    intro i _
    rw [Function.comp_apply, id_serve]
  exists_interest := by
    intro r' hr'
    rcases List.mem_append.1 hr' with hr' | hr'
    · obtain ⟨i, hi, htext, hqos⟩ := hc.exists_interest r' hr'
      refine ⟨serve flow r i, List.mem_map_of_mem hi, ?_, ?_⟩
      · rw [filter_serve, htext]
      · exact Mqtt.QoS.le_trans hqos (qos_le_qos_serve flow r i)
    · obtain rfl : r' = r := List.mem_singleton.1 hr'
      obtain ⟨i, hi, htext⟩ := List.mem_map.1 hmem
      refine ⟨serve flow r' i, List.mem_map_of_mem hi, ?_, ?_⟩
      · rw [filter_serve, htext]
      · rw [qos_serve_of_eq htext]
        exact Mqtt.QoS.le_max_right i.qos r'.qos
  exists_rule := by
    intro j hj
    obtain ⟨i, hi, rfl⟩ := List.mem_map.1 hj
    obtain ⟨r', hr', htext, hqos⟩ := hc.exists_rule i hi
    rw [filter_serve]
    by_cases hsame : i.filter.text = r.subscriptionFilter flow
    · rw [qos_serve_of_eq hsame, Mqtt.QoS.max_eq]
      split_ifs
      · exact ⟨r, List.mem_append_right _ (List.mem_singleton_self r), hsame.symm, rfl⟩
      · exact ⟨r', List.mem_append_left _ hr', htext, hqos⟩
    · rw [qos_serve_of_ne hsame]
      exact ⟨r', List.mem_append_left _ hr', htext, hqos⟩

/-- A rule with a new filter. -/
theorem Collects.concat_of_not_mem (hc : Collects flow rules found)
    (hnew : r.subscriptionFilter flow ∉ found.map fun i => i.filter.text) {pattern : Pattern}
    (htext : pattern.text = r.subscriptionFilter flow) :
    Collects flow (rules ++ [r])
      (found ++ [⟨UInt32.ofNat (found.length + 1), pattern, r.qos⟩]) where
  find?_text := by
    intro p
    rw [List.map_append, List.map_append, List.find?_append, List.find?_append, hc.find?_text,
      List.map_singleton, List.map_singleton, htext]
  nodup_text := by
    rw [List.map_append, List.map_singleton, htext, List.nodup_append]
    refine ⟨hc.nodup_text, List.pairwise_singleton _ _, ?_⟩
    intro filter hfilter other hother hsame
    obtain rfl := List.mem_singleton.1 hother
    exact hnew (hsame ▸ hfilter)
  map_id := by
    rw [List.map_append, hc.map_id, List.length_append, List.length_singleton, firstIds_succ]
    rfl
  exists_interest := by
    intro r' hr'
    rcases List.mem_append.1 hr' with hr' | hr'
    · obtain ⟨i, hi, hboth⟩ := hc.exists_interest r' hr'
      exact ⟨i, List.mem_append_left _ hi, hboth⟩
    · obtain rfl : r' = r := List.mem_singleton.1 hr'
      exact ⟨_, List.mem_append_right _ (List.mem_singleton_self _), htext,
        Mqtt.QoS.le_refl r'.qos⟩
  exists_rule := by
    intro j hj
    rcases List.mem_append.1 hj with hj | hj
    · obtain ⟨r', hr', hboth⟩ := hc.exists_rule j hj
      exact ⟨r', List.mem_append_left _ hr', hboth⟩
    · obtain rfl := List.mem_singleton.1 hj
      exact ⟨r, List.mem_append_right _ (List.mem_singleton_self r), htext.symm, rfl⟩

/-- Taking in a further rule keeps what has been collected. -/
theorem Collects.step (hc : Collects flow rules found) {next : List Interest}
    (h : addInterest flow found r = .ok next) : Collects flow (rules ++ [r]) next := by
  rcases addInterest_cases h with ⟨hmem, rfl⟩ | ⟨hnew, pattern, htext, rfl⟩
  · exact hc.concat_of_mem hmem
  · exact hc.concat_of_not_mem hnew htext

theorem Collects.of_foldlM {done : List Rule} (hc : Collects flow done found)
    {all : List Interest} (h : rules.foldlM (addInterest flow) found = .ok all) :
    Collects flow (done ++ rules) all := by
  induction rules generalizing done found with
  | nil =>
      obtain rfl : found = all := Except.ok.inj h
      rwa [List.append_nil]
  | cons r rules ih =>
      rw [List.foldlM_cons, bind_eq_ok_iff] at h
      obtain ⟨next, hnext, h⟩ := h
      have hall := ih (hc.step hnext) h
      rwa [List.append_assoc, List.singleton_append] at hall

end Step

/-- The filters of a flow have been collected from the rules. -/
theorem interests_of_build (h : build c = .ok g) (flow : Flow) :
    TopicBridge.interests flow g.rules = .ok (g.interests flow) := by
  obtain ⟨-, hf, hv⟩ := of_build_eq_ok h
  cases flow
  · exact hf
  · exact hv

/-- **What the filters of a flow are.** -/
theorem collects_interests (h : build c = .ok g) (flow : Flow) :
    Collects flow (g.rules.filter fun r => r.appliesTo flow) (g.interests flow) :=
  (collects_nil flow).of_foldlM (interests_of_build h flow)

/-- **The filters of a flow are those of its rules.** -/
theorem exists_interest_iff (h : build c = .ok g) (flow : Flow) (filter : String) :
    (∃ i ∈ g.interests flow, i.filter.text = filter) ↔
      ∃ r ∈ g.rules, r.appliesTo flow ∧ r.subscriptionFilter flow = filter := by
  have hc := collects_interests h flow
  constructor
  · rintro ⟨i, hi, rfl⟩
    obtain ⟨r, hr, htext, -⟩ := hc.exists_rule i hi
    exact ⟨r, (List.mem_filter.1 hr).1, (List.mem_filter.1 hr).2, htext⟩
  · rintro ⟨r, hr, ha, rfl⟩
    obtain ⟨i, hi, htext, -⟩ := hc.exists_interest r (List.mem_filter.2 ⟨hr, ha⟩)
    exact ⟨i, hi, htext⟩

/-! ### Identifiers -/

/-- The filters of a flow are numbered in their order, starting with 1. -/
theorem map_id_interests (h : build c = .ok g) (flow : Flow) :
    (g.interests flow).map Interest.id = firstIds (g.interests flow).length :=
  (collects_interests h flow).map_id

/-- The identifiers of a flow increase, as far as there are enough of them. -/
theorem pairwise_id_lt (h : build c = .ok g) {flow : Flow}
    (hlen : (g.interests flow).length < UInt32.size) :
    (g.interests flow).Pairwise fun i j => i.id < j.id := by
  rw [← List.pairwise_map, map_id_interests h flow, firstIds, List.pairwise_map]
  refine List.Pairwise.imp_of_mem ?_ List.pairwise_lt_range
  intro k n hk hn hlt
  rw [List.mem_range] at hk hn
  rw [UInt32.size] at hlen
  rw [UInt32.lt_iff_toNat_lt, UInt32.toNat_ofNat', UInt32.toNat_ofNat', Nat.mod_eq_of_lt (by omega),
    Nat.mod_eq_of_lt (by omega)]
  omega

/-- **The first of the filters that match and are not refused has the lowest identifier.** -/
theorem owner?_eq_some {flow : Flow} {topic : String} {refused : List UInt32} {i : Interest}
    (hlt : (g.interests flow).Pairwise fun i j => i.id < j.id) (hi : i ∈ g.interests flow)
    (hm : i.filter.matches? topic) (hr : i.id ∉ refused)
    (hmin : ∀ j ∈ g.interests flow, j.filter.matches? topic → j.id ∉ refused → i.id ≤ j.id) :
    g.owner? flow topic refused = some i.id := by
  obtain ⟨before, after, hsplit⟩ := List.append_of_mem hi
  have hfind : ((g.interests flow).find? fun j =>
      !refused.contains j.id && j.filter.matches? topic) = some i := by
    rw [hsplit] at hlt
    rw [List.find?_eq_some_iff_append]
    refine ⟨by simp [hm, hr], before, after, hsplit, fun j hj => ?_⟩
    -- an earlier filter has a lower identifier, so it does not match or has been refused
    have hj' : j.id < i.id := (List.pairwise_append.1 hlt).2.2 j hj i (List.mem_cons_self ..)
    have hmem : j ∈ g.interests flow := hsplit ▸ List.mem_append_left _ hj
    by_cases hmj : j.filter.matches? topic
    · by_cases hrj : j.id ∈ refused
      · simp [hrj]
      · exact absurd (hmin j hmem hmj hrj) (UInt32.not_le.2 hj')
    · simp [hmj]
  rw [owner?, hfind]
  rfl

end Registry

end TopicBridge
