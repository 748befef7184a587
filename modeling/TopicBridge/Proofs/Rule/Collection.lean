/-
**What is subscribed to, whatever the rules are.**

The rules that relay in a flow are taken in one after the other.  The filter of a rule is there
already, or it is a pattern and joins the others behind them, or everything is refused because of
it.  Only patterns are among the filters that are there, so whether a rule is refused depends on its
own filter alone; hence it is the first rule without a pattern that is named.  If there is none,
each filter stands where the first rule uses it, at the highest quality of service that is asked of
it.

Main definitions:

* `TopicBridge.Rule.Unfit` — a rule whose filter is not a pattern;
* `TopicBridge.Refuses` — the error that names the first such rule;
* `TopicBridge.Serves` — what the filters of some rules have to be.

Main results:

* `addInterest_eq_error_iff` — a rule is refused for its own filter only;
* `foldlM_addInterest_eq_error_iff` — the error of some rules is that of the first unfit one;
* `Registry.Collects.serves` — what has been collected from some rules serves them;
* `interests_refuses_or_serves` — **when the rules of a flow are refused, and what serves them**.
-/

import Mathlib.Data.List.Nodup
import TopicBridge.Proofs.Rule.Ownership

set_option autoImplicit false

namespace TopicBridge

variable {flow : Flow} {rules : List Rule} {found : List Interest} {r : Rule} {e : ConfigError}

/-! ### Refusals -/

/-- The filter of a rule is not a pattern, for this reason. -/
def Rule.Unfit (flow : Flow) (r : Rule) (why : TopicError) : Prop :=
  Pattern.parse (r.subscriptionFilter flow) = .error why

/-- A rule is refused with an error that names it, its filter and what is wrong with it. -/
def Rule.Refused (flow : Flow) (r : Rule) (e : ConfigError) : Prop :=
  ∃ why, r.Unfit flow why ∧ e = .rule r.id (.badSubscription (r.subscriptionFilter flow) why)

/-- One of the rules is refused, and the filters of the rules before it are patterns. -/
def Refuses (flow : Flow) (rules : List Rule) (e : ConfigError) : Prop :=
  ∃ before r after, rules = before ++ r :: after ∧
    (∀ r' ∈ before, ∀ why, ¬r'.Unfit flow why) ∧ r.Refused flow e

/-- A filter that is there already is a pattern, so the rule that uses it is not unfit. -/
theorem Rule.not_unfit_of_mem (h : r.subscriptionFilter flow ∈ found.map fun i => i.filter.text)
    (why : TopicError) : ¬r.Unfit flow why := by
  intro hunfit
  obtain ⟨i, -, htext⟩ := List.mem_map.1 h
  rw [Rule.Unfit, ← htext, Pattern.parse_text] at hunfit
  cases hunfit

/-- **A rule is refused for its own filter only**, whatever is there already. -/
theorem addInterest_eq_error_iff :
    addInterest flow found r = .error e ↔ r.Refused flow e := by
  have hany : (found.any fun i => i.filter.text = r.subscriptionFilter flow) ↔
      r.subscriptionFilter flow ∈ found.map fun i => i.filter.text := by
    simp
  simp only [addInterest, Rule.Refused, Rule.Unfit]
  split_ifs with hfound
  · refine iff_of_false (fun h => by cases h) ?_
    rintro ⟨why, hunfit, -⟩
    exact Rule.not_unfit_of_mem (hany.1 hfound) why hunfit
  · cases hparse : Pattern.parse (r.subscriptionFilter flow) with
    | error why =>
        constructor
        · intro h
          exact ⟨why, rfl, (Except.error.inj h).symm⟩
        · rintro ⟨why', hwhy, rfl⟩
          obtain rfl := Except.error.inj hwhy
          rfl
    | ok pattern =>
        refine iff_of_false (fun h => by cases h) ?_
        rintro ⟨why, hwhy, -⟩
        cases hwhy

/-- The first rule is refused, or its filter is a pattern and another rule is refused. -/
theorem refuses_cons_iff :
    Refuses flow (r :: rules) e ↔
      r.Refused flow e ∨ (∀ why, ¬r.Unfit flow why) ∧ Refuses flow rules e := by
  constructor
  · rintro ⟨before, r', after, hrules, hbefore, hrefused⟩
    rcases List.cons_eq_append_iff.1 hrules with ⟨rfl, hcons⟩ | ⟨before', rfl, rfl⟩
    · obtain ⟨rfl, -⟩ := List.cons.inj hcons
      exact .inl hrefused
    · obtain ⟨hfit, hbefore'⟩ := List.forall_mem_cons.1 hbefore
      exact .inr ⟨hfit, before', r', after, rfl, hbefore', hrefused⟩
  · rintro (hrefused | ⟨hfit, before, r', after, rfl, hbefore, hrefused⟩)
    · exact ⟨[], r, rules, rfl, List.forall_mem_nil _, hrefused⟩
    · exact ⟨r :: before, r', after, rfl, List.forall_mem_cons.2 ⟨hfit, hbefore⟩, hrefused⟩

/-- **The error of some rules is that of the first one that is unfit.** -/
theorem foldlM_addInterest_eq_error_iff :
    rules.foldlM (addInterest flow) found = .error e ↔ Refuses flow rules e := by
  induction rules generalizing found with
  | nil =>
      refine iff_of_false (fun h => by cases h) ?_
      rintro ⟨before, r, after, hrules, -⟩
      simp at hrules
  | cons r rules ih =>
      rw [List.foldlM_cons, refuses_cons_iff]
      cases hnext : addInterest flow found r with
      | error e' =>
          -- this rule is unfit, so its error is the one
          have hrefused := addInterest_eq_error_iff.1 hnext
          constructor
          · intro h
            obtain rfl := Except.error.inj h
            exact .inl hrefused
          · rintro (hrefused' | ⟨hfit, -⟩)
            · have hsame : addInterest flow found r = .error e :=
                addInterest_eq_error_iff.2 hrefused'
              rw [← hsame, hnext]
              rfl
            · obtain ⟨why, hunfit, -⟩ := hrefused
              exact absurd hunfit (hfit why)
      | ok next =>
          have hfit : ∀ why, ¬r.Unfit flow why := by
            intro why hunfit
            have herror : addInterest flow found r =
                .error (.rule r.id (.badSubscription (r.subscriptionFilter flow) why)) :=
              addInterest_eq_error_iff.2 ⟨why, hunfit, rfl⟩
            rw [hnext] at herror
            cases herror
          have hnot : ¬r.Refused flow e := by
            rintro ⟨why, hunfit, -⟩
            exact hfit why hunfit
          rw [or_iff_right hnot, and_iff_right hfit]
          exact ih

/-! ### What has been collected -/

/-- The filters of some rules, in the order of the rules. -/
def asked (flow : Flow) (rules : List Rule) : List String :=
  rules.map fun r => r.subscriptionFilter flow

/-- What the filters that serve some rules have to be. -/
structure Serves (flow : Flow) (rules : List Rule) (found : List Interest) : Prop where
  /-- The filters are those of the rules. -/
  mem_iff : ∀ filter, (∃ i ∈ found, i.filter.text = filter) ↔ filter ∈ asked flow rules
  /-- They stand in the order in which the rules use them first, so none stands there twice. -/
  order : found.Pairwise fun i j =>
    (asked flow rules).idxOf i.filter.text < (asked flow rules).idxOf j.filter.text
  /-- They are numbered from 1 on, as far as the numbers go. -/
  id_eq : ∀ k (hk : k < found.length), found[k].id = UInt32.ofNat (k + 1)
  toNat_id : ∀ k (hk : k < found.length), k + 1 < UInt32.size → found[k].id.toNat = k + 1
  /-- Each is wanted at the highest quality of service among the rules that share it. -/
  qos_le : ∀ i ∈ found, ∀ r ∈ rules, r.subscriptionFilter flow = i.filter.text → r.qos ≤ i.qos
  exists_qos : ∀ i ∈ found, ∃ r ∈ rules,
    r.subscriptionFilter flow = i.filter.text ∧ r.qos = i.qos

/-- Of two texts that differ the one that a search for both finds stands first. -/
theorem idxOf_lt_idxOf_of_find? {texts : List String} {s t : String} (hne : s ≠ t)
    (h : (texts.find? fun x => x = s || x = t) = some s) : texts.idxOf s < texts.idxOf t := by
  obtain ⟨-, before, after, rfl, hbefore⟩ := List.find?_eq_some_iff_append.1 h
  have hs : s ∉ before := by
    intro hmem
    have hnot := hbefore s hmem
    simp at hnot
  have ht : t ∉ before := by
    intro hmem
    have hnot := hbefore t hmem
    simp at hnot
  rw [List.idxOf_append_of_notMem hs, List.idxOf_append_of_notMem ht, List.idxOf_cons_self,
    List.idxOf_cons_ne _ hne]
  omega

/-- Of two texts of a list without repetitions a search for both finds the one that stands first. -/
theorem pairwise_find?_of_nodup {texts : List String} (h : texts.Nodup) :
    texts.Pairwise fun s t => s ≠ t ∧ (texts.find? fun x => x = s || x = t) = some s := by
  rw [List.pairwise_iff_forall_sublist]
  intro s t hsub
  obtain ⟨front, back, rfl, hs, ht⟩ := List.cons_sublist_iff.1 hsub
  rw [List.singleton_sublist] at ht
  have hapart := (List.nodup_append.1 h).2.2
  refine ⟨hapart s hs t ht, ?_⟩
  cases hfind : front.find? fun x => x = s || x = t with
  | none =>
      have hnot := List.find?_eq_none.1 hfind s hs
      simp at hnot
  | some x =>
      have hx := List.find?_some hfind
      have hmem := List.mem_of_find?_eq_some hfind
      rw [List.find?_append, hfind, Option.some_or]
      simp only [Bool.or_eq_true, decide_eq_true_eq] at hx
      rcases hx with rfl | rfl
      · rfl
      · exact absurd rfl (hapart x hmem x ht)

namespace Registry

/-- The filters that have been collected stand in the order of their first use. -/
theorem Collects.pairwise_idxOf_lt (hc : Collects flow rules found) :
    found.Pairwise fun i j =>
      (asked flow rules).idxOf i.filter.text < (asked flow rules).idxOf j.filter.text := by
  have hfirst := List.pairwise_map.1 (pairwise_find?_of_nodup hc.nodup_text)
  refine hfirst.imp ?_
  rintro i j ⟨hne, hfind⟩
  rw [hc.find?_text] at hfind
  exact idxOf_lt_idxOf_of_find? hne hfind

theorem Collects.id_getElem (hc : Collects flow rules found) (k : Nat) (hk : k < found.length) :
    found[k].id = UInt32.ofNat (k + 1) := by
  have hids := congrArg (fun ids => ids[k]?) hc.map_id
  simpa [firstIds, hk] using hids

/-- **What has been collected from some rules serves them.** -/
theorem Collects.serves (hc : Collects flow rules found) : Serves flow rules found where
  mem_iff filter := by
    constructor
    · rintro ⟨i, hi, rfl⟩
      obtain ⟨r, hr, htext, -⟩ := hc.exists_rule i hi
      exact List.mem_map.2 ⟨r, hr, htext⟩
    · intro hmem
      obtain ⟨r, hr, rfl⟩ := List.mem_map.1 hmem
      obtain ⟨i, hi, htext, -⟩ := hc.exists_interest r hr
      exact ⟨i, hi, htext⟩
  order := hc.pairwise_idxOf_lt
  id_eq k hk := hc.id_getElem k hk
  toNat_id k hk hlt := by
    rw [hc.id_getElem k hk, UInt32.toNat_ofNat_of_lt' hlt]
  qos_le i hi r hr htext := by
    obtain ⟨j, hj, hjtext, hqos⟩ := hc.exists_interest r hr
    obtain rfl : j = i :=
      List.inj_on_of_nodup_map hc.nodup_text hj hi (hjtext.trans htext)
    exact hqos
  exists_qos := hc.exists_rule

end Registry

/-! ### All rules -/

/-- **When the rules of a flow are refused, and what they are served with.**  They are refused if
and only if the filter of one of those that relay in the flow is not a pattern, and the error names
the first such rule.  Otherwise their filters are collected, each once and in the order of the first
rule that uses it, numbered in that order, and at the highest quality of service among the rules
that share it. -/
theorem interests_refuses_or_serves (flow : Flow) (rules : List Rule) :
    let relaying := rules.filter fun r => r.appliesTo flow
    ((∃ e, interests flow rules = .error e) ↔ ∃ r ∈ relaying, ∃ why, r.Unfit flow why) ∧
      (∀ e, interests flow rules = .error e ↔ Refuses flow relaying e) ∧
      ∀ found, interests flow rules = .ok found → Serves flow relaying found := by
  intro relaying
  have herror : ∀ e, interests flow rules = .error e ↔ Refuses flow relaying e :=
    fun e => foldlM_addInterest_eq_error_iff
  have hserves : ∀ found, interests flow rules = .ok found → Serves flow relaying found :=
    fun found h => ((Registry.collects_nil flow).of_foldlM h).serves
  refine ⟨⟨?_, ?_⟩, herror, hserves⟩
  · rintro ⟨e, he⟩
    obtain ⟨before, r, after, hrules, -, why, hunfit, -⟩ := (herror e).1 he
    refine ⟨r, ?_, why, hunfit⟩
    rw [hrules]
    exact List.mem_append_right _ (List.mem_cons_self ..)
  · rintro ⟨r, hr, why, hunfit⟩
    cases hfound : interests flow rules with
    | error e => exact ⟨e, rfl⟩
    | ok found =>
        -- the filter of the rule would be among those that are there
        obtain ⟨i, hi, htext⟩ :=
          ((hserves found hfound).mem_iff _).2 (List.mem_map.2 ⟨r, hr, rfl⟩)
        exact absurd hunfit (Rule.not_unfit_of_mem (List.mem_map.2 ⟨i, hi, htext⟩) why)

end TopicBridge
