/-
**Filling and matching again.**

The captures of a topic fill a template with the same wildcards, and the topic that they give
matches the template again with the same captures.  There are two exceptions, and no others: the
new topic may be too long, and it may be set apart by a dollar sign while the template starts with
a wildcard.

Main definitions:

* `TopicBridge.Topic.Plain` — texts without the characters that no topic name holds;
* `Topic.WellFormed` — texts of plain levels of which none is empty.

Main results:

* `Topic.isName_iff` — what a topic name is;
* `Pattern.fill_captures` — the captures of a topic fill the pattern with the topic;
* `Pattern.wellFormed_of_fill` — what the captures of a topic fill a template with is well-formed;
* `Pattern.captures?_of_fill` — **a filled template matches with the same captures**, unless the
  topic is one of the two exceptions;
* `Pattern.inverse_of_checkTemplate` — matching and filling are inverse to each other.
-/

import TopicBridge.Proofs.Topic.Expansion

set_option autoImplicit false

namespace TopicBridge

namespace Topic

/-! ### Characters -/

/-- A text without the characters that no topic name holds. -/
def Plain (s : String) : Prop := ∀ x ∈ s.toList, x ≠ '\x00' ∧ x ≠ '+' ∧ x ≠ '#'

/-- A topic name is a plain text of at least one byte, and not too many. -/
theorem isName_iff (s : String) : IsName s ↔ s ≠ "" ∧ s.utf8ByteSize ≤ maxSize ∧ Plain s := by
  have hwild : hasWildcard s = false ↔ ∀ x ∈ s.toList, x ≠ '+' ∧ x ≠ '#' := by
    simp [hasWildcard]
  have hplain : Plain s ↔ '\x00' ∉ s.toList ∧ hasWildcard s = false := by
    rw [hwild]
    constructor
    · exact fun h => ⟨fun h0 => (h _ h0).1 rfl, fun x hx => (h x hx).2⟩
    · rintro ⟨h0, h⟩ x hx
      exact ⟨by rintro rfl; exact h0 hx, h x hx⟩
  rw [IsName, nameError?, textError?, hplain]
  split_ifs with hempty hlong h0 hw
  · simp [hempty]
  · simp [Nat.not_le.2 hlong]
  · simp [h0]
  · simp [hw]
  · simp [hempty, Nat.not_lt.1 hlong, h0, hw]

/-- Joining adds slashes, which are plain. -/
theorem plain_join_iff (levels : List String) :
    Plain (join levels) ↔ ∀ level ∈ levels, Plain level := by
  constructor
  · intro h level hl x hx
    exact h x (mem_join_of_mem hl hx)
  · intro h x hx
    rcases mem_join hx with rfl | ⟨level, hl, hx⟩
    · decide
    · exact h level hl x hx

theorem plain_levelsOf_iff (c : String) : (∀ level ∈ levelsOf c, Plain level) ↔ Plain c := by
  rw [← plain_join_iff, join_levelsOf]

/-- Captures that fit expand a pattern to plain levels if its literals and they are plain. -/
theorem plain_expand {pattern : List Level} {captures : List String}
    (hp : ∀ s, .literal s ∈ pattern → Plain s) (hc : ∀ c ∈ captures, Plain c) :
    ∀ level ∈ expand pattern captures, Plain level := by
  induction pattern, captures using expand.induct with
  | case1 captures => simp [expand]
  | case2 s pattern captures ih =>
      have hs : Plain s := hp s (List.mem_cons_self ..)
      have ih' := ih (fun s hs => hp s (List.mem_cons_of_mem _ hs)) hc
      simpa [expand, hs] using ih'
  | case3 pattern c captures ih =>
      have hplain : Plain c := hc c (List.mem_cons_self ..)
      have ih' := ih (fun s hs => hp s (List.mem_cons_of_mem _ hs))
        (fun c hm => hc c (List.mem_cons_of_mem _ hm))
      simpa [expand, hplain] using ih'
  | case4 pattern c captures ih =>
      have hplain : Plain c := hc c (List.mem_cons_self ..)
      have ih' := ih (fun s hs => hp s (List.mem_cons_of_mem _ hs))
        (fun c hm => hc c (List.mem_cons_of_mem _ hm))
      intro level hl
      rcases List.mem_append.1 hl with hl | hl
      · exact (plain_levelsOf_iff c).2 hplain level hl
      · exact ih' level hl
  | case5 pattern ih => exact ih (fun s hs => hp s (List.mem_cons_of_mem _ hs)) hc
  | case6 pattern ih => exact ih (fun s hs => hp s (List.mem_cons_of_mem _ hs)) hc

/-- The captures of a plain topic are plain. -/
theorem plain_of_plain_expand {pattern : List Level} {captures : List String}
    (hc : Captured pattern captures) (h : ∀ level ∈ expand pattern captures, Plain level) :
    ∀ c ∈ captures, Plain c := by
  induction pattern, captures using expand.induct with
  | case1 captures => simp_all [Captured]
  | case2 s pattern captures ih => exact ih hc fun l hl => h l (List.mem_cons_of_mem _ hl)
  | case3 pattern c captures ih =>
      have ih' := ih hc.2.2 fun l hl => h l (List.mem_cons_of_mem _ hl)
      simpa [h c (List.mem_cons_self ..)] using ih'
  | case4 pattern c captures ih =>
      have ih' := ih hc.2 fun l hl => h l (List.mem_append_right _ hl)
      have hplain : Plain c :=
        (plain_levelsOf_iff c).1 fun l hl => h l (List.mem_append_left _ hl)
      simpa [hplain] using ih'
  | case5 pattern ih => exact absurd hc (by simp [Captured])
  | case6 pattern ih => exact absurd hc (by simp [Captured])

/-- The literals of a proper pattern whose text is plain, apart from its wildcards. -/
theorem plain_of_literal_mem {pattern : List Level} (hp : Proper pattern) {s : String}
    (hs : .literal s ∈ pattern) (h0 : '\x00' ∉ s.toList) : Plain s := by
  induction pattern with
  | nil => simp at hs
  | cons level pattern ih =>
      cases level with
      | literal a =>
          rcases List.mem_cons.1 hs with h | h
          · cases h
            intro x hx
            refine ⟨?_, ?_, ?_⟩
            · rintro rfl; exact h0 hx
            · rintro rfl; exact hp.2.2.1 hx
            · rintro rfl; exact hp.2.2.2.1 hx
          · exact ih hp.2.2.2.2 h
      | single => exact ih hp (by simpa using hs)
      | multi =>
          obtain rfl : pattern = [] := hp
          simp at hs

/-! ### Well-formed topics -/

/-- A text whose levels are plain and not empty. -/
structure WellFormed (s : String) : Prop where
  empty_not_mem_split : "" ∉ split s
  plain : Plain s

/-- A well-formed text is a topic name unless it is too long. -/
theorem WellFormed.isName_iff {s : String} (h : WellFormed s) :
    IsName s ↔ s.utf8ByteSize ≤ maxSize := by
  have hne : s ≠ "" := by
    rintro rfl
    exact h.empty_not_mem_split (by decide)
  rw [Topic.isName_iff]
  simp [hne, h.plain]

end Topic

/-! ### Patterns -/

namespace Pattern

open Topic

/-- The literals of a pattern are plain. -/
theorem plain_of_literal_mem_levels (p : Pattern) {s : String} (hs : .literal s ∈ p.levels) :
    Plain s := by
  have hn : '\x00' ∉ p.text.toList := by
    have h := p.isPattern
    simp only [patternError?, textError?] at h
    split_ifs at h with h1 h2 h3
    exact h3
  refine plain_of_literal_mem p.proper hs fun h0 => hn ?_
  rw [← p.join_text_levels]
  exact mem_join_of_mem (List.mem_map.2 ⟨_, hs, rfl⟩) h0

variable {p template : Pattern} {topic filled : String} {captures : List String}

/-- The captures of a topic fill the pattern with the topic. -/
theorem fill_captures (h : p.captures? topic = some captures) : p.fill captures = .ok topic := by
  obtain ⟨-, -, hc, he⟩ := captures?_eq_some_iff.1 h
  rw [fill_eq_ok_iff hc, he, join_split]
  exact ⟨split_ne_nil topic, rfl⟩

/-- What the captures of a topic fill a template with is well-formed. -/
theorem wellFormed_of_fill (hw : p.wildcards = template.wildcards)
    (h : p.captures? topic = some captures) (hf : template.fill captures = .ok filled) :
    WellFormed filled := by
  obtain ⟨hn, -, hc, he⟩ := captures?_eq_some_iff.1 h
  have ht : Captured template.levels captures := (captured_iff_of_wildcards hw captures).1 hc
  obtain ⟨hne, rfl⟩ := (fill_eq_ok_iff ht).1 hf
  -- the captures come from a topic name and the literals from a pattern, and both are plain
  have htopic : ∀ level ∈ expand p.levels captures, Plain level := by
    rw [he, ← plain_join_iff, join_split]
    exact ((isName_iff topic).1 hn).2.2
  have hplain : Plain (join (expand template.levels captures)) :=
    (plain_join_iff _).2 (plain_expand (fun s => template.plain_of_literal_mem_levels)
      (plain_of_plain_expand hc htopic))
  have hsplit := split_join_expand template.proper ht hne
  refine ⟨?_, hplain⟩
  rw [hsplit]
  exact empty_not_mem_expand template.proper ht

/-- What the captures of a topic fill a template with is a topic name unless it is too long. -/
theorem isName_of_fill (hw : p.wildcards = template.wildcards)
    (h : p.captures? topic = some captures) (hf : template.fill captures = .ok filled) :
    IsName filled ↔ filled.utf8ByteSize ≤ maxSize :=
  (wellFormed_of_fill hw h hf).isName_iff

/-- **A filled template matches with the same captures**, unless the topic is too long, or set
apart while the template starts with a wildcard; then it does not match at all. -/
theorem captures?_of_fill (hw : p.wildcards = template.wildcards)
    (h : p.captures? topic = some captures) (hf : template.fill captures = .ok filled) :
    template.captures? filled =
      if filled.utf8ByteSize ≤ maxSize ∧ ¬(isReserved filled ∧ template.startsWild) then
        some captures
      else none := by
  obtain ⟨-, -, hc, -⟩ := captures?_eq_some_iff.1 h
  have ht : Captured template.levels captures := (captured_iff_of_wildcards hw captures).1 hc
  have hn := isName_of_fill hw h hf
  obtain ⟨hne, rfl⟩ := (fill_eq_ok_iff ht).1 hf
  have hsplit := split_join_expand template.proper ht hne
  split_ifs with hfit
  · rw [captures?_eq_some_iff, hsplit]
    exact ⟨hn.2 hfit.1, hfit.2, ht, rfl⟩
  · rw [Option.eq_none_iff_forall_ne_some]
    intro found hfound
    obtain ⟨hname, hres, -⟩ := captures?_eq_some_iff.1 hfound
    exact hfit ⟨hn.1 hname, hres⟩

/-- **Matching and filling are inverse to each other**: the captures of a topic fill the pattern
with the topic, and the topic that they fill a template with matches the template with the same
captures.  The only exceptions are topics that are too long, and topics that are set apart from a
template that starts with a wildcard; they do not match at all. -/
theorem inverse_of_checkTemplate (hcheck : p.checkTemplate template = .ok ())
    (h : p.captures? topic = some captures) :
    p.fill captures = .ok topic ∧
      ∀ filled, template.fill captures = .ok filled →
        template.captures? filled =
          if maxSize < filled.utf8ByteSize ∨ (isReserved filled ∧ template.startsWild) then none
          else some captures := by
  have hw : p.wildcards = template.wildcards := checkTemplate_eq_ok_iff.1 hcheck
  refine ⟨fill_captures h, ?_⟩
  intro filled hf
  rw [captures?_of_fill hw h hf]
  by_cases hexcept : maxSize < filled.utf8ByteSize ∨ (isReserved filled ∧ template.startsWild)
  · rw [if_pos hexcept, if_neg]
    rintro ⟨hsize, happart⟩
    rcases hexcept with hlong | hreserved
    · omega
    · exact happart hreserved
  · rw [not_or, Nat.not_lt] at hexcept
    rw [if_pos hexcept, if_neg (by rw [not_or, Nat.not_lt]; exact hexcept)]

/-- The pattern of one level and more behind `line`. -/
def behindLine : Pattern := ⟨"line/+/#", by decide +kernel⟩

/-- The pattern of one level and more. -/
def unbounded : Pattern := ⟨"+/#", by decide +kernel⟩

/-- The topic `line/a/b` goes to `a/b`, which matches again, and `line/$a` goes to `$a`, which does
not. -/
theorem inverse_of_checkTemplate_reserved :
    behindLine.checkTemplate unbounded = .ok () ∧
      behindLine.captures? "line/a/b" = some ["a", "b"] ∧
      behindLine.captures? "line/$a" = some ["$a", ""] ∧
      unbounded.fill ["a", "b"] = .ok "a/b" ∧ unbounded.fill ["$a", ""] = .ok "$a" ∧
      behindLine.fill ["a", "b"] = .ok "line/a/b" ∧ unbounded.captures? "a/b" = some ["a", "b"] ∧
      behindLine.fill ["$a", ""] = .ok "line/$a" ∧ unbounded.captures? "$a" = none := by
  have hcheck : behindLine.checkTemplate unbounded = .ok () := by rfl
  have hplain : behindLine.captures? "line/a/b" = some ["a", "b"] := by decide +kernel
  have happart : behindLine.captures? "line/$a" = some ["$a", ""] := by decide +kernel
  have hfill : unbounded.fill ["a", "b"] = .ok "a/b" := by rfl
  have hfillApart : unbounded.fill ["$a", ""] = .ok "$a" := by rfl
  obtain ⟨hback, hagain⟩ := inverse_of_checkTemplate hcheck hplain
  obtain ⟨hbackApart, hnever⟩ := inverse_of_checkTemplate hcheck happart
  exact ⟨hcheck, hplain, happart, hfill, hfillApart, hback,
    (hagain _ hfill).trans (if_neg (by decide +kernel)), hbackApart,
    (hnever _ hfillApart).trans (if_pos (by decide +kernel))⟩

end Pattern

end TopicBridge
