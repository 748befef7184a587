/-
**Substitution is one pass.**

A text is filled in by reading it once, from the left: what is not a placeholder is copied, and what
stands for a placeholder is written where it was and not looked at again.  This is said here for
every text that is put together from plain pieces and mentions of variables.  The reading agrees with
the expression for placeholders: its repetitions give nothing back, because neither a name nor a
default holds the character that ends it, so the expression matches in at most one way, and the
reader finds that one.

An environment holds the variables whose values are texts; a variable with another value counts as
not set.

Main definitions:

* `TopicBridge.Mention`, `TopicBridge.PlainText`, `TopicBridge.Template` — texts in their pieces;
* `Template.text`, `Template.filled` — how they are written, and what they stand for.

Main results:

* `Regex.flatMap_repeatedWays` — a repetition gives nothing back if nothing is gained by it;
* `map_ways_placeholder` — the expression matches at most once where a placeholder begins, as the
  reader reads it;
* `substitute_eq_substituteMatches` — substitution replaces every match of the expression;
* `substitute_onePass` — **the plain pieces are left alone and every mention is filled in**.
-/

import Mathlib.Tactic.SplitIfs
import TopicBridge.Config.Placeholder

set_option autoImplicit false

namespace TopicBridge

namespace Regex

variable {accepts : Char → Bool} {r front back : Regex} {made : Way → List Char} {w : Way}
  {c : Char} {cs : List Char}

/-! ### Repetitions that give nothing back -/

/-- One character in front of an expression. -/
theorem ways_char_seq_cons (c : Char) (cs : List Char) :
    (seq (char accepts) back).ways (c :: cs) =
      if accepts c then (back.ways cs).map fun w => ⟨c :: w.taken, w.groups, w.rest⟩ else [] := by
  rw [ways, ways]
  split_ifs with h
  · rw [List.flatMap_singleton]
    rfl
  · rfl

theorem ways_char_seq_eq_nil (h : ∀ c rest, cs = c :: rest → accepts c → back.ways rest = []) :
    (seq (char accepts) back).ways cs = [] := by
  cases cs with
  | nil => rfl
  | cons c cs =>
      rw [ways_char_seq_cons]
      split_ifs with hc
      · rw [h c cs rfl hc, List.map_nil]
      · rfl

/-- Two given characters in front of an expression. -/
theorem ways_pair (a b : Char) (cs : List Char) :
    (seq (char (· = a)) (seq (char (· = b)) back)).ways (a :: b :: cs) =
      (back.ways cs).map fun w => ⟨a :: b :: w.taken, w.groups, w.rest⟩ := by
  rw [ways_char_seq_cons, if_pos (decide_eq_true rfl), ways_char_seq_cons,
    if_pos (decide_eq_true rfl), List.map_map]
  rfl

theorem ways_pair_eq_nil {a b : Char} (h : ∀ rest, cs ≠ a :: b :: rest) :
    (seq (char (· = a)) (seq (char (· = b)) back)).ways cs = [] := by
  apply ways_char_seq_eq_nil
  intro c rest hcs hc
  apply ways_char_seq_eq_nil
  intro c' rest' hrest hc'
  refine absurd ?_ (h rest')
  rw [hcs, hrest, of_decide_eq_true hc, of_decide_eq_true hc']

theorem ways_char_eq_nil (h : ∀ c rest, cs = c :: rest → ¬ accepts c) :
    (char accepts).ways cs = [] := by
  cases cs with
  | nil => rfl
  | cons c cs => rw [ways, if_neg (h c cs rfl)]

theorem ways_optional_seq_eq_nil (hfront : front.ways cs = []) (hback : back.ways cs = []) :
    (seq (optional front) back).ways cs = [] := by
  rw [ways, ways, hfront, List.nil_append, List.flatMap_singleton, hback, List.map_nil]

/-- A repetition gives nothing back if nothing is gained by it. -/
theorem flatMap_repeatedWays {go : Way → List Way}
    (h : ∀ taken c rest, accepts c → go ⟨taken, [], c :: rest⟩ = []) (cs : List Char) :
    (repeatedWays accepts cs).flatMap go =
      go ⟨cs.takeWhile accepts, [], cs.dropWhile accepts⟩ := by
  induction cs generalizing go with
  | nil => rw [repeatedWays, List.flatMap_singleton]; rfl
  | cons c cs ih =>
      rw [repeatedWays, List.flatMap_append, List.flatMap_singleton]
      by_cases hc : accepts c
      · -- the ways that take the character come first, and stopping in front of it gains nothing
        rw [if_pos hc, List.flatMap_map, ih fun taken c' rest => h (c :: taken) c' rest,
          h [] c cs hc, List.append_nil, List.takeWhile_cons_of_pos hc,
          List.dropWhile_cons_of_pos hc]
      · rw [if_neg hc, List.takeWhile_cons_of_neg hc, List.dropWhile_cons_of_neg hc]
        rfl

/-- A group of one character and more is the longest one, if what follows cannot begin inside. -/
theorem ways_group_seq (hback : ∀ c rest, accepts c → back.ways (c :: rest) = []) (cs : List Char) :
    (seq (group (seq (char accepts) (repeated accepts))) back).ways cs =
      if cs.takeWhile accepts = [] then []
      else (back.ways (cs.dropWhile accepts)).map fun w =>
        ⟨cs.takeWhile accepts ++ w.taken, some (cs.takeWhile accepts) :: w.groups, w.rest⟩ := by
  cases cs with
  | nil => rfl
  | cons c cs =>
      by_cases hc : accepts c
      · rw [ways, ways, ways_char_seq_cons, if_pos hc, ways, List.flatMap_map, List.flatMap_map,
          flatMap_repeatedWays, List.takeWhile_cons_of_pos hc, List.dropWhile_cons_of_pos hc,
          if_neg (List.cons_ne_nil _ _)]
        · rfl
        · intro taken c' rest hc'
          dsimp only
          rw [hback c' rest hc', List.map_nil]
      · rw [ways, ways, ways_char_seq_cons, if_neg hc, List.takeWhile_cons_of_neg hc, if_pos rfl]
        rfl

/-! ### The match that counts -/

theorem first?_char_seq (cs : List Char) :
    (seq (char accepts) back).first? cs = ((seq (char accepts) back).ways cs).head? := by
  rw [first?]
  cases hhead : ((seq (char accepts) back).ways cs).head? with
  | none => rfl
  | some w =>
      obtain ⟨c, cs, rfl⟩ := cs.exists_cons_of_ne_nil (by rintro rfl; cases hhead)
      rw [ways_char_seq_cons] at hhead
      split_ifs at hhead
      · obtain ⟨w', -, rfl⟩ := List.mem_map.1 (List.mem_of_head? hhead)
        rfl
      · cases hhead

theorem replaceAll_of_some (h : r.first? (c :: cs) = some w) :
    r.replaceAll made (c :: cs) = made w ++ r.replaceAll made w.rest := by
  rw [replaceAll]
  split
  · rename_i w' h'
    rw [h] at h'
    cases h'
    rfl
  · rename_i h'
    rw [h] at h'
    cases h'

theorem replaceAll_of_none (h : r.first? (c :: cs) = none) :
    r.replaceAll made (c :: cs) = c :: r.replaceAll made cs := by
  rw [replaceAll]
  split
  · rename_i w' h'
    rw [h] at h'
    cases h'
  · rfl

end Regex

variable {cs name : List Char}

/-! ### The matches of the expression -/

/-- A default goes up to the next closing brace. -/
theorem ways_end_default (cs : List Char) :
    placeholderEndRegex.ways (':' :: '-' :: cs) =
      ((Regex.char (· = '\x7d')).ways (cs.dropWhile (· ≠ '\x7d'))).map fun w =>
        ⟨':' :: '-' :: (cs.takeWhile (· ≠ '\x7d') ++ w.taken),
          some (cs.takeWhile (· ≠ '\x7d')) :: w.groups, w.rest⟩ := by
  -- leaving the default out does not help: a colon is not a closing brace
  have hskip : (Regex.char (· = '\x7d')).ways (':' :: '-' :: cs) = [] := rfl
  rw [placeholderEndRegex, Regex.ways, Regex.ways, List.flatMap_append, List.flatMap_singleton,
    hskip, List.map_nil, List.append_nil, Regex.ways_pair, Regex.ways, Regex.ways, List.map_map,
    List.flatMap_map, Regex.flatMap_repeatedWays]
  · rfl
  · intro taken c rest hc
    have hstop : (Regex.char (· = '\x7d')).ways (c :: rest) = [] := by
      rw [Regex.ways, if_neg (by simpa using hc)]
    show ((Regex.char (· = '\x7d')).ways (c :: rest)).map _ = []
    rw [hstop, List.map_nil]

/-- Nothing else ends a placeholder. -/
theorem ways_end_eq_nil (hclosing : ∀ rest, cs ≠ '\x7d' :: rest)
    (hdefault : ∀ rest, cs ≠ ':' :: '-' :: rest) : placeholderEndRegex.ways cs = [] := by
  apply Regex.ways_optional_seq_eq_nil
  · exact Regex.ways_pair_eq_nil hdefault
  · apply Regex.ways_char_eq_nil
    intro c rest hcs hc
    refine hclosing rest ?_
    rw [hcs, of_decide_eq_true hc]

/-- A name goes on where it can. -/
theorem ways_end_of_isVariableChar (c : Char) (rest : List Char) (hc : isVariableChar c) :
    placeholderEndRegex.ways (c :: rest) = [] := by
  have hne : c ≠ '\x7d' ∧ c ≠ ':' := by simpa [isVariableChar] using hc
  apply ways_end_eq_nil
  · intro rest' h
    exact hne.1 (List.cons.inj h).1
  · intro rest' h
    exact hne.2 (List.cons.inj h).1

/-- The end of a placeholder matches at most once, as it is read. -/
theorem map_ways_end (name cs : List Char) :
    (placeholderEndRegex.ways cs).map (fun w =>
        (⟨String.ofList name, String.ofList ((w.groups[0]?.getD none).getD [])⟩, w.rest)) =
      (readPlaceholderEnd name cs).toList := by
  unfold readPlaceholderEnd
  split
  · rfl
  · rename_i cs
    rw [ways_end_default, List.map_map]
    split
    · rename_i hdrop
      rw [hdrop]
      rfl
    · rename_i c rest hdrop
      -- the reader skips the character that ends the default, the expression asks what it is
      have hc : c = '\x7d' := by
        have := List.head?_dropWhile_not (fun c => decide (c ≠ '\x7d')) cs
        rw [hdrop] at this
        simpa using this
      rw [hdrop, hc]
      rfl
  · rename_i hclosing hdefault
    rw [ways_end_eq_nil (fun rest => hclosing rest) (fun rest => hdefault rest)]
    rfl

theorem readPlaceholder_eq (cs : List Char) :
    readPlaceholder cs =
      if cs.takeWhile isVariableChar = [] then none
      else readPlaceholderEnd (cs.takeWhile isVariableChar) (cs.dropWhile isVariableChar) := by
  unfold readPlaceholder
  dsimp only
  split
  · rename_i hname
    exact (if_pos hname).symm
  · rename_i hname
    exact (if_neg hname).symm

/-- The expression matches at most once where a placeholder begins, as the reader reads it. -/
theorem map_ways_placeholder (cs : List Char) :
    (placeholderRegex.ways ('$' :: '\x7b' :: cs)).map (fun w => (w.placeholder, w.rest)) =
      (readPlaceholder cs).toList := by
  rw [placeholderRegex, Regex.ways_pair, Regex.ways_group_seq ways_end_of_isVariableChar,
    List.map_map, readPlaceholder_eq]
  split_ifs with hname
  · rfl
  · rw [List.map_map, ← map_ways_end]
    rfl

/-- An opening inside a default is a part of it. -/
example :
    (placeholderRegex.ways "$\x7bA:-$\x7bB\x7d.".toList).map (fun w => (w.placeholder, w.rest)) =
      [(⟨"A", "$\x7bB"⟩, ['.'])] := by
  decide +kernel

/-- It does not match anywhere else. -/
theorem ways_placeholder_eq_nil (h : ∀ rest, cs ≠ '$' :: '\x7b' :: rest) :
    placeholderRegex.ways cs = [] :=
  Regex.ways_pair_eq_nil h

/-! ### The reader and the expression -/

theorem first?_placeholder (cs : List Char) :
    (placeholderRegex.first? ('$' :: '\x7b' :: cs)).map (fun w => (w.placeholder, w.rest)) =
      readPlaceholder cs := by
  rw [placeholderRegex, Regex.first?_char_seq, ← List.head?_map, ← placeholderRegex,
    map_ways_placeholder, Option.head?_toList]

theorem first?_eq_none (h : ∀ rest, cs ≠ '$' :: '\x7b' :: rest) :
    placeholderRegex.first? cs = none := by
  rw [Regex.first?, ways_placeholder_eq_nil h]
  rfl

theorem substituteFrom_eq (env : Environment) (seen cs : List Char) :
    substituteFrom env seen cs =
      seen.reverse ++ placeholderRegex.replaceAll (Regex.Way.filled env) cs := by
  fun_induction substituteFrom env seen cs with
  | case1 seen => rw [Regex.replaceAll, List.append_nil]
  | case2 seen cs p rest hread ih =>
      rw [← first?_placeholder, Option.map_eq_some_iff] at hread
      obtain ⟨w, hfirst, hw⟩ := hread
      obtain ⟨rfl, rfl⟩ := Prod.mk.inj hw
      rw [ih, Regex.replaceAll_of_some hfirst, Regex.Way.filled, List.reverse_append,
        List.reverse_reverse, List.append_assoc]
  | case3 seen cs hread ih =>
      rw [← first?_placeholder, Option.map_eq_none_iff] at hread
      rw [ih, Regex.replaceAll_of_none hread, List.reverse_cons, List.append_assoc,
        List.singleton_append]
  | case4 seen c cs hne ih =>
      have hfirst : placeholderRegex.first? (c :: cs) = none := by
        apply first?_eq_none
        intro rest h
        obtain ⟨rfl, rfl⟩ := List.cons.inj h
        exact hne rest rfl rfl
      rw [ih, Regex.replaceAll_of_none hfirst, List.reverse_cons, List.append_assoc,
        List.singleton_append]

/-- Substitution replaces every match of the expression. -/
theorem substitute_eq_substituteMatches (env : Environment) (s : String) :
    substitute env s = substituteMatches env s := by
  rw [substitute, substituteFrom_eq]
  rfl

/-! ### Texts in their pieces -/

/-- A text in which no placeholder can begin. -/
structure PlainText where
  text : String
  no_opening : ¬ ['$', '\x7b'] <:+: text.toList

/-- A mention of a variable, as it can be written in a text. -/
structure Mention where
  name : String
  default? : Option String
  name_ne : name ≠ ""
  closing_not_mem_name : '\x7d' ∉ name.toList
  colon_not_mem_name : ':' ∉ name.toList
  closing_not_mem_default : ∀ d, default? = some d → '\x7d' ∉ d.toList

namespace Mention

/-- What is written behind the name. -/
def ending (m : Mention) : String :=
  match m.default? with
  | none => "\x7d"
  | some d => ":-" ++ d ++ "\x7d"

/-- How a mention is written. -/
def text (m : Mention) : String := "$\x7b" ++ m.name ++ m.ending

/-- What a mention stands for: the value of the variable, else the default, else nothing. -/
def value (m : Mention) (env : Environment) : String :=
  (env.get? m.name).getD (m.default?.getD "")

end Mention

/-- A text of plain pieces and mentions, in turn. -/
structure Template where
  front : PlainText
  more : List (Mention × PlainText)

namespace Template

/-- How a text is written. -/
def text (t : Template) : String :=
  t.front.text ++ String.join (t.more.map fun p => p.1.text ++ p.2.text)

/-- A text with its mentions filled in. -/
def filled (t : Template) (env : Environment) : String :=
  t.front.text ++ String.join (t.more.map fun p => p.1.value env ++ p.2.text)

end Template

variable {made : Regex.Way → List Char} {piece more : List Char} {c : Char}

/-- A plain piece is copied, unless it ends with the first half of an opening. -/
theorem replaceAll_plain (hpiece : ¬ ['$', '\x7b'] <:+: piece) (hmore : more.head? ≠ some '\x7b') :
    placeholderRegex.replaceAll made (piece ++ more) =
      piece ++ placeholderRegex.replaceAll made more := by
  induction piece with
  | nil => rfl
  | cons c piece ih =>
      rw [List.infix_cons_iff, not_or] at hpiece
      have hfirst : placeholderRegex.first? (c :: (piece ++ more)) = none := by
        apply first?_eq_none
        intro rest h
        obtain ⟨rfl, hrest⟩ := List.cons.inj h
        -- the second half of the opening would have to follow in the piece, or behind it
        cases piece with
        | nil =>
            rw [List.nil_append] at hrest
            rw [hrest] at hmore
            exact hmore rfl
        | cons c' piece =>
            obtain ⟨rfl, -⟩ := List.cons.inj hrest
            exact hpiece.1 ⟨piece, rfl⟩
      rw [List.cons_append, Regex.replaceAll_of_none hfirst, ih hpiece.2, List.cons_append]

/-- A name is read up to the character that ends it. -/
theorem readPlaceholder_append (hne : name ≠ []) (hname : ∀ c ∈ name, isVariableChar c)
    (hend : ¬ isVariableChar c) :
    readPlaceholder (name ++ c :: cs) = readPlaceholderEnd name (c :: cs) := by
  rw [readPlaceholder_eq, List.takeWhile_append_of_pos hname, List.dropWhile_append_of_pos hname,
    List.takeWhile_cons_of_neg hend, List.dropWhile_cons_of_neg hend, List.append_nil, if_neg hne]

/-- A default is read up to the closing brace. -/
theorem readPlaceholderEnd_default (name : List Char) (hcs : '\x7d' ∉ cs) (rest : List Char) :
    readPlaceholderEnd name (':' :: '-' :: (cs ++ '\x7d' :: rest)) =
      some (⟨String.ofList name, String.ofList cs⟩, rest) := by
  have hall : ∀ c ∈ cs, decide (c ≠ '\x7d') := by
    intro c hc
    rw [decide_eq_true_eq]
    rintro rfl
    exact hcs hc
  have htake : (cs ++ '\x7d' :: rest).takeWhile (· ≠ '\x7d') = cs := by
    rw [List.takeWhile_append_of_pos hall, List.takeWhile_cons_of_neg (by decide), List.append_nil]
  have hdrop : (cs ++ '\x7d' :: rest).dropWhile (· ≠ '\x7d') = '\x7d' :: rest := by
    rw [List.dropWhile_append_of_pos hall, List.dropWhile_cons_of_neg (by decide)]
  rw [readPlaceholderEnd, hdrop, htake]

namespace Mention

theorem isVariableChar_of_mem (m : Mention) : ∀ c ∈ m.name.toList, isVariableChar c := by
  intro c hc
  rw [isVariableChar, Bool.and_eq_true, decide_eq_true_eq, decide_eq_true_eq]
  constructor
  · rintro rfl
    exact m.closing_not_mem_name hc
  · rintro rfl
    exact m.colon_not_mem_name hc

/-- A mention is read as what it is. -/
theorem readPlaceholder_text (m : Mention) (more : List Char) :
    readPlaceholder (m.name.toList ++ (m.ending.toList ++ more)) =
      some (⟨m.name, m.default?.getD ""⟩, more) := by
  have hname : m.name.toList ≠ [] := by
    rw [ne_eq, String.toList_eq_nil_iff]
    exact m.name_ne
  cases hdefault : m.default? with
  | none =>
      have htext : m.ending.toList ++ more = '\x7d' :: more := by
        rw [ending, hdefault]
        rfl
      rw [htext, readPlaceholder_append hname m.isVariableChar_of_mem (by decide),
        readPlaceholderEnd, String.ofList_toList]
      rfl
  | some d =>
      have htext : m.ending.toList ++ more = ':' :: '-' :: (d.toList ++ '\x7d' :: more) := by
        rw [ending, hdefault]
        simp
      rw [htext, readPlaceholder_append hname m.isVariableChar_of_mem (by decide),
        readPlaceholderEnd_default _ (m.closing_not_mem_default d hdefault), String.ofList_toList,
        String.ofList_toList]
      rfl

/-- A mention is replaced by what it stands for. -/
theorem replaceAll_text (m : Mention) (env : Environment) (more : List Char) :
    placeholderRegex.replaceAll (Regex.Way.filled env) (m.text.toList ++ more) =
      (m.value env).toList ++ placeholderRegex.replaceAll (Regex.Way.filled env) more := by
  have htext : m.text.toList ++ more =
      '$' :: '\x7b' :: (m.name.toList ++ (m.ending.toList ++ more)) := by
    simp [text]
  have hread := m.readPlaceholder_text more
  rw [← first?_placeholder, Option.map_eq_some_iff] at hread
  obtain ⟨w, hfirst, hw⟩ := hread
  obtain ⟨hplaceholder, rfl⟩ := Prod.mk.inj hw
  rw [htext, Regex.replaceAll_of_some hfirst, Regex.Way.filled, hplaceholder]
  rfl

end Mention

namespace Template

/-- What follows a plain piece does not complete an opening. -/
theorem head?_more (more : List (Mention × PlainText)) :
    (String.join (more.map fun p => p.1.text ++ p.2.text)).toList.head? ≠ some '\x7b' := by
  cases more with
  | nil => decide
  | cons p more =>
      rw [List.map_cons, String.join_cons]
      simp [Mention.text]

theorem replaceAll_more (env : Environment) (more : List (Mention × PlainText)) :
    placeholderRegex.replaceAll (Regex.Way.filled env)
        (String.join (more.map fun p => p.1.text ++ p.2.text)).toList =
      (String.join (more.map fun p => p.1.value env ++ p.2.text)).toList := by
  induction more with
  | nil => simp [Regex.replaceAll]
  | cons p more ih =>
      rw [List.map_cons, List.map_cons, String.join_cons, String.join_cons, String.toList_append,
        String.toList_append, String.toList_append, String.toList_append, List.append_assoc,
        Mention.replaceAll_text, replaceAll_plain p.2.no_opening (head?_more more), ih,
        List.append_assoc]

/-- The plain pieces of a text are left alone, and its mentions are filled in. -/
theorem substitute_text (t : Template) (env : Environment) :
    substitute env t.text = t.filled env := by
  rw [substitute_eq_substituteMatches, substituteMatches, text, String.toList_append,
    replaceAll_plain t.front.no_opening (head?_more t.more), replaceAll_more,
    ← String.toList_append, String.ofList_toList, filled]

end Template

/-- **The plain pieces are left alone and every mention is filled in**, in one pass: what is put in
its place is not looked at again, whatever it holds.  A text without an opening is left alone, and
every text has every match of the expression replaced. -/
theorem substitute_onePass (env : Environment) :
    (∀ t : Template, substitute env t.text = t.filled env) ∧
      (∀ p : PlainText, substitute env p.text = p.text) ∧
      ∀ s : String, substitute env s = substituteMatches env s := by
  refine ⟨fun t => t.substitute_text env, ?_, substitute_eq_substituteMatches env⟩
  intro p
  have h := Template.substitute_text ⟨p, []⟩ env
  rw [Template.text, Template.filled, List.map_nil, List.map_nil] at h
  simpa using h

end TopicBridge
