/-
**What a rule's filters ask of a payload.**

The filters of a rule are four conditions, each of which may be left out: fields that have to be
there, a least priority, types that are not wanted, and a largest age.  Here each condition is said
in terms of the members of the JSON object that a payload has to be, without the chain of clauses
that the filters are turned into.  The chain looks at the conditions in a fixed order and gives the
reason of the first one that is not met.  So its verdict does not depend on how the lists are
written, and to ask for more never lets more through.

Main definitions:

* `Filter.Reason.order`, `Filter.Reason.place` — the conditions in the order in which they are
  looked at, each under the reason that it gives;
* `Filter.Settings.Asks` — a condition is written;
* `Filter.Settings.Holds`, `Filter.Settings.Meets` — a condition holds of the members of an object,
  and is met by a payload;
* `Filter.Settings.SameLists`, `Filter.Settings.Stricter` — other filters with the same conditions,
  and with conditions that ask for more;
* `Filter.Settings.Judges` — what the verdicts of filters have to be.

Main results:

* `Filter.Settings.chain_eq` — the chain of some filters, condition by condition;
* `Filter.Settings.fails_iff` — a clause fails exactly if its condition is written and not met;
* `Filter.Settings.judges` — **what the verdicts of filters are**.
-/

import Mathlib.Data.List.Basic
import Mathlib.Tactic.SplitIfs
import TopicBridge.Proofs.Rule.Built

set_option autoImplicit false

namespace TopicBridge.Filter

/-! ### Conditions -/

/-- The reasons in the order in which their conditions are looked at. -/
def Reason.order : List Reason := [.missingField, .priorityBelowThreshold, .typeBlocked, .tooOld]

/-- The place of a reason in the order. -/
def Reason.place : Reason → Nat
  | .missingField => 0
  | .priorityBelowThreshold => 1
  | .typeBlocked => 2
  | .tooOld => 3

theorem Reason.mem_order (reason : Reason) : reason ∈ Reason.order := by
  cases reason <;> decide

theorem Reason.getElem?_place (reason : Reason) : Reason.order[reason.place]? = some reason := by
  cases reason <;> rfl

theorem Reason.place_getElem : ∀ (i : Nat) (h : i < Reason.order.length),
    Reason.order[i].place = i := by
  decide

/-- The first reason of some kind comes before all others of that kind. -/
theorem Reason.find?_order_eq_some_iff {q : Reason → Bool} {reason : Reason} :
    Reason.order.find? q = some reason ↔
      q reason = true ∧ ∀ before : Reason, before.place < reason.place → q before = false := by
  rw [List.find?_eq_some_iff_getElem]
  refine and_congr_right ?_
  intro _
  constructor
  · rintro ⟨i, hi, rfl, hbefore⟩ before hlt
    rw [Reason.place_getElem] at hlt
    have hnot := hbefore before.place hlt
    have hget := Reason.getElem?_place before
    rw [List.getElem?_eq_getElem (Nat.lt_trans hlt hi)] at hget
    rw [Option.some.inj hget] at hnot
    simpa using hnot
  · intro hbefore
    obtain ⟨hi, hget⟩ := List.getElem?_eq_some_iff.1 (Reason.getElem?_place reason)
    refine ⟨reason.place, hi, hget, ?_⟩
    intro j hj
    have hplace := Reason.place_getElem j (Nat.lt_trans hj hi)
    rw [hbefore _ (by omega)]
    rfl

namespace Settings

/-- The least priority, if one is written and known. -/
def threshold? (s : Settings) : Option Priority :=
  s.priorityMin.bind fun text => (Priority.parse text).toOption

/-- The condition is written that gives a reason.  An empty list is none. -/
def Asks (s : Settings) : Reason → Prop
  | .missingField => s.requiredFields ≠ []
  | .priorityBelowThreshold => s.priorityMin ≠ none
  | .typeBlocked => s.typeBlocklist ≠ []
  | .tooOld => s.maxAgeSeconds ≠ none

/-- What a condition asks of the members of an object, at a time in seconds since the epoch. -/
def Holds (s : Settings) (members : List (Option String × Json)) (now : Float) : Reason → Prop
  | .missingField => ∀ name ∈ s.requiredFields, ∃ v, Json.member? members name = some v ∧ v ≠ .null
  | .priorityBelowThreshold => ∃ text p least,
      Json.member? members "priority" = some (.string (some text)) ∧ Priority.parse text = .ok p ∧
        s.threshold? = some least ∧ least ≤ p
  | .typeBlocked => ∀ type,
      Json.member? members "type" = some (.string (some type)) → type ∉ s.typeBlocklist
  | .tooOld => ∃ n time age,
      Json.member? members "timestamp" = some (.number n) ∧ n.toFloat? = some time ∧
        s.maxAgeSeconds = some age ∧ now - time ≤ age.toFloat

/-- A payload meets a condition: it is an object, and the condition holds of its members. -/
def Meets (s : Settings) (payload : Bytes) (now : WallTime) (reason : Reason) : Prop :=
  ∃ members, payload.text?.bind Json.parseSound? = some (.object members) ∧
    s.Holds members now.toSeconds reason

/-- Filters that differ only in how their lists are written. -/
structure SameLists (s s' : Settings) : Prop where
  mem_requiredFields : ∀ name, name ∈ s'.requiredFields ↔ name ∈ s.requiredFields
  mem_typeBlocklist : ∀ type, type ∈ s'.typeBlocklist ↔ type ∈ s.typeBlocklist
  priorityMin : s'.priorityMin = s.priorityMin
  maxAgeSeconds : s'.maxAgeSeconds = s.maxAgeSeconds

/-- Filters that may ask for further fields, for further types to be held back, and for a least
priority where there was none or a lower one. -/
structure Stricter (s s' : Settings) : Prop where
  requiredFields : s.requiredFields ⊆ s'.requiredFields
  typeBlocklist : s.typeBlocklist ⊆ s'.typeBlocklist
  threshold : ∀ least, s.threshold? = some least → ∃ more, s'.threshold? = some more ∧ least ≤ more
  maxAgeSeconds : s'.maxAgeSeconds = s.maxAgeSeconds

/-- What the verdicts of the chain of some filters have to be. -/
structure Judges (s : Settings) (chain : List Clause) : Prop where
  /-- Without a condition everything is accepted. -/
  accepts : (∀ reason, ¬s.Asks reason) → ∀ payload now, verdict chain payload now = .accept
  /-- With a condition, what is not an object is rejected. -/
  rejects : (∃ reason, s.Asks reason) → ∀ payload now,
    (∀ members, payload.text?.bind Json.parseSound? ≠ some (.object members)) →
      ∃ reason, verdict chain payload now = .reject reason
  /-- A payload is accepted if it meets all conditions. -/
  accept_iff : ∀ payload now,
    verdict chain payload now = .accept ↔ ∀ reason, s.Asks reason → s.Meets payload now reason
  /-- Otherwise the reason is that of the first condition that it does not meet. -/
  reject_iff : ∀ payload now reason, verdict chain payload now = .reject reason ↔
    s.Asks reason ∧ ¬s.Meets payload now reason ∧
      ∀ before : Reason, before.place < reason.place → s.Asks before → s.Meets payload now before
  /-- Neither the order nor the repetitions of the lists matter. -/
  sameLists : ∀ s' : Settings, s.SameLists s' → ∃ chain', s'.chain = .ok chain' ∧
    ∀ payload now, verdict chain' payload now = verdict chain payload now
  /-- What is rejected is not accepted by filters that ask for more. -/
  stricter : ∀ (s' : Settings) (chain' : List Clause), s.Stricter s' → s'.chain = .ok chain' →
    ∀ payload now, verdict chain payload now ≠ .accept → verdict chain' payload now ≠ .accept

/-! ### The chain of some filters -/

/-- The clause of a condition, if the condition is written. -/
def clause? (s : Settings) : Reason → Option Clause
  | .missingField => if s.requiredFields = [] then none else some (.requiredFields s.requiredFields)
  | .priorityBelowThreshold => s.threshold?.map .priorityMin
  | .typeBlocked => if s.typeBlocklist = [] then none else some (.typeBlocklist s.typeBlocklist)
  | .tooOld => s.maxAgeSeconds.map .maxAgeSeconds

variable {s s' : Settings} {chain : List Clause} {reason : Reason}

/-- Whether the filters have a chain depends on the least priority only. -/
theorem exists_chain_iff :
    (∃ chain, s.chain = .ok chain) ↔ ∀ text ∈ s.priorityMin, ∃ p, Priority.parse text = .ok p := by
  rw [Settings.chain]
  cases s.priorityMin with
  | none => exact iff_of_true ⟨_, rfl⟩ (by simp)
  | some text =>
      cases hparse : Priority.parse text with
      | ok p =>
          refine iff_of_true ⟨_, by simp only [Option.mapM_some, hparse]; rfl⟩ ?_
          intro text' htext
          obtain rfl := Option.some.inj htext
          exact ⟨p, hparse⟩
      | error e =>
          refine iff_of_false ?_ ?_
          · rintro ⟨chain, hchain⟩
            simp only [Option.mapM_some, hparse] at hchain
            cases hchain
          · intro hall
            obtain ⟨p, hp⟩ := hall text rfl
            rw [hparse] at hp
            cases hp

/-- A least priority that can be read is the one that filters ask for. -/
theorem threshold?_of_mapM {threshold : Option Priority}
    (h : s.priorityMin.mapM Priority.parse = .ok threshold) :
    s.threshold? = threshold ∧ (s.priorityMin ≠ none ↔ threshold ≠ none) := by
  rw [threshold?]
  cases hmin : s.priorityMin with
  | none =>
      rw [hmin] at h
      obtain rfl := Except.ok.inj h
      exact ⟨rfl, iff_of_false (by simp) (by simp)⟩
  | some text =>
      rw [hmin, Option.mapM_some] at h
      obtain ⟨p, hparse, hp⟩ := bind_eq_ok_iff.1 h
      obtain rfl := Except.ok.inj hp
      rw [Option.bind_some, hparse]
      exact ⟨rfl, iff_of_true (by simp) (by simp)⟩

theorem toList_clause?_requiredFields (s : Settings) :
    (s.clause? .missingField).toList = listClause .requiredFields s.requiredFields := by
  rw [clause?, listClause]
  split_ifs <;> rfl

theorem toList_clause?_typeBlocklist (s : Settings) :
    (s.clause? .typeBlocked).toList = listClause .typeBlocklist s.typeBlocklist := by
  rw [clause?, listClause]
  split_ifs <;> rfl

/-- **The chain of some filters, condition by condition.** -/
theorem chain_eq (h : s.chain = .ok chain) : chain = Reason.order.filterMap s.clause? := by
  obtain ⟨threshold, hmap, hchain⟩ := bind_eq_ok_iff.1 h
  obtain rfl := Except.ok.inj hchain
  obtain ⟨hthreshold, -⟩ := threshold?_of_mapM hmap
  rw [List.filterMap_eq_flatMap_toList, Reason.order]
  simp only [List.flatMap_cons, List.flatMap_nil, List.append_nil]
  rw [toList_clause?_requiredFields, toList_clause?_typeBlocklist, clause?, clause?, hthreshold]
  simp only [List.append_assoc]

/-- A clause stands for the condition under whose reason it rejects. -/
theorem reason_of_clause? {c : Clause} (h : s.clause? reason = some c) : c.reason = reason := by
  cases reason with
  | missingField | typeBlocked =>
      rw [clause?] at h
      split_ifs at h
      obtain rfl := Option.some.inj h
      rfl
  | priorityBelowThreshold | tooOld =>
      obtain ⟨_, -, rfl⟩ := Option.map_eq_some_iff.1 h
      rfl

/-- Filters that have a chain have a clause for each condition that is written. -/
theorem clause?_ne_none_iff (h : s.chain = .ok chain) :
    s.clause? reason ≠ none ↔ s.Asks reason := by
  obtain ⟨threshold, hmap, -⟩ := bind_eq_ok_iff.1 h
  obtain ⟨hthreshold, hnone⟩ := threshold?_of_mapM hmap
  cases reason with
  | missingField | typeBlocked =>
      rw [clause?, Asks]
      split_ifs with hnil
      · exact iff_of_false (by simp) (by simp [hnil])
      · exact iff_of_true (by simp) hnil
  | priorityBelowThreshold =>
      rw [clause?, Asks, hnone, hthreshold]
      cases threshold <;> simp
  | tooOld =>
      rw [clause?, Asks]
      cases s.maxAgeSeconds <;> simp

end Settings

/-! ### Payloads -/

/-- A payload is an object or opaque. -/
theorem ofPayload_cases (payload : Bytes) :
    (∃ members, payload.text?.bind Json.parseSound? = some (.object members) ∧
        Content.ofPayload payload = .object members) ∨
      (∀ members, payload.text?.bind Json.parseSound? ≠ some (.object members)) ∧
        Content.ofPayload payload = .opaquePayload := by
  unfold Content.ofPayload
  split
  · rename_i members hobject
    exact .inl ⟨members, hobject, rfl⟩
  · rename_i hobject
    exact .inr ⟨hobject, rfl⟩

theorem hasField_iff {content : Content} {name : String} :
    content.hasField name = true ↔
      ∃ v, Json.member? content.members name = some v ∧ v ≠ .null := by
  unfold Content.hasField
  split
  · rename_i hnone
    simp [hnone]
  · rename_i hnull
    simp [hnull]
  · rename_i v hnull hsome
    refine iff_of_true rfl ⟨v, hsome, ?_⟩
    rintro rfl
    exact hnull rfl

theorem text?_eq_some_iff {content : Content} {name text : String} :
    content.text? name = some text ↔
      Json.member? content.members name = some (.string (some text)) := by
  unfold Content.text?
  split
  · rename_i t hstring
    rw [hstring]
    simp
  · rename_i hother
    refine iff_of_false (by simp) ?_
    intro hstring
    exact hother _ hstring

namespace Settings

variable {s s' : Settings} {chain : List Clause} {reason : Reason} {c : Clause}
  {members : List (Option String × Json)} {payload : Bytes} {now : Float}

/-- No clause of some filters lets an opaque payload through. -/
theorem not_holds_opaquePayload (h : s.clause? reason = some c) :
    c.holds .opaquePayload now = false := by
  cases reason with
  | missingField =>
      rw [clause?] at h
      split_ifs at h with hnil
      obtain rfl := Option.some.inj h
      obtain ⟨name, names, hcons⟩ := List.exists_cons_of_ne_nil hnil
      rw [hcons]
      rfl
  | typeBlocked =>
      rw [clause?] at h
      split_ifs at h
      obtain rfl := Option.some.inj h
      rfl
  | priorityBelowThreshold | tooOld =>
      obtain ⟨_, -, rfl⟩ := Option.map_eq_some_iff.1 h
      rfl

theorem priorityMin_holds_iff {least : Priority} (h : s.threshold? = some least) :
    (Clause.priorityMin least).holds (.object members) now = true ↔
      s.Holds members now .priorityBelowThreshold := by
  rw [Clause.holds, Holds]
  cases hpriority : (Content.object members).priority? with
  | none =>
      refine iff_of_false (by simp) ?_
      rintro ⟨text, -, -, hmember, -⟩
      have hsome : (Content.object members).priority? = some text := text?_eq_some_iff.2 hmember
      rw [hpriority] at hsome
      cases hsome
  | some text =>
      have hmember : Json.member? members "priority" = some (.string (some text)) :=
        text?_eq_some_iff.1 hpriority
      rw [Option.map_some]
      cases hparse : Priority.parse text with
      | error e =>
          refine iff_of_false (by simp) ?_
          rintro ⟨text', p, -, hmember', hparse', -⟩
          rw [hmember] at hmember'
          cases hmember'
          rw [hparse] at hparse'
          cases hparse'
      | ok p =>
          dsimp only
          rw [decide_eq_true_eq]
          constructor
          · intro hle
            exact ⟨text, p, least, hmember, hparse, h, hle⟩
          · rintro ⟨text', p', least', hmember', hparse', hleast', hle⟩
            rw [hmember] at hmember'
            cases hmember'
            rw [hparse] at hparse'
            cases hparse'
            rw [h] at hleast'
            cases hleast'
            exact hle

theorem typeBlocklist_holds_iff :
    (Clause.typeBlocklist s.typeBlocklist).holds (.object members) now = true ↔
      s.Holds members now .typeBlocked := by
  rw [Clause.holds, Holds]
  cases htype : (Content.object members).type? with
  | none =>
      refine iff_of_true rfl ?_
      intro type hmember
      have hsome : (Content.object members).type? = some type := text?_eq_some_iff.2 hmember
      rw [htype] at hsome
      cases hsome
  | some type =>
      have hmember : Json.member? members "type" = some (.string (some type)) :=
        text?_eq_some_iff.1 htype
      dsimp only
      rw [Bool.not_eq_true', List.contains_eq_mem, decide_eq_false_iff_not]
      constructor
      · intro hnot type' hmember'
        rw [hmember] at hmember'
        cases hmember'
        exact hnot
      · intro hall
        exact hall type hmember

theorem timestamp?_eq_some_iff {content : Content} {time : Float} :
    content.timestamp? = some time ↔
      ∃ n, Json.member? content.members "timestamp" = some (.number n) ∧
        n.toFloat? = some time := by
  unfold Content.timestamp?
  split
  · rename_i n hnumber
    rw [hnumber]
    simp
  · rename_i hother
    refine iff_of_false (by simp) ?_
    rintro ⟨n, hnumber, -⟩
    exact hother _ hnumber

theorem maxAgeSeconds_holds_iff {age : UInt64} (h : s.maxAgeSeconds = some age) :
    (Clause.maxAgeSeconds age).holds (.object members) now = true ↔
      s.Holds members now .tooOld := by
  rw [Clause.holds, Holds]
  cases htime : (Content.object members).timestamp? with
  | none =>
      refine iff_of_false (by simp) ?_
      rintro ⟨n, time, -, hmember, hfloat, -⟩
      have hsome : (Content.object members).timestamp? = some time :=
        timestamp?_eq_some_iff.2 ⟨n, hmember, hfloat⟩
      rw [htime] at hsome
      cases hsome
  | some time =>
      obtain ⟨n, hmember, hfloat⟩ := timestamp?_eq_some_iff.1 htime
      dsimp only
      rw [decide_eq_true_eq]
      constructor
      · intro hle
        exact ⟨n, time, age, hmember, hfloat, h, hle⟩
      · rintro ⟨n', time', age', hmember', hfloat', hage', hle⟩
        have hsome : (Content.object members).timestamp? = some time' :=
          timestamp?_eq_some_iff.2 ⟨n', hmember', hfloat'⟩
        rw [htime] at hsome
        cases hsome
        rw [h] at hage'
        cases hage'
        exact hle

/-- **A clause of some filters is its condition**, on the members of an object. -/
theorem holds_object_iff (h : s.clause? reason = some c) :
    c.holds (.object members) now = true ↔ s.Holds members now reason := by
  cases reason with
  | missingField =>
      rw [clause?] at h
      split_ifs at h
      obtain rfl := Option.some.inj h
      rw [Clause.holds, List.all_eq_true]
      exact forall₂_congr fun name _ => hasField_iff
  | priorityBelowThreshold =>
      obtain ⟨least, hleast, rfl⟩ := Option.map_eq_some_iff.1 h
      exact priorityMin_holds_iff hleast
  | typeBlocked =>
      rw [clause?] at h
      split_ifs at h
      obtain rfl := Option.some.inj h
      exact typeBlocklist_holds_iff
  | tooOld =>
      obtain ⟨age, hage, rfl⟩ := Option.map_eq_some_iff.1 h
      exact maxAgeSeconds_holds_iff hage

/-- A clause of some filters lets a payload through if the payload meets its condition. -/
theorem holds_ofPayload_iff (h : s.clause? reason = some c) (now : WallTime) :
    c.holds (.ofPayload payload) now.toSeconds = true ↔ s.Meets payload now reason := by
  rw [Meets]
  rcases ofPayload_cases payload with ⟨members, hobject, hcontent⟩ | ⟨hblank, hcontent⟩
  · rw [hcontent, holds_object_iff h]
    constructor
    · intro hholds
      exact ⟨members, hobject, hholds⟩
    · rintro ⟨members', hobject', hholds⟩
      rw [hobject] at hobject'
      cases hobject'
      exact hholds
  · rw [hcontent, not_holds_opaquePayload h]
    refine iff_of_false (by simp) ?_
    rintro ⟨members, hobject, -⟩
    exact hblank members hobject

/-! ### Verdicts -/

/-- Whether the clause of a condition, if it is written, does not let a payload through. -/
def fails (s : Settings) (payload : Bytes) (now : WallTime) (reason : Reason) : Bool :=
  (s.clause? reason).any fun c => !c.holds (.ofPayload payload) now.toSeconds

/-- **A clause fails exactly if its condition is written and not met.** -/
theorem fails_iff (h : s.chain = .ok chain) (payload : Bytes) (now : WallTime) (reason : Reason) :
    s.fails payload now reason = true ↔ s.Asks reason ∧ ¬s.Meets payload now reason := by
  rw [fails, ← clause?_ne_none_iff h]
  cases hclause : s.clause? reason with
  | none => simp
  | some c => simp [← holds_ofPayload_iff hclause now]

/-- The verdict is that of the first condition that fails. -/
theorem verdict_eq (h : s.chain = .ok chain) (payload : Bytes) (now : WallTime) :
    verdict chain payload now =
      ((Reason.order.find? (s.fails payload now)).map Verdict.reject).getD .accept := by
  have hfind : (chain.find? fun c => !c.holds (.ofPayload payload) now.toSeconds) =
      (Reason.order.find? (s.fails payload now)).bind s.clause? := by
    rw [chain_eq h, List.find?_filterMap]
    rfl
  have hjudge : judge chain (.ofPayload payload) now.toSeconds =
      ((Reason.order.find? (s.fails payload now)).map Verdict.reject).getD .accept := by
    rw [judge, hfind]
    cases hfirst : Reason.order.find? (s.fails payload now) with
    | none => rfl
    | some reason =>
        -- the condition that fails has a clause, and the clause its reason
        have hfails := List.find?_some hfirst
        rw [Option.bind_some]
        cases hclause : s.clause? reason with
        | none =>
            rw [fails, hclause] at hfails
            cases hfails
        | some c =>
            dsimp only
            rw [reason_of_clause? hclause]
            rfl
  rw [← hjudge, verdict]
  split_ifs with hnil
  · rw [hnil]
    rfl
  · rfl

theorem verdict_eq_accept_iff (h : s.chain = .ok chain) (payload : Bytes) (now : WallTime) :
    verdict chain payload now = .accept ↔
      ∀ reason, s.Asks reason → s.Meets payload now reason := by
  have hnone : verdict chain payload now = .accept ↔
      Reason.order.find? (s.fails payload now) = none := by
    rw [verdict_eq h]
    cases Reason.order.find? (s.fails payload now) <;> simp
  rw [hnone, List.find?_eq_none]
  constructor
  · intro hall reason hasks
    have hnot := hall reason reason.mem_order
    rw [fails_iff h] at hnot
    by_contra hmeets
    exact hnot ⟨hasks, hmeets⟩
  · intro hall reason _ hfails
    obtain ⟨hasks, hmeets⟩ := (fails_iff h payload now reason).1 hfails
    exact hmeets (hall reason hasks)

theorem verdict_eq_reject_iff (h : s.chain = .ok chain) (payload : Bytes) (now : WallTime)
    (reason : Reason) :
    verdict chain payload now = .reject reason ↔
      s.Asks reason ∧ ¬s.Meets payload now reason ∧
        ∀ before : Reason, before.place < reason.place → s.Asks before →
          s.Meets payload now before := by
  have hfirst : verdict chain payload now = .reject reason ↔
      Reason.order.find? (s.fails payload now) = some reason := by
    rw [verdict_eq h]
    cases Reason.order.find? (s.fails payload now) <;> simp
  have hbefore (before : Reason) : s.fails payload now before = false ↔
      (s.Asks before → s.Meets payload now before) := by
    rw [Bool.eq_false_iff, ne_eq, fails_iff h, not_and, not_not]
  rw [hfirst, Reason.find?_order_eq_some_iff, fails_iff h, and_assoc]
  simp only [hbefore]

/-! ### Other filters -/

theorem asks_iff_of_sameLists (h : s.SameLists s') (reason : Reason) :
    s'.Asks reason ↔ s.Asks reason := by
  cases reason with
  | missingField =>
      rw [Asks, Asks, ne_eq, ne_eq, List.eq_nil_iff_forall_not_mem, List.eq_nil_iff_forall_not_mem]
      simp only [h.mem_requiredFields]
  | typeBlocked =>
      rw [Asks, Asks, ne_eq, ne_eq, List.eq_nil_iff_forall_not_mem, List.eq_nil_iff_forall_not_mem]
      simp only [h.mem_typeBlocklist]
  | priorityBelowThreshold => rw [Asks, Asks, h.priorityMin]
  | tooOld => rw [Asks, Asks, h.maxAgeSeconds]

theorem meets_iff_of_sameLists (h : s.SameLists s') (payload : Bytes) (now : WallTime)
    (reason : Reason) : s'.Meets payload now reason ↔ s.Meets payload now reason := by
  refine exists_congr fun members => and_congr_right fun _ => ?_
  cases reason with
  | missingField => simp only [Holds, h.mem_requiredFields]
  | typeBlocked => simp only [Holds, h.mem_typeBlocklist]
  | priorityBelowThreshold => simp only [Holds, threshold?, h.priorityMin]
  | tooOld => simp only [Holds, h.maxAgeSeconds]

/-- The verdict is known from the conditions that are written and met. -/
theorem verdict_congr {chain' : List Clause} (h : s.chain = .ok chain)
    (h' : s'.chain = .ok chain') (payload : Bytes) (now : WallTime)
    (hasks : ∀ reason, s'.Asks reason ↔ s.Asks reason)
    (hmeets : ∀ reason, s'.Meets payload now reason ↔ s.Meets payload now reason) :
    verdict chain' payload now = verdict chain payload now := by
  cases hverdict : verdict chain payload now with
  | accept =>
      rw [verdict_eq_accept_iff h] at hverdict
      rw [verdict_eq_accept_iff h']
      simpa only [hasks, hmeets] using hverdict
  | reject reason =>
      rw [verdict_eq_reject_iff h] at hverdict
      rw [verdict_eq_reject_iff h']
      simpa only [hasks, hmeets] using hverdict

/-- What filters ask for is asked for by stricter ones. -/
theorem Stricter.asks (hs : s.Stricter s') (h : s.chain = .ok chain) (hasks : s.Asks reason) :
    s'.Asks reason := by
  cases reason with
  | missingField =>
      intro hnil
      exact hasks (List.subset_nil.1 (hnil ▸ hs.requiredFields))
  | typeBlocked =>
      intro hnil
      exact hasks (List.subset_nil.1 (hnil ▸ hs.typeBlocklist))
  | priorityBelowThreshold =>
      have hclause := (clause?_ne_none_iff h).2 hasks
      rw [clause?, ne_eq, Option.map_eq_none_iff] at hclause
      obtain ⟨least, hleast⟩ := Option.ne_none_iff_exists'.1 hclause
      obtain ⟨more, hmore, -⟩ := hs.threshold least hleast
      intro hnone
      rw [threshold?, hnone] at hmore
      cases hmore
  | tooOld =>
      rw [Asks, hs.maxAgeSeconds]
      exact hasks

/-- What meets a condition of stricter filters meets it as it was. -/
theorem Stricter.meets (hs : s.Stricter s') (h : s.chain = .ok chain) (hasks : s.Asks reason)
    {now : WallTime} (hmeets : s'.Meets payload now reason) : s.Meets payload now reason := by
  obtain ⟨members, hobject, hholds⟩ := hmeets
  refine ⟨members, hobject, ?_⟩
  cases reason with
  | missingField =>
      intro name hname
      exact hholds name (hs.requiredFields hname)
  | typeBlocked =>
      intro type hmember htype
      exact hholds type hmember (hs.typeBlocklist htype)
  | priorityBelowThreshold =>
      obtain ⟨text, p, more, hmember, hparse, hmore, hle⟩ := hholds
      have hclause := (clause?_ne_none_iff h).2 hasks
      rw [clause?, ne_eq, Option.map_eq_none_iff] at hclause
      obtain ⟨least, hleast⟩ := Option.ne_none_iff_exists'.1 hclause
      obtain ⟨more', hmore', hraised⟩ := hs.threshold least hleast
      obtain rfl := Option.some.inj (hmore'.symm.trans hmore)
      exact ⟨text, p, least, hmember, hparse, hleast, Nat.le_trans hraised hle⟩
  | tooOld =>
      obtain ⟨n, time, age, hmember, hfloat, hage, hle⟩ := hholds
      rw [hs.maxAgeSeconds] at hage
      exact ⟨n, time, age, hmember, hfloat, hage, hle⟩

/-- **What the verdicts of filters are**: the first of the conditions that are written and not met
gives the reason, whatever the order of the lists, and to ask for more never lets more through. -/
theorem judges (h : s.chain = .ok chain) : s.Judges chain where
  accepts := by
    intro hnone payload now
    rw [verdict_eq_accept_iff h]
    intro reason hasks
    exact absurd hasks (hnone reason)
  rejects := by
    rintro ⟨reason, hasks⟩ payload now hblank
    cases hverdict : verdict chain payload now with
    | reject reason => exact ⟨reason, rfl⟩
    | accept =>
        have hmeets := (verdict_eq_accept_iff h payload now).1 hverdict
        obtain ⟨members, hobject, -⟩ := hmeets reason hasks
        exact absurd hobject (hblank members)
  accept_iff := verdict_eq_accept_iff h
  reject_iff := verdict_eq_reject_iff h
  sameLists := by
    intro s' hsame
    obtain ⟨chain', h'⟩ : ∃ chain', s'.chain = .ok chain' := by
      rw [exists_chain_iff, hsame.priorityMin]
      exact exists_chain_iff.1 ⟨chain, h⟩
    refine ⟨chain', h', ?_⟩
    intro payload now
    exact verdict_congr h h' payload now (asks_iff_of_sameLists hsame)
      (meets_iff_of_sameLists hsame payload now)
  stricter := by
    intro s' chain' hs h' payload now hreject haccept
    refine hreject ((verdict_eq_accept_iff h payload now).2 ?_)
    have hmeets := (verdict_eq_accept_iff h' payload now).1 haccept
    intro reason hasks
    exact hs.meets h hasks (hmeets reason (hs.asks h hasks))

/-- Filters that ask for a priority that is at least normal, and want no messages for debugging. -/
def calm : Settings where
  priorityMin := some "Normal"
  typeBlocklist := ["debug"]
  requiredFields := ["priority"]

/-- Their verdicts on a message without a priority, on one that fails two conditions, on one that
fails none, and on a list. -/
theorem judges_calm :
    calm.chain =
        .ok [.requiredFields ["priority"], .priorityMin .normal, .typeBlocklist ["debug"]] ∧
      calm.Judges [.requiredFields ["priority"], .priorityMin .normal, .typeBlocklist ["debug"]] ∧
      ["\x7b\"type\":\"debug\"\x7d", "\x7b\"priority\":\"low\",\"type\":\"debug\"\x7d",
        "\x7b\"priority\":\"HIGH\"\x7d", "[]"].map (fun text =>
          verdict [.requiredFields ["priority"], .priorityMin .normal, .typeBlocklist ["debug"]]
            (.ofString text) .beforeEpoch) =
        [.reject .missingField, .reject .priorityBelowThreshold, .accept,
          .reject .missingField] := by
  have hchain : calm.chain =
      .ok [.requiredFields ["priority"], .priorityMin .normal, .typeBlocklist ["debug"]] := by rfl
  exact ⟨hchain, judges hchain, by decide +kernel⟩

end Settings

end TopicBridge.Filter
