/-
**Filters.**

A rule may hold back messages by their content.  Its filters form a chain of clauses: the first
clause that a message does not meet rejects it, and an empty chain accepts every message without
looking at it.

Main definitions:

* `TopicBridge.Filter.Clause` — a condition on the content of a message;
* `Filter.Clause.holds`, `Filter.Clause.reason` — when a message meets a clause, and why it is
  rejected if it does not;
* `Filter.Settings`, `Filter.Settings.chain` — the filters of a rule as they are written, and their
  chain;
* `Filter.verdict` — the verdict of a chain on a payload.
-/

import TopicBridge.Filter.Content

set_option autoImplicit false

namespace TopicBridge

/-! ### Time -/

/-- A reading of the clock. -/
inductive WallTime where
  | beforeEpoch
  | sinceEpoch (seconds nanoseconds : Nat)
  deriving DecidableEq, Repr

/-- The number of nanoseconds in a second. -/
def nanosPerSecond : Nat := 1000000000

/-- The seconds since the epoch; zero before it.  Full seconds among the nanoseconds count as seconds
before anything is rounded. -/
def WallTime.toSeconds : WallTime → Float
  | beforeEpoch => 0
  | sinceEpoch seconds nanoseconds =>
    (UInt64.ofNat (seconds + nanoseconds / nanosPerSecond)).toFloat +
      (UInt64.ofNat (nanoseconds % nanosPerSecond)).toFloat / 1000000000

namespace Filter

/-! ### Clauses -/

/-- Why a message is rejected. -/
inductive Reason where
  | priorityBelowThreshold
  | typeBlocked
  | tooOld
  | missingField
  deriving DecidableEq, Repr

/-- The name of a reason. -/
def Reason.text : Reason → String
  | priorityBelowThreshold => "priority_below_threshold"
  | typeBlocked => "type_blocked"
  | tooOld => "too_old"
  | missingField => "missing_field"

/-- A condition on the content of a message. -/
inductive Clause where
  /-- The priority is known and not lower than this. -/
  | priorityMin (threshold : Priority)
  /-- The type is none of these; an opaque payload does not meet the condition. -/
  | typeBlocklist (types : List String)
  /-- The message is not older than this. -/
  | maxAgeSeconds (seconds : UInt64)
  /-- All these fields are there. -/
  | requiredFields (names : List String)
  deriving DecidableEq, Repr

namespace Clause

/-- Whether `content` meets a condition at a time in seconds since the epoch. -/
def holds (content : Content) (now : Float) : Clause → Bool
  | requiredFields names => names.all content.hasField
  | priorityMin threshold =>
    match content.priority?.map Priority.parse with
    | some (.ok p) => decide (threshold ≤ p)
    | _ => false
  | typeBlocklist types =>
    match content with
    | .opaquePayload => false
    | .object _ =>
      match content.type? with
      | some t => !types.contains t
      | none => true
  | maxAgeSeconds seconds =>
    match content.timestamp? with
    | some t => now - t <= seconds.toFloat
    | none => false

/-- The reason that a clause gives for rejecting. -/
def reason : Clause → Reason
  | requiredFields _ => .missingField
  | priorityMin _ => .priorityBelowThreshold
  | typeBlocklist _ => .typeBlocked
  | maxAgeSeconds _ => .tooOld

/-- The blocked types in order, each once; no other clause has any. -/
def blockedTypes : Clause → List String
  | typeBlocklist types => (types.mergeSort fun a b => !decide (b < a)).eraseReps
  | _ => []

end Clause

/-! ### Chains -/

/-- The filters of a rule as they are written. -/
structure Settings where
  priorityMin : Option String := none
  typeBlocklist : List String := []
  maxAgeSeconds : Option UInt64 := none
  requiredFields : List String := []
  deriving DecidableEq, Repr, Inhabited

/-- A list of names that is not empty, as a clause. -/
def listClause (clause : List String → Clause) (names : List String) : List Clause :=
  if names = [] then [] else [clause names]

/-- The chain of some filters: the required fields first, then the priority, the type and the age.
An empty list counts as not written. -/
def Settings.chain (s : Settings) : Except UnknownPriority (List Clause) := do
  let threshold ← s.priorityMin.mapM Priority.parse
  return listClause .requiredFields s.requiredFields ++
    (threshold.map Clause.priorityMin).toList ++
    listClause .typeBlocklist s.typeBlocklist ++
    (s.maxAgeSeconds.map Clause.maxAgeSeconds).toList

/-- What becomes of a message. -/
inductive Verdict where
  | accept
  | reject (reason : Reason)
  deriving DecidableEq, Repr

/-- The verdict of a chain on a content: the first clause that does not hold rejects. -/
def judge (chain : List Clause) (content : Content) (now : Float) : Verdict :=
  match chain.find? fun clause => !clause.holds content now with
  | some clause => .reject clause.reason
  | none => .accept

/-- The verdict of a chain on a payload.  An empty chain does not look at the payload. -/
def verdict (chain : List Clause) (payload : Bytes) (now : WallTime) : Verdict :=
  if chain = [] then .accept else judge chain (Content.ofPayload payload) now.toSeconds

end Filter

end TopicBridge
