/-
**What a relay counts.**

Main definitions:

* `TopicBridge.Metric` — something that is counted;
* `TopicBridge.Metrics`, `Metrics.record` — the counts;
* `Metrics.count`, `Metrics.total` — how often something has been counted, for one label and for
  all;
* `TopicBridge.Histogram` — how long publications took.

Main results:

* `Metrics.count_bump` — counting one thing counts nothing else.
-/

set_option autoImplicit false

namespace TopicBridge

/-! ### Families -/

/-- The counts that have a label. -/
inductive Family where
  | backpressureDrops
  | duplicateCopies
  | messagesFiltered
  | messagesForwarded
  | messagesReceived
  | messagesUnmatched
  | publishFailures
  | topicFailures
  | sessionReconnects
  deriving DecidableEq, Repr

/-- Something that is counted. -/
inductive Metric where
  /-- One more of a family, under a label. -/
  | counted (family : Family) (label : String)
  /-- A message has been published; how long it took is measured in seconds. -/
  | forwarded (flow : String) (latency : Float)
  /-- A message has come back to the relay that published it. -/
  | loopDropped
  /-- A session has a connection. -/
  | sessionConnected
  /-- A session has lost its connection. -/
  | sessionDisconnected
  deriving Repr

/-! ### How long it took -/

/-- How many values are within each bound, how many there are, and their sum. -/
structure Histogram where
  /-- The bounds in rising order, each with the number of values up to it. -/
  buckets : List (Float × Nat)
  count : Nat := 0
  sum : Float := 0
  deriving Repr

namespace Histogram

/-- No value yet. -/
def ofBounds (bounds : List Float) : Histogram := { buckets := bounds.map fun b => (b, 0) }

/-- Takes in a value. -/
def observe (h : Histogram) (v : Float) : Histogram where
  buckets := h.buckets.map fun (bound, n) => (bound, if v <= bound then n + 1 else n)
  count := h.count + 1
  sum := h.sum + v

end Histogram

/-- The bounds for the time of a publication, in seconds. -/
def latencyBounds : List Float := [0.001, 0.005, 0.01, 0.05, 0.1, 0.5, 1.0, 5.0]

/-! ### Counts -/

/-- What has been counted. -/
structure Metrics where
  /-- The counts that have a label, in the order in which the labels came up. -/
  labelled : List ((Family × String) × Nat) := []
  loopDrops : Nat := 0
  sessionsConnected : Int := 0
  latency : Histogram := .ofBounds latencyBounds
  deriving Repr

instance : Inhabited Metrics := ⟨{}⟩

namespace Metrics

/-- How often something has been counted under a label. -/
def count (m : Metrics) (family : Family) (label : String) : Nat :=
  (m.labelled.lookup (family, label)).getD 0

/-- Adds to the entry of a key, which is made if it is not there. -/
def addTo (key : Family × String) (n : Nat) :
    List ((Family × String) × Nat) → List ((Family × String) × Nat)
  | [] => [(key, n)]
  | (k, m) :: rest => if k = key then (k, m + n) :: rest else (k, m) :: addTo key n rest

/-- Counts one more under a label. -/
def bump (m : Metrics) (family : Family) (label : String) : Metrics :=
  { m with labelled := addTo (family, label) 1 m.labelled }

/-- Makes a count visible, even if it is zero. -/
def touch (m : Metrics) (family : Family) (label : String) : Metrics :=
  { m with labelled := addTo (family, label) 0 m.labelled }

/-- The labels of a family with their counts, in order. -/
def ofFamily (m : Metrics) (family : Family) : List (String × Nat) :=
  ((m.labelled.filter fun e => e.1.1 = family).map fun e => (e.1.2, e.2)).mergeSort
    fun a b => !decide (b.1 < a.1)

/-- How often something has been counted, under all labels. -/
def total (m : Metrics) (family : Family) : Nat := (m.ofFamily family).foldr (fun e n => e.2 + n) 0

/-- Takes in something that is counted. -/
def record (m : Metrics) : Metric → Metrics
  | .counted family label => m.bump family label
  | .forwarded flow latency =>
    { m.bump .messagesForwarded flow with latency := m.latency.observe latency }
  | .loopDropped => { m with loopDrops := m.loopDrops + 1 }
  | .sessionConnected => { m with sessionsConnected := m.sessionsConnected + 1 }
  | .sessionDisconnected => { m with sessionsConnected := m.sessionsConnected - 1 }

/-- Takes in what is counted, one thing after the other. -/
def recordAll (m : Metrics) (events : List Metric) : Metrics := events.foldl record m

/-- The messages published in both flows, whose counts become visible. -/
def relayedTotal (m : Metrics) : Nat × Metrics :=
  (m.count .messagesForwarded "forward" + m.count .messagesForwarded "reverse",
    (m.touch .messagesForwarded "forward").touch .messagesForwarded "reverse")

theorem lookup_addTo (key other : Family × String) (n : Nat)
    (entries : List ((Family × String) × Nat)) :
    ((addTo key n entries).lookup other).getD 0 =
      (entries.lookup other).getD 0 + if other = key then n else 0 := by
  induction entries with
  | nil =>
    by_cases h : other = key
    · subst h
      simp [addTo]
    · have hb : (other == key) = false := by simpa using h
      simp [addTo, List.lookup_cons, h, hb]
  | cons e rest ih =>
    obtain ⟨k, m⟩ := e
    by_cases hk : k = key
    · subst hk
      by_cases ho : other = k
      · subst ho
        simp [addTo]
      · have hb : (other == k) = false := by simpa using ho
        simp [addTo, List.lookup_cons, ho, hb]
    · by_cases ho : other = k
      · subst ho
        simp [addTo, hk]
      · have hb : (other == k) = false := by simpa using ho
        simp only [addTo, hk, if_false, List.lookup_cons, hb]
        exact ih

/-- Counting one thing counts nothing else. -/
theorem count_bump (m : Metrics) (family f : Family) (label l : String) :
    (m.bump family label).count f l =
      m.count f l + if (f, l) = (family, label) then 1 else 0 :=
  lookup_addTo (family, label) (f, l) 1 m.labelled

end Metrics

end TopicBridge
