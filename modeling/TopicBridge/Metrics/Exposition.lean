/-
**The counts as a text.**

Counts are shown as families of samples in the order of their names.  A family begins with a line
for its help and one for its type; a family without samples is left out.

Main definitions:

* `TopicBridge.Family.name`, `Family.help`, `Family.labelName` — how a family is shown;
* `Metrics.exposition` — the text;
* `Metrics.summary` — the counts that are not zero, each under a short name.
-/

import TopicBridge.Decimal.Shortest
import TopicBridge.Metrics.Counters

set_option autoImplicit false

namespace TopicBridge

/-! ### Families -/

namespace Family

/-- All families. -/
def all : List Family :=
  [backpressureDrops, duplicateCopies, messagesFiltered, messagesForwarded, messagesReceived,
    messagesUnmatched, publishFailures, topicFailures, sessionReconnects]

/-- The name of a family, short. -/
def shortName : Family → String
  | backpressureDrops => "backpressure_drops"
  | duplicateCopies => "duplicate_copies"
  | messagesFiltered => "messages_filtered"
  | messagesForwarded => "messages_forwarded"
  | messagesReceived => "messages_received"
  | messagesUnmatched => "messages_unmatched"
  | publishFailures => "publish_failures"
  | topicFailures => "rewrite_failures"
  | sessionReconnects => "session_reconnects"

/-- The name of a family. -/
def name (f : Family) : String := s!"mqrelay_{f.shortName}_total"

/-- What a family counts. -/
def help : Family → String
  | backpressureDrops => "Queued messages dropped because the outbound queue stayed full"
  | duplicateCopies => "Extra copies delivered for overlapping subscriptions"
  | messagesFiltered => "Messages dropped by a rule filter"
  | messagesForwarded => "Messages acknowledged by the destination broker"
  | messagesReceived => "PUBLISH messages received from a source session"
  | messagesUnmatched => "Messages that matched no rule"
  | publishFailures => "Messages lost to a write or acknowledgement failure"
  | topicFailures => "Messages whose rule could not produce an outbound topic"
  | sessionReconnects => "Reconnect attempts after a session failed"

/-- What the labels of a family stand for. -/
def labelName : Family → String
  | messagesFiltered => "reason"
  | sessionReconnects => "session"
  | _ => "flow"

end Family

/-! ### Samples -/

namespace Exposition

/-- The value of a label, in which backslashes, quotes and line ends are escaped. -/
def escapeLabel (value : String) : String :=
  value.foldl (fun (s : String) c =>
    match c with
    | '\\' => s ++ "\\\\"
    | '"' => s ++ "\\\""
    | '\n' => s ++ "\\n"
    | c => s.push c) ""

/-- A sample with a label. -/
def labelled (name label value sample : String) : String :=
  s!"{name}\x7b{label}=\"{escapeLabel value}\"\x7d {sample}\n"

/-- A sample without one. -/
def plain (name sample : String) : String := s!"{name} {sample}\n"

/-- The samples of a family below its help and its type; nothing if there are none. -/
def family (name help type : String) (samples : List String) : String :=
  if samples = [] then ""
  else s!"# HELP {name} {help}\n# TYPE {name} {type}\n" ++ String.join samples

/-- The samples of a histogram: the number of values within each bound, their sum, their number. -/
def histogram (name : String) (h : Histogram) : List String :=
  (h.buckets.map fun (bound, n) =>
    labelled (name ++ "_bucket") "le" (Decimal.floatText bound) (toString n)) ++
  [labelled (name ++ "_bucket") "le" "+Inf" (toString h.count),
    plain (name ++ "_sum") (Decimal.floatText h.sum),
    plain (name ++ "_count") (toString h.count)]

end Exposition

namespace Metrics

/-- The families with a label, under their names. -/
def labelledFamilies (m : Metrics) : List (String × String) :=
  Family.all.map fun f => (f.name, Exposition.family f.name f.help "counter"
    ((m.ofFamily f).map fun (label, n) => Exposition.labelled f.name f.labelName label (toString n)))

/-- The families without labels, under their names. -/
def plainFamilies (m : Metrics) : List (String × String) :=
  let one (name help type : String) (samples : List String) :=
    (name, Exposition.family name help type samples)
  [one "mqrelay_loop_drops_total" "Inbound messages dropped because this relay published them"
      "counter" [Exposition.plain "mqrelay_loop_drops_total" (toString m.loopDrops)],
    one "mqrelay_publish_latency_seconds" "Time from PUBLISH to final acknowledgement" "histogram"
      (Exposition.histogram "mqrelay_publish_latency_seconds" m.latency),
    one "mqrelay_sessions_connected" "Broker sessions currently connected" "gauge"
      [Exposition.plain "mqrelay_sessions_connected" (toString m.sessionsConnected)]]

/-- The counts as a text. -/
def exposition (m : Metrics) : String :=
  String.join (((m.labelledFamilies ++ m.plainFamilies).mergeSort
    fun a b => !decide (b.1 < a.1)).map (·.2))

/-- The counts that are not zero, each under a short name. -/
def summary (m : Metrics) : List (String × Int) :=
  ((Family.all.flatMap fun f => (m.ofFamily f).map fun (e : String × Nat) =>
      (s!"{f.shortName}.{e.1}", (e.2 : Int))) ++
    [("loop_drops", (m.loopDrops : Int)), ("publish_latency_seconds", (m.latency.count : Int)),
      ("sessions_connected", m.sessionsConnected)]).filter fun e => e.2 ≠ 0

end Metrics

end TopicBridge
