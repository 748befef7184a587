/-
**What a session is told and what it does.**

A session reads a clock, watches a signal to stop, and talks to its broker over a stream that it
asks for.  Both the subscriber and the publisher of a flow do so in the terms of this module.

Main definitions:

* `TopicBridge.Surroundings` — the clock and the signal;
* `TopicBridge.LinkInput` — what a session is told about its stream and its time limits;
* `TopicBridge.Effect` — what a session does to its stream, and what it counts.
-/

import TopicBridge.Metrics.Counters
import TopicBridge.Session.Backoff
import TopicBridge.Session.Connection

set_option autoImplicit false

namespace TopicBridge

/-- What a session learns from the world around it. -/
structure Surroundings where
  /-- The time that has passed. -/
  now : Millis
  /-- Whether everything is to stop. -/
  shutdown : Bool
  deriving DecidableEq, Repr

/-- What a session does to the world around it. -/
inductive Effect where
  /-- Asks for a new stream to the broker. -/
  | dial
  | write (bytes : Bytes)
  /-- Gives the stream up. -/
  | hangUp
  | count (metric : Metric)

/-- What a session is told about its stream and its time limits. -/
inductive LinkInput where
  /-- The stream that was asked for is there. -/
  | opened
  /-- It does not come about. -/
  | notOpened (e : SessionError)
  /-- Bytes come in. -/
  | arrived (bytes : Bytes)
  /-- The broker has ended the stream. -/
  | ended
  /-- The stream has failed. -/
  | failed (cause : String)
  /-- The next packet, or the reason why there is none, is looked at. -/
  | packet
  /-- The next question to the broker is due. -/
  | ping
  /-- A time limit has passed. -/
  | timeUp
  /-- Everything is to stop. -/
  | shutdown
  deriving DecidableEq, Repr

/-- What a session is told when the attempt to open a stream has ended. -/
def LinkInput.dialled : Except SessionError Unit → LinkInput
  | .ok _ => .opened
  | .error e => .notOpened e

namespace Effect

/-- The bytes that are written. -/
def written : List Effect → List Bytes
  | [] => []
  | .write bytes :: rest => bytes :: written rest
  | _ :: rest => written rest

/-- What is counted. -/
def counted : List Effect → List Metric
  | [] => []
  | .count metric :: rest => metric :: counted rest
  | _ :: rest => counted rest

end Effect

end TopicBridge
