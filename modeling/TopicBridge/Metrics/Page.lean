/-
**The pages that show the counts.**

Main definitions:

* `TopicBridge.Page` — an answer over HTTP;
* `Metrics.page` — the answer to a request for a target.
-/

import TopicBridge.Metrics.Exposition

set_option autoImplicit false

namespace TopicBridge

/-- An answer over HTTP. -/
structure Page where
  status : Nat
  contentType : Option String := none
  body : String
  deriving DecidableEq, Repr

/-- The path of a target: what stands before the query. -/
def Page.path (target : String) : String := String.ofList (target.toList.takeWhile (· ≠ '?'))

/-- The answer to a request for a target, whatever its method. -/
def Metrics.page (m : Metrics) (target : String) : Page :=
  match Page.path target with
  | "/metrics" => ⟨200, some "text/plain; version=0.0.4", m.exposition⟩
  | "/health" => ⟨200, none, "OK"⟩
  | "/healthz" => ⟨200, none, "OK"⟩
  | _ => ⟨404, none, "Not Found"⟩

end TopicBridge
