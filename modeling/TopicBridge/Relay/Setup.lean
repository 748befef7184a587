/-
**Setting up a relay.**

Everything that can go wrong for reasons of configuration goes wrong here: a relay that is set up
meets only faults of its brokers and of the network, from which it recovers.

Main definitions:

* `TopicBridge.Relay`, `Relay.new` — a relay that is ready to start;
* `Relay.refusal` — what the command line says of settings that it refuses.
-/

import TopicBridge.Config.Load
import TopicBridge.Rule.Registry
import TopicBridge.Session.Settings

set_option autoImplicit false

namespace TopicBridge

/-- A relay that is ready to start. -/
structure Relay where
  config : Config
  id : String
  registry : Registry
  source : Connector
  destination : Connector

namespace Relay

/-- The relay with given settings.  Its name is `generated` unless they give one. -/
def new (files : Files) (generated : String) (c : Config) : Except ConfigError Relay := do
  c.validate
  let registry ← Registry.build c
  let source ← (Connector.ofEndpoint files c.source).mapError .tls
  let destination ← (Connector.ofEndpoint files c.destination).mapError .tls
  return { config := c, id := c.relayId?.getD generated, registry, source, destination }

/-- What the command line says when it refuses settings; `none` if it accepts them. -/
def refusal (files : Files) (file : Option Bytes) (env : Environment) : Option String :=
  match Config.load file env with
  | .error e => some ("Error loading config file: " ++ e.message?.getD "")
  | .ok c =>
    match new files "" c with
    | .error e => some ("Invalid configuration: " ++ e.message?.getD "")
    | .ok _ => none

end Relay

end TopicBridge
