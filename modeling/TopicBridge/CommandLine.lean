/-
**The command line.**

A relay is started with the name of a file of settings, and perhaps with the least weight of the
lines that it writes to its log.

Main definitions:

* `TopicBridge.LogLevel` — how much is written to the log;
* `TopicBridge.Invocation` — what the command line asks for;
* `Invocation.parse` — the reading of the arguments;
* `Config.certificateFiles` — the files that settings refer to.
-/

import TopicBridge.Relay.Setup

set_option autoImplicit false

namespace TopicBridge

/-- How much is written to the log, from the least to the most. -/
inductive LogLevel where
  | error
  | warn
  | info
  | debug
  | trace
  deriving DecidableEq, Repr, Inhabited

namespace LogLevel

/-- The name of a level. -/
def text : LogLevel → String
  | error => "error"
  | warn => "warn"
  | info => "info"
  | debug => "debug"
  | trace => "trace"

/-- All levels. -/
def all : List LogLevel := [error, warn, info, debug, trace]

/-- The level with a given name. -/
def ofText? (s : String) : Option LogLevel := all.find? fun l => l.text == s

theorem ofText?_text (l : LogLevel) : ofText? l.text = some l := by cases l <;> decide

end LogLevel

/-- What the command line asks for. -/
structure Invocation where
  /-- The name of the file of settings. -/
  config : String
  /-- The level that takes the place of the one in the settings. -/
  logLevel : Option LogLevel := none
  deriving DecidableEq, Repr

/-- What is wrong with the arguments. -/
inductive InvocationError where
  | noConfig
  | noValue (option : String)
  | repeated (option : String)
  | unknownLevel (word : String)
  | unexpected (argument : String)
  deriving DecidableEq, Repr

/-- The wording of what is wrong. -/
def InvocationError.message : InvocationError → String
  | noConfig => "error: the following required arguments were not provided:\n  --config <CONFIG>"
  | noValue option => s!"error: a value is required for '{option}' but none was supplied"
  | repeated option => s!"error: the argument '{option}' cannot be used multiple times"
  | unknownLevel word => s!"error: invalid value '{word}' for '--log-level <LOG_LEVEL>'"
  | unexpected argument => s!"error: unexpected argument '{argument}' found"

namespace Invocation

/-- The arguments as far as they have been read. -/
structure Given where
  config : Option String := none
  logLevel : Option LogLevel := none

/-- The option that an argument stands for. -/
inductive Choice where
  | config
  | logLevel
  deriving DecidableEq, Repr

/-- The name of an option, with what its value is. -/
def Choice.text : Choice → String
  | config => "--config <CONFIG>"
  | logLevel => "--log-level <LOG_LEVEL>"

/-- The option with a given name. -/
def Choice.ofText? (s : String) : Option Choice :=
  if s = "--config" ∨ s = "-c" then some .config
  else if s = "--log-level" ∨ s = "-l" then some .logLevel
  else none

/-- An option gets its value. -/
def Given.put (p : Given) (value : String) : Choice → Except InvocationError Given
  | .config =>
    if p.config.isSome then .error (.repeated Choice.config.text)
    else .ok { p with config := some value }
  | .logLevel =>
    if p.logLevel.isSome then .error (.repeated Choice.logLevel.text)
    else
      match LogLevel.ofText? value with
      | some level => .ok { p with logLevel := some level }
      | none => .error (.unknownLevel value)

/-- Reads arguments, each an option that its value follows. -/
def parseFrom (p : Given) : List String → Except InvocationError Given
  | [] => .ok p
  | name :: rest =>
    match Choice.ofText? name, rest with
    | none, _ => .error (.unexpected name)
    | some c, [] => .error (.noValue c.text)
    | some c, value :: rest =>
      match p.put value c with
      | .ok p => parseFrom p rest
      | .error e => .error e

/-- What the arguments ask for. -/
def parse (args : List String) : Except InvocationError Invocation := do
  let p ← parseFrom {} args
  match p.config with
  | some config => return { config, logLevel := p.logLevel }
  | none => throw .noConfig

end Invocation

/-- The files with certificates and keys that settings refer to. -/
def Config.certificateFiles (c : Config) : List String :=
  [c.source, c.destination].flatMap fun e =>
    match e.tls with
    | some p => [p.caCert, p.clientCert, p.clientKey].filterMap id
    | none => []

end TopicBridge
