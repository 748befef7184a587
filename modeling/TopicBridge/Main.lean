/-
**The program.**

Reads the settings that the command line names and says why they are refused, if they are.  All
that is decided is decided by `Relay.refusal`; here are only the files and the variables.
-/

import TopicBridge.CommandLine

set_option autoImplicit false

namespace TopicBridge

/-- The bytes of a file, if it can be read. -/
def fileContent? (path : String) : IO (Option Bytes) := do
  try
    return some (← IO.FS.readBinFile path).toList
  catch _ => return none

/-- What a path names. -/
def entryAt (path : String) : IO Entry := do
  if let some fault := pathFault? path then return .unreadable fault
  try
    return .file (← IO.FS.readBinFile path).toList
  catch e =>
    match e with
    | .noFileOrDirectory _ _ _ => return .unreadable .missing
    | .invalidArgument _ _ _ => return .unreadable .nameTooLong
    | _ => return .directory

/-- The variables that are set: the system lists them one after another, each ended by a NUL. -/
def environment : IO Environment := do
  let listed := (← fileContent? "/proc/self/environ").bind Bytes.text?
  return ((listed.getD "").splitOn "\x00").filterMap fun entry =>
    match entry.splitOn "=" with
    | name :: first :: more => some (name, String.intercalate "=" (first :: more))
    | _ => none

/-- The files that given settings refer to. -/
def certificates (c : Config) : IO Files := do
  let entries ← c.certificateFiles.mapM fun path => do return (path, ← entryAt path)
  return fun path => ((entries.find? fun e => e.1 == path).map (·.2)).getD (.unreadable .missing)

end TopicBridge

open TopicBridge in
/-- Ends with 1 if the settings are refused, and with 2 if the arguments are. -/
def main (args : List String) : IO UInt32 := do
  match Invocation.parse args with
  | .error e =>
    IO.eprintln e.message
    return 2
  | .ok invocation =>
    let file ← fileContent? invocation.config
    let env ← environment
    let files ← match Config.load file env with
      | .ok c => certificates c
      | .error _ => pure (.ofList [])
    match Relay.refusal files file env with
    | some message =>
      IO.eprintln message
      return 1
    | none => return 0
