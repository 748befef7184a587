/-
**Files by name.**

Settings, certificates and keys are files, and a path leads to each of them: names with slashes
between them, which are followed from directory to directory.  A path can be wrong in itself, by
what it is made of or by its length; otherwise it is followed up to the first name that is not
there.

Main definitions:

* `TopicBridge.FileFault`, `FileFault.message` — why a file cannot be read;
* `TopicBridge.pathFault?` — what is wrong with a path in itself;
* `TopicBridge.Entry` — what a path leads to;
* `TopicBridge.Files`, `Files.ofList` — what all paths lead to.
-/

import TopicBridge.Bytes

set_option autoImplicit false

namespace TopicBridge

/-! ### Faults -/

/-- Why a file cannot be read. -/
inductive FileFault where
  | missing
  | nameTooLong
  | nulInName
  | notText
  deriving DecidableEq, Repr

/-- The wording of a fault. -/
def FileFault.message : FileFault → String
  | missing => "No such file or directory (os error 2)"
  | nameTooLong => "File name too long (os error 36)"
  | nulInName => "file name contained an unexpected NUL byte"
  | notText => "stream did not contain valid UTF-8"

/-- The most bytes that a path may have. -/
def maxPathBytes : Nat := 4095

/-- The most bytes that a name in a path may have. -/
def maxNameBytes : Nat := 255

/-- What is wrong with a path in itself, whatever files there are. -/
def pathFault? (path : String) : Option FileFault :=
  if path.toList.any (fun c => c.toNat = 0) then some .nulInName
  else if path = "" then some .missing
  else if path.utf8ByteSize > maxPathBytes then some .nameTooLong
  else none

/-! ### Directories -/

/-- What a path leads to. -/
inductive Entry where
  | unreadable (fault : FileFault)
  | directory
  | file (content : Bytes)
  deriving DecidableEq, Repr

/-- Where the following of a path has come to. -/
inductive Place where
  /-- At the root of the system. -/
  | root
  /-- In a directory at the root. -/
  | belowRoot
  /-- In a directory of which nothing is known. -/
  | elsewhere
  deriving DecidableEq, Repr

/-- The place above another. -/
def Place.parent : Place → Place
  | root => root
  | belowRoot => root
  | elsewhere => elsewhere

/-- The directories that a system has at its root. -/
def rootDirectories : List String :=
  ["bin", "boot", "dev", "etc", "home", "lib", "media", "mnt", "opt", "proc", "root", "run", "sbin",
    "srv", "sys", "tmp", "usr", "var"]

/-- What names lead to from a place, if there are no files. -/
def Place.follow (place : Place) : (names : List String) → Entry
  | [] => .directory
  | name :: rest =>
    if name = "" ∨ name = "." then place.follow rest
    else if name = ".." then place.parent.follow rest
    else if place = .root ∧ name ∈ rootDirectories then belowRoot.follow rest
    else if name.utf8ByteSize > maxNameBytes then .unreadable .nameTooLong
    else .unreadable .missing

/-- Where a path begins. -/
def Place.start (path : String) : Place :=
  if path.toList.head? = some '/' then root else elsewhere

/-! ### Files -/

/-- What all paths lead to. -/
abbrev Files := String → Entry

/-- The file without content that every system has. -/
def nullDevice : String × Bytes := ("/dev/null", [])

/-- The given files, and no others beside the directories and the device of every system. -/
def Files.ofList (files : List (String × Bytes)) : Files := fun path =>
  match pathFault? path with
  | some fault => .unreadable fault
  | none =>
    match (nullDevice :: files).find? fun f => f.1 == path with
    | some f => .file f.2
    | none => (Place.start path).follow (path.splitOn "/")

end TopicBridge
