/-
**Sections of text files.**

Certificates and keys are kept in text files.  A section stands between two marker lines that name
its label, and carries data in characters; what stands outside of sections is skipped, and so are
sections with a label that is not known.

Main definitions:

* `TopicBridge.Tls.Pem.Error` — why a file cannot be read;
* `Pem.Section` — a label and data;
* `Pem.sections` — the sections of a file up to the first error.
-/

import TopicBridge.Tls.Base64

set_option autoImplicit false

namespace TopicBridge.Tls.Pem

/-- Why a file cannot be read. -/
inductive Error where
  /-- The file ends inside a section. -/
  | missingSectionEnd (label : Bytes)
  /-- The first line of a section is not closed. -/
  | illegalSectionStart (line : Bytes)
  | base64 (e : Base64.Error)
  /-- The path names a directory. -/
  | isDirectory
  /-- No section is of the kind that is looked for. -/
  | noItemsFound
  deriving DecidableEq, Repr

/-- Bytes as a list of numbers. -/
def listText (bytes : Bytes) : String :=
  "[" ++ String.intercalate ", " (bytes.map fun b => toString b.toNat) ++ "]"

/-- The wording of an error. -/
def Error.message : Error → String
  | missingSectionEnd label => s!"missing section end marker: {listText label}"
  | illegalSectionStart line => s!"illegal section start: {listText line}"
  | base64 e => s!"base64 decode error: {e.text}"
  | isDirectory => "I/O error: Is a directory (os error 21)"
  | noItemsFound => "no items found"

/-- The labels of known sections. -/
inductive Label where
  | certificate
  | publicKey
  | rsaPrivateKey
  | privateKey
  | ecPrivateKey
  | revocationList
  | certificateRequest
  | clientHelloConfig
  deriving DecidableEq, Repr

namespace Label

/-- All labels. -/
def all : List Label :=
  [certificate, publicKey, rsaPrivateKey, privateKey, ecPrivateKey, revocationList,
    certificateRequest, clientHelloConfig]

/-- How a label is written. -/
def text : Label → String
  | certificate => "CERTIFICATE"
  | publicKey => "PUBLIC KEY"
  | rsaPrivateKey => "RSA PRIVATE KEY"
  | privateKey => "PRIVATE KEY"
  | ecPrivateKey => "EC PRIVATE KEY"
  | revocationList => "X509 CRL"
  | certificateRequest => "CERTIFICATE REQUEST"
  | clientHelloConfig => "ECHCONFIG"

/-- The label that is written in a given way. -/
def ofBytes? (bytes : Bytes) : Option Label :=
  all.find? fun label => Bytes.ofString label.text == bytes

end Label

/-- A section. -/
structure Section where
  label : Label
  data : Bytes
  deriving DecidableEq, Repr

/-! ### Lines -/

/-- The lines of a file behind those of `seen`; each ends with a line feed or a carriage return,
which belongs to it.  `line` is the one that has begun, both are latest first. -/
def linesFrom (seen : List Bytes) (line : Bytes) : Bytes → List Bytes
  | [] => (if line.isEmpty then seen else line.reverse :: seen).reverse
  | b :: rest =>
    if b = 10 ∨ b = 13 then linesFrom ((b :: line).reverse :: seen) [] rest
    else linesFrom seen (b :: line) rest

/-- The lines of a file. -/
def lines (file : Bytes) : List Bytes := linesFrom [] [] file

/-- What opens the first line of a section. -/
def opening : Bytes := Bytes.ofString "-----BEGIN "

/-- The label in the first line of a section: what stands before the dashes at the end, of which
there are five, blanks aside. -/
def labelOf (line : Bytes) : Except Error Bytes :=
  let isTail (b : UInt8) : Bool := b = 45 ∨ b = 10 ∨ b = 13 ∨ b = 32
  let tail := line.reverse.takeWhile isTail
  if tail.count 45 ≠ 5 then .error (.illegalSectionStart line)
  else
    let tail := (tail.reverse.dropWhile (· ≠ 45)).length
    .ok ((line.take (line.length - tail)).drop opening.length)

/-- What opens the last line of a section. -/
def closing (label : Bytes) : Bytes := Bytes.ofString "-----END " ++ label ++ Bytes.ofString "-----"

/-! ### Sections -/

/-- The state of reading a file. -/
structure Progress where
  /-- The sections that are complete, latest first. -/
  sections : List Section
  /-- The label of the section that is open. -/
  label? : Option Bytes
  /-- Its lines, latest first. -/
  body : List Bytes
  deriving Repr

/-- The end of the section with a given label. -/
def Progress.close (p : Progress) (label : Bytes) : Except Error Progress :=
  match Label.ofBytes? label with
  | none => .ok ⟨p.sections, none, []⟩
  | some known =>
    match Base64.decode p.body.reverse.flatten with
    | .ok data => .ok ⟨⟨known, data⟩ :: p.sections, none, []⟩
    | .error e => .error (.base64 e)

/-- The effect of a line. -/
def Progress.step (p : Progress) (line : Bytes) : Except Error Progress :=
  if opening.isPrefixOf line then (labelOf line).map fun label => { p with label? := some label }
  else
    match p.label? with
    | none => .ok p
    | some label =>
      if (closing label).isPrefixOf line then p.close label
      else .ok { p with body := line :: p.body }

/-- The sections of a file, latest first, and the error that stops, if there is one. -/
def sectionsFrom (p : Progress) : List Bytes → List Section × Option Error
  | [] => (p.sections, p.label?.map Error.missingSectionEnd)
  | line :: rest =>
    match p.step line with
    | .ok p => sectionsFrom p rest
    | .error e => (p.sections, some e)

/-- The sections of a file up to the first error, and that error, if there is one. -/
def sections (file : Bytes) : List Section × Option Error :=
  let (latestFirst, e) := sectionsFrom ⟨[], none, []⟩ (lines file)
  (latestFirst.reverse, e)

end TopicBridge.Tls.Pem
