/-
**What a secured connection is built from.**

A connection is secured with three files: the certificates of the authorities that are trusted, the
certificate of this client, and its key.  They are read when a relay is set up, so that a file
that is missing or broken is found before anything is connected.

Main definitions:

* `TopicBridge.Tls.Paths` — the paths of the three files and the name of the server;
* `TopicBridge.TlsError`, `TlsError.message` — why a connection cannot be secured;
* `Tls.Material`, `Tls.load` — what is read from the files;
* `Tls.serverName` — the name under which the server's certificate is checked.
-/

import TopicBridge.Files
import TopicBridge.Net.ServerName
import TopicBridge.Tls.Der

set_option autoImplicit false

namespace TopicBridge

/-! ### Errors -/

/-- Why a connection cannot be secured. -/
inductive TlsError where
  /-- There is no file of this name that can be read. -/
  | cannotRead (path : String) (fault : FileFault)
  | badCertificates (path : String) (e : Tls.Pem.Error)
  | noCertificates (path : String)
  /-- A trusted certificate is none. -/
  | badAuthority
  | badKey (path : String) (e : Tls.Pem.Error)
  /-- Not all three files are named. -/
  | incomplete
  /-- The key is none. -/
  | unusableKey
  /-- The client's certificate is none. -/
  | unusableCertificate
  | badServerName (name : String)
  deriving DecidableEq, Repr

namespace TlsError

/-- What an error is about. -/
inductive Group where
  | file
  | certificate
  | privateKey
  | configuration
  deriving DecidableEq, Repr

/-- What an error is about. -/
def group : TlsError → Group
  | cannotRead _ _ => .file
  | badCertificates _ _ => .certificate
  | noCertificates _ => .certificate
  | badAuthority => .certificate
  | badKey _ _ => .privateKey
  | incomplete => .configuration
  | unusableKey => .configuration
  | unusableCertificate => .configuration
  | badServerName _ => .configuration

/-- What stands in front of the errors of a group. -/
def Group.lead : Group → String
  | file => "cannot read "
  | certificate => "Certificate error: "
  | privateKey => "Private key error: "
  | configuration => "TLS config error: "

/-- What an error says, without what it is about. -/
def detail : TlsError → String
  | cannotRead path fault => s!"{path}: {fault.message}"
  | badCertificates path e => s!"Failed to parse certificates in {path}: {e.message}"
  | noCertificates path => s!"No certificates found in {path}"
  | badAuthority => "Failed to add CA certificate: invalid peer certificate: BadEncoding"
  | badKey path e => s!"Failed to parse private key in {path}: {e.message}"
  | incomplete => "ca_cert, client_cert and client_key are all required"
  | unusableKey =>
    "Failed to build TLS config: unexpected error: failed to parse private key as RSA, ECDSA, or EdDSA"
  | unusableCertificate => "Failed to build TLS config: invalid peer certificate: BadEncoding"
  | badServerName name => s!"Invalid server name '{name}': invalid dns name"

/-- The wording of an error. -/
def message (e : TlsError) : String := e.group.lead ++ e.detail

end TlsError

namespace Tls

/-- The names of the files, as far as they are given, and of the server. -/
structure Paths where
  caCert : Option String := none
  clientCert : Option String := none
  clientKey : Option String := none
  serverName : Option String := none
  deriving DecidableEq, Repr, Inhabited

namespace Paths

/-- The three files, if all are given. -/
def all? (p : Paths) : Option (String × String × String) := do
  return (← p.caCert, ← p.clientCert, ← p.clientKey)

/-- The files that are not given, or given as an empty text. -/
def missing (p : Paths) : List String :=
  ([("ca_cert", p.caCert), ("client_cert", p.clientCert), ("client_key", p.clientKey)].filter
    fun f => f.2.getD "" = "").map (·.1)

end Paths

/-! ### Loading -/

/-- What is read from the files. -/
structure Material where
  authorities : List Bytes
  certificates : List Bytes
  key : Bytes
  deriving DecidableEq, Repr

/-- The sections of a file up to the first error. -/
def readSections (files : Files) (path : String) :
    Except TlsError (List Pem.Section × Option Pem.Error) :=
  match files path with
  | .unreadable fault => .error (.cannotRead path fault)
  | .directory => .ok ([], some .isDirectory)
  | .file content => .ok (Pem.sections content)

/-- The certificates in a file, of which there is at least one. -/
def loadCertificates (files : Files) (path : String) : Except TlsError (List Bytes) := do
  let (sections, e) ← readSections files path
  match e with
  | some e => throw (.badCertificates path e)
  | none =>
    match sections.filter fun s => s.label = .certificate with
    | [] => throw (.noCertificates path)
    | found => return found.map (·.data)

/-- Whether a section holds a private key. -/
def isKeyLabel (label : Pem.Label) : Bool :=
  label = .privateKey || label = .ecPrivateKey || label = .rsaPrivateKey

/-- The first key in a file. -/
def loadKey (files : Files) (path : String) : Except TlsError Pem.Section := do
  let (sections, e) ← readSections files path
  match sections.find? fun s => isKeyLabel s.label with
  | some key => return key
  | none => throw (.badKey path (e.getD .noItemsFound))

/-- The certificates of the trusted authorities. -/
def loadAuthorities (files : Files) (path : String) : Except TlsError (List Bytes) := do
  let found ← loadCertificates files path
  if found.all Der.isCertificate then return found else throw .badAuthority

/-- What the files hold, if a connection can be secured with it. -/
def load (files : Files) (paths : Paths) : Except TlsError Material :=
  match paths.all? with
  | none => .error .incomplete
  | some (caCert, clientCert, clientKey) => do
    let authorities ← loadAuthorities files caCert
    let certificates ← loadCertificates files clientCert
    let key ← loadKey files clientKey
    if ¬ Der.isKey key.label key.data then throw .unusableKey
    if ¬ certificates.head?.all Der.isCertificate then throw .unusableCertificate
    return ⟨authorities, certificates, key.data⟩

/-- The name of a server. -/
def serverName (name : String) : Except TlsError Net.ServerName :=
  match Net.ServerName.parse? name with
  | some n => .ok n
  | none => .error (.badServerName name)

end Tls

end TopicBridge
