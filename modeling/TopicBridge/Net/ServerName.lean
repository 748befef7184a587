/-
**Names of servers.**

The name under which a server's certificate is checked is a domain name or a numeric address.

Main definitions:

* `TopicBridge.Net.IsDomainName` — whether a text is a domain name;
* `Net.ServerName` — a domain name or an address;
* `ServerName.parse?`, `ServerName.text` — the name that a text is, and how a name is written.
-/

import TopicBridge.Net.Address

set_option autoImplicit false

namespace TopicBridge.Net

/-! ### Domain names -/

/-- The characters of a label. -/
def isLabelChar (c : Char) : Bool :=
  ('a' ≤ c && c ≤ 'z') || ('A' ≤ c && c ≤ 'Z') || ('0' ≤ c && c ≤ '9') || c = '-' || c = '_'

/-- A label has between 1 and 63 characters and no hyphen at its ends. -/
def isLabel (label : List Char) : Bool :=
  !label.isEmpty && label.length ≤ 63 && label.all isLabelChar &&
    label.head? != some '-' && label.getLast? != some '-'

/-- The labels of a name; a dot may stand behind the last. -/
def labels (s : String) : List (List Char) :=
  let parts := (s.splitOn ".").map String.toList
  match parts.reverse with
  | [] :: last :: before => (last :: before).reverse
  | _ => parts

/-- Whether a text is a domain name: labels with dots between them, the last of which is not a
number. -/
def IsDomainName (s : String) : Bool :=
  s.utf8ByteSize ≤ 253 && (labels s).all isLabel &&
    ((labels s).getLast?.any fun label => !label.all fun c => '0' ≤ c && c ≤ '9')

/-! ### Server names -/

/-- What a server is called. -/
inductive ServerName where
  | domain (name : String)
  | v4 (ip : IPv4)
  | v6 (ip : IPv6)
  deriving DecidableEq, Repr

namespace ServerName

/-- The name that a text is. -/
def parse? (s : String) : Option ServerName :=
  if IsDomainName s then some (domain s)
  else ((IPv4.parse? s).map v4).or ((IPv6.parse? s).map v6)

/-- How a name is written. -/
def text : ServerName → String
  | domain name => name
  | v4 ip => ip.text
  | v6 ip => ip.text

end ServerName

end TopicBridge.Net
