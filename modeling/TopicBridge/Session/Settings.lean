/-
**How a session presents itself.**

Main definitions:

* `TopicBridge.SessionSettings` — what a session needs to know of its broker;
* `SessionSettings.connect` — the packet with which it opens a connection;
* `TopicBridge.Connector` — where a connection leads, and whether it is secured.
-/

import TopicBridge.Config.Settings
import TopicBridge.Session.Backoff
import TopicBridge.Text.Quoted

set_option autoImplicit false

namespace TopicBridge

/-- What a session needs to know of its broker. -/
structure SessionSettings where
  /-- The name under which its reconnections are counted. -/
  name : String
  clientId : String
  username : Option String
  password : Option String
  keepAlive : UInt16
  connectTimeout : Millis
  reconnectMin : Millis
  reconnectMax : Millis
  maxPacketSize : UInt32
  deriving DecidableEq, Repr

namespace SessionSettings

/-- The session with a given name and client suffix at a broker. -/
def ofEndpoint (name : String) (e : Endpoint) (process suffix : String)
    (reconnectMin reconnectMax : Millis) : SessionSettings where
  name
  clientId := e.clientId process suffix
  username := e.username
  password := e.password
  keepAlive := e.keepAlive
  connectTimeout := 1000 * e.connectTimeout.toNat
  reconnectMin
  reconnectMax
  maxPacketSize := e.maxPacketSize

/-- The packet with which a session opens a connection. -/
def connect (s : SessionSettings) (cleanStart : Bool) (sessionExpiry : Option UInt32) :
    Mqtt.Connect where
  clientId := s.clientId
  cleanStart
  keepAlive := s.keepAlive
  username := s.username
  password := s.password.map Bytes.ofString
  properties := {
    sessionExpiryInterval := sessionExpiry
    maximumPacketSize := some s.maxPacketSize }

/-- The delays of the session. -/
def backoff (s : SessionSettings) : Backoff := .start s.reconnectMin s.reconnectMax

end SessionSettings

/-! ### Connectors -/

/-- Where a connection leads. -/
structure Connector where
  address : String
  connectTimeout : Millis
  /-- What a secured connection is built from, and the name of the server. -/
  tls : Option (Tls.Material × Net.ServerName)

namespace Connector

/-- What a secured connection to a broker is built from. -/
def loadTls (files : Files) (e : Endpoint) (paths : Tls.Paths) :
    Except TlsError (Tls.Material × Net.ServerName) := do
  let material ← Tls.load files paths
  let name ← Tls.serverName e.serverName
  return (material, name)

/-- The connector to a broker. -/
def ofEndpoint (files : Files) (e : Endpoint) : Except TlsError Connector := do
  let tls ← e.tls.mapM (loadTls files e)
  return ⟨e.address, 1000 * e.connectTimeout.toNat, tls⟩

/-- Whether the connection is secured. -/
def isSecured (c : Connector) : Bool := c.tls.isSome

/-- A connector as a record. -/
def describe (c : Connector) : String :=
  s!"Connector \x7b address: {Text.quoted c.address}, tls: {c.isSecured} \x7d"

end Connector

end TopicBridge
