/-
**What a connection writes to its stream.**

`Connection.send` says as which bytes a packet is sent.  Here it is told how they get there.  A
connection has one buffer for all of its packets.  Whoever sends a packet empties the buffer, writes
the packet into it, looks at its size, and hands the buffer to the stream; whatever stops him on the
way leaves the buffer as it is.  The stream takes all bytes that it is given, or fails.

Main definitions:

* `TopicBridge.Outlet` — a connection with its buffer and its stream;
* `Outlet.send` — sends a packet;
* `Outlet.Act`, `Outlet.run` — the calls of `send` in a sequence of events.
-/

import TopicBridge.Mqtt.Packet.Emit
import TopicBridge.Session.Connection

set_option autoImplicit false

namespace TopicBridge

open Mqtt

/-- A connection with the buffer that it writes its packets into, and its stream. -/
structure Outlet where
  connection : Connection := {}
  /-- What has been written for the last packet, as a whole or in part. -/
  buffer : Bytes := []
  /-- Every byte that the stream has taken. -/
  stream : Bytes := []

namespace Outlet

/-! ### Sending -/

/-- A computation on a connection and its buffer. -/
abbrev Sender := EStateM SessionError Outlet

/-- Empties the buffer. -/
def clear : Sender Unit := fun o => .ok () { o with buffer := [] }

/-- Writes a packet into the buffer. -/
def encode (p : Packet) : Sender Unit := fun o =>
  match p.emit o.buffer with
  | .ok _ buffer => .ok () { o with buffer }
  | .error e buffer => .error (.encode e) { o with buffer }

/-- Refuses a packet that is larger than the broker admits. -/
def check : Sender Unit := fun o =>
  if Connection.admits o.connection.limits o.buffer.length then .ok () o
  else .error (.packetTooLarge o.buffer.length
    ((o.connection.limits.maximumPacketSize.map (·.toNat)).getD 0)) o

/-- Hands the buffer to the stream. -/
def flush : Sender Unit := fun o =>
  match o.connection.fault with
  | some cause => .error (.io cause) o
  | none => .ok () { o with stream := o.stream ++ o.buffer }

/-- Sends a packet. -/
def send (p : Packet) : Sender Unit := do
  clear
  encode p
  check
  flush

/-! ### Sequences of calls -/

/-- What happens to a connection. -/
inductive Act where
  | send (p : Packet)
  /-- Bytes come in, the broker names its limits, an identifier is used up, the stream fails. -/
  | meanwhile (change : Connection → Connection)

/-- The packet that is to be sent. -/
def Act.packet? : Act → Option Packet
  | send p => some p
  | meanwhile _ => none

/-- A call of `send`. -/
structure Call where
  packet : Packet
  /-- The connection at that time, with the limits in force. -/
  connection : Connection
  result : Except SessionError Unit

/-- Whether the packet has been sent. -/
def Call.succeeded (call : Call) : Bool :=
  match call.result with
  | .ok _ => true
  | .error _ => false

/-- A packet is sent, or not. -/
def call (o : Outlet) (p : Packet) : Call × Outlet :=
  match send p o with
  | .ok _ o' => (⟨p, o.connection, .ok ()⟩, o')
  | .error e o' => (⟨p, o.connection, .error e⟩, o')

/-- The calls in a sequence of events, and what they leave. -/
def run (o : Outlet) : List Act → List Call × Outlet
  | [] => ([], o)
  | .send p :: acts =>
    let (call, o') := o.call p
    let (calls, o'') := o'.run acts
    (call :: calls, o'')
  | .meanwhile change :: acts => { o with connection := change o.connection }.run acts

end Outlet

end TopicBridge
