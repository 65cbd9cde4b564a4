import Kcp.Pipe
import Kcp.Listener.State
import Kcp.System.Host

/-! A client, the server that it reaches, and the network between them. As between two engines,
the network keeps every datagram and hands over any of them at any time. -/

open Mpsc kcp_core.protocol kcp_core.config kcp_core.error kcp_core.engine kcp_core.network
open kcp_tokio.stream kcp_tokio.actor kcp_tokio.connection kcp_tokio.listener

namespace kcp_tokio.system

/-- What a listener that serves no other peer makes of a packet: the entry of a connection, if
the packet opens one. -/
def first_packet (settings : listener.Settings) (packet : Bytes) (arrival : Arrival Unit) : Option (IncomingConnection Unit) :=
  match (KcpListener.new Unit settings).check () packet with
  | .insert peer_addr data client_conv => some (KcpListener.incoming peer_addr data client_conv arrival)
  | _ => none

structure System where
  /-- Those of the listener. -/
  settings : listener.Settings
  client : Host
  /-- The stream that `accept` has made. -/
  server : Option Host

/-- A call of an owner or a step of a task, on either side; or `accept`, at a packet from the
client. -/
inductive Event where
  | client (event : connection.Event)
  | server (event : connection.Event)
  | accept (packet : Bytes) (arrival : Arrival Unit) (r : listener.Readings) (boot : Boot)

namespace System

/-- The client has its stream, and the listener waits. -/
def new (start : Start) (settings : listener.Settings) (boot : Boot) : System where
  settings
  client := .launch start.config.toKcpConfig start.fresh boot
  server := none

/-- The datagrams on their way to the client. -/
def returning (self : System) : List Bytes := (self.server.map Host.wire).getD []

/-- Packets come from the other side, and one stream is made. -/
def Possible (self : System) : Event → Prop
  | .client event => ∀ data ∈ Connection.arriving event, data ∈ self.returning
  | .server event => ∀ data ∈ Connection.arriving event, data ∈ self.client.wire
  | .accept packet _ _ _ => self.server.isNone ∧ packet ∈ self.client.wire

instance decidablePossible (self : System) : (event : Event) → Decidable (self.Possible event)
  | .client event => inferInstanceAs (Decidable (∀ data ∈ Connection.arriving event, data ∈ self.returning))
  | .server event => inferInstanceAs (Decidable (∀ data ∈ Connection.arriving event, data ∈ self.client.wire))
  | .accept packet _ _ _ => inferInstanceAs (Decidable (self.server.isNone ∧ packet ∈ self.client.wire))

def accept (self : System) (packet : Bytes) (arrival : Arrival Unit) (r : listener.Readings) (boot : Boot) : System :=
  match first_packet self.settings packet arrival with
  | some incoming =>
    match new_server_stream incoming.client_conv incoming.conv self.settings.config incoming.handshake_data r with
    | .ok engine => { self with server := some (.launch self.settings.config engine boot) }
    | .error _ => self
  | none => self

def step (self : System) (event : Event) : System :=
  if ¬ self.Possible event then self
  else
    match event with
    | .client event => { self with client := self.client.step event }
    | .server event => { self with server := self.server.map fun host => host.step event }
    | .accept packet arrival r boot => self.accept packet arrival r boot

/-! ### What the owners of the streams see -/

/-- What is written at the client and read at the server. -/
def there (self : System) : Event → List (Pipe.Action U8)
  | .client event => (self.client.connection.written event).map .put
  | .server event => ((self.server.map fun host => host.connection.returned event).getD []).map .get
  | .accept .. => []

/-- What is written at the server and read at the client. -/
def back (self : System) : Event → List (Pipe.Action U8)
  | .server event => ((self.server.map fun host => host.connection.written event).getD []).map .put
  | .client event => (self.client.connection.returned event).map .get
  | .accept .. => []

/-- The owners go on with the writes that they have begun, no `recv` overtakes what a read has
left, and no read falls between two reservations of one turn. -/
def Orderly (self : System) : Event → Prop
  | .client event =>
    self.client.connection.Continues event ∧ self.client.connection.InTurn event ∧ Connection.Apart event
  | .server event =>
    (∀ host ∈ self.server, host.connection.Continues event ∧ host.connection.InTurn event) ∧ Connection.Apart event
  | .accept _ _ _ boot => boot.Apart

end System

end kcp_tokio.system
