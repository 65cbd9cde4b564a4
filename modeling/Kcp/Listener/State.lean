import Mathlib.Data.Finset.Basic
import Kcp.Mpsc
import Kcp.Retain
import Kcp.Engine.Step

/-! The listener: the task that receives datagrams and cleans up, and `accept`. A step is
what one of the two does before the other can get in between, at most one use of the lock. -/

open Mpsc Retain kcp_core.protocol kcp_core.error kcp_core.engine kcp_tokio.error

namespace kcp_tokio.listener

/-- The capacity of the channel that feeds packets to a stream. -/
def INPUT_CHANNEL_CAPACITY : Nat := 256

structure IncomingConnection (A : Type) where
  peer_addr : A
  conv : ConvId
  client_conv : ConvId
  handshake_data : Bytes
  created_at : Nat
  conv_ne_zero : conv ≠ 0
  deriving DecidableEq

structure StreamHandle where
  input_tx : Channel Bytes

def StreamHandle.is_closed (self : StreamHandle) : Bool := !self.input_tx.receiver_open

structure ConnectionState (A : Type) where
  pending : AList fun _ : A => IncomingConnection A
  accepting : Finset A
  active : Finset A

/-- What the listener is started with. Times are in milliseconds. -/
structure Settings where
  config : config.KcpConfig
  connect_timeout : Nat
  max_pending_connections : Nat

def Settings.default : Settings where
  config := .default
  connect_timeout := 10000
  max_pending_connections := 256

/-- Where the task is. -/
inductive Listening (A : Type) where
  | select
  /-- The packet belongs to no active stream. -/
  | check (peer_addr : A) (data : Bytes)
  /-- The packet may open a connection. -/
  | insert (peer_addr : A) (data : Bytes) (client_conv : ConvId)
  /-- The connection is in `pending`. -/
  | enqueue (incoming : IncomingConnection A)
  /-- The queue has refused it. -/
  | withdraw (peer_addr : A)
  | remove_dead (dead_addrs : List A)
  | expire
  deriving DecidableEq

/-- Where `accept` is. -/
inductive Accepting (A : Type) where
  | recv
  | mark (incoming : IncomingConnection A)
  | create (incoming : IncomingConnection A)
  /-- The stream exists. -/
  | register (peer_addr : A) (stream : KcpEngine)
  | route (peer_addr : A) (stream : KcpEngine)
  | unmark (peer_addr : A) (result : Except KcpError KcpEngine)

structure KcpListener (A : Type) where
  settings : Settings
  conn_state : ConnectionState A
  active_streams : AList fun _ : A => StreamHandle
  connection_queue : Channel (IncomingConnection A)
  listening : Listening A
  accepting : Accepting A

/-- What the task reads: the next datagram, or nothing when it is time to clean up; the clock,
and a random number. -/
structure Arrival (A : Type) where
  datagram : Option (A × Bytes)
  now : Nat
  random_conv : { id : ConvId // id ≠ 0 }

/-- The clocks that the creation of a stream reads. -/
structure Readings where
  created : Timestamp
  input : Timestamp
  update : Timestamp
  updated : Clock
  flush : Clock

def Readings.at (t : Timestamp) : Readings where
  created := t
  input := t
  update := t
  updated := .at t
  flush := .at t

/-- The engine of a new stream, which has taken the first packet. -/
def new_server_stream (client_conv server_conv : ConvId) (config : config.KcpConfig) (initial_packet : Bytes)
    (r : Readings) : Except KcpError KcpEngine := do
  match config.validate with
  | .ok () =>
    let (engine, result) := (KcpEngine.new client_conv config.into r.created r.created).input r.input initial_packet
    result.mapError KcpError.from_core
    let (engine, result) :=
      (if client_conv = server_conv then engine else engine.set_conv server_conv).update r.update r.updated
    result.mapError KcpError.from_core
    let (engine, result) := engine.flush r.flush
    result.mapError KcpError.from_core
    return engine
  | .error (.Config message) => .error (.Config message)

/-- The engine of a new stream has been reached by calls from a fresh one, and has nothing to
send yet. -/
theorem new_server_stream_reached {client_conv server_conv : ConvId} {config : config.KcpConfig} {initial_packet : Bytes}
    {r : Readings} {stream : KcpEngine}
    (h : new_server_stream client_conv server_conv config initial_packet r = .ok stream) :
    ∃ start : Start, start.config.toKcpConfig = config ∧ start.conv = client_conv ∧
      ∃ ops, start.reached ops = stream ∧ ∀ op ∈ ops, op.NoSend := by
  unfold new_server_stream at h
  split at h
  · next hvalid =>
    refine ⟨{ conv := client_conv, config := { config with accepted := hvalid }, updated := r.created, active := r.created },
      rfl, rfl, ?_⟩
    simp only [bind, Except.bind] at h
    split at h
    · cases h
    split at h
    · cases h
    split at h
    · cases h
    have hstream := Except.ok.inj h
    by_cases hconv : client_conv = server_conv
    · rw [if_pos hconv] at hstream
      exact ⟨[.input r.input initial_packet, .update r.update r.updated, .flush r.flush], hstream, by simp [Op.NoSend]⟩
    · rw [if_neg hconv] at hstream
      exact ⟨[.input r.input initial_packet, .set_conv server_conv, .update r.update r.updated, .flush r.flush], hstream,
        by simp [Op.NoSend]⟩
  · cases h

namespace KcpListener

variable {A : Type} [DecidableEq A]

def new (A : Type) [DecidableEq A] (settings : Settings) : KcpListener A where
  settings
  conn_state := { pending := ∅, accepting := ∅, active := ∅ }
  active_streams := ∅
  connection_queue := .new (IncomingConnection A) settings.max_pending_connections
  listening := .select
  accepting := .recv

/-! ### The task -/

/-- A command that may open a connection. -/
def opens (cmd : U8) : Bool :=
  decide (cmd = constants.IKCP_CMD_PUSH ∨ cmd = constants.IKCP_CMD_ACK ∨ cmd = constants.IKCP_CMD_WASK ∨
    cmd = constants.IKCP_CMD_WINS)

/-- A packet for a stream goes to its channel, if that has room. -/
def receive (self : KcpListener A) (peer_addr : A) (data : Bytes) : KcpListener A :=
  match self.active_streams.lookup peer_addr with
  | some handle =>
    match handle.input_tx.try_send data with
    | .ok input_tx => { self with active_streams := self.active_streams.replace peer_addr { input_tx } }
    | .error _ => self
  | none => { self with listening := .check peer_addr data }

/-- The checks that a first packet has to pass, under one read lock. -/
def check (self : KcpListener A) (peer_addr : A) (data : Bytes) : Listening A :=
  if KcpHeader.SIZE ≤ data.length then
    match KcpHeader.decode data with
    | none => .select
    | some (header, _) =>
      if ¬ opens header.cmd then .select
      else if peer_addr ∈ self.conn_state.active then .select
      else if peer_addr ∈ self.conn_state.accepting then .select
      else if peer_addr ∈ self.conn_state.pending then .select
      else if self.settings.max_pending_connections ≤ self.conn_state.pending.entries.length then .select
      else .insert peer_addr data header.conv
  else .select

/-- The entry for a first packet. -/
def incoming (peer_addr : A) (data : Bytes) (client_conv : ConvId) (arrival : Arrival A) : IncomingConnection A :=
  if h : client_conv = 0 then
    { peer_addr, conv := arrival.random_conv, client_conv, handshake_data := data, created_at := arrival.now,
      conv_ne_zero := arrival.random_conv.2 }
  else
    { peer_addr, conv := client_conv, client_conv, handshake_data := data, created_at := arrival.now, conv_ne_zero := h }

def set_pending (self : KcpListener A) (pending : AList fun _ : A => IncomingConnection A) (listening : Listening A) :
    KcpListener A :=
  { self with conn_state := { self.conn_state with pending }, listening }

def enqueue (self : KcpListener A) (incoming : IncomingConnection A) : KcpListener A :=
  match self.connection_queue.try_send incoming with
  | .ok connection_queue => { self with connection_queue, listening := .select }
  | .error _ => { self with listening := .withdraw incoming.peer_addr }

/-- The streams whose task has exited. -/
def dead_addrs (self : KcpListener A) : List A :=
  (self.active_streams.entries.filter fun entry => entry.2.is_closed).map Sigma.fst

def cleanup_dead_streams (self : KcpListener A) (dead_addrs : List A) : KcpListener A :=
  { self with
    active_streams := dead_addrs.foldl (fun streams addr => streams.erase addr) self.active_streams
    conn_state := { self.conn_state with active := self.conn_state.active \ dead_addrs.toFinset }
    listening := .expire }

def cleanup_pending_connections (self : KcpListener A) (now : Nat) : KcpListener A :=
  self.set_pending (retain (fun _ conn => decide (now - conn.created_at < self.settings.connect_timeout)) self.conn_state.pending)
    .select

/-- One step of the task. -/
def listen (self : KcpListener A) (arrival : Arrival A) : KcpListener A :=
  match self.listening with
  | .select =>
    match arrival.datagram with
    | some (peer_addr, data) => self.receive peer_addr data
    | none =>
      { self with listening := if self.dead_addrs = [] then .expire else .remove_dead self.dead_addrs }
  | .check peer_addr data => { self with listening := self.check peer_addr data }
  | .insert peer_addr data client_conv =>
    let incoming := incoming peer_addr data client_conv arrival
    self.set_pending (self.conn_state.pending.insert peer_addr incoming) (.enqueue incoming)
  | .enqueue incoming => self.enqueue incoming
  | .withdraw peer_addr => self.set_pending (self.conn_state.pending.erase peer_addr) .select
  | .remove_dead dead_addrs => self.cleanup_dead_streams dead_addrs
  | .expire => self.cleanup_pending_connections arrival.now

/-! ### Accepting -/

/-- One step of `accept`, which is called again when it has returned. -/
def accept (self : KcpListener A) (r : Readings) : KcpListener A :=
  match self.accepting with
  | .recv =>
    match self.connection_queue.poll_recv with
    | (connection_queue, .ready (some incoming)) => { self with connection_queue, accepting := .mark incoming }
    | _ => self
  | .mark incoming =>
    if incoming.peer_addr ∈ self.conn_state.active then { self with accepting := .recv }
    else
      { self with
        conn_state := { self.conn_state with accepting := insert incoming.peer_addr self.conn_state.accepting }
        accepting := .create incoming }
  | .create incoming =>
    match new_server_stream incoming.client_conv incoming.conv self.settings.config incoming.handshake_data r with
    | .ok stream => { self with accepting := .register incoming.peer_addr stream }
    | .error e => { self with accepting := .unmark incoming.peer_addr (.error e) }
  | .register peer_addr stream =>
    { self with
      conn_state := { self.conn_state with
        pending := self.conn_state.pending.erase peer_addr
        active := insert peer_addr self.conn_state.active }
      accepting := .route peer_addr stream }
  | .route peer_addr stream =>
    { self with
      active_streams := self.active_streams.insert peer_addr { input_tx := .new Bytes INPUT_CHANNEL_CAPACITY }
      accepting := .unmark peer_addr (.ok stream) }
  | .unmark peer_addr _ =>
    { self with
      conn_state := { self.conn_state with accepting := self.conn_state.accepting.erase peer_addr }
      accepting := .recv }

/-- The task of a stream takes packets from its channel. -/
def taken (self : KcpListener A) (peer_addr : A) (n : Nat) : KcpListener A :=
  match self.active_streams.lookup peer_addr with
  | some handle =>
    { self with active_streams := self.active_streams.replace peer_addr { input_tx := handle.input_tx.take n } }
  | none => self

/-- The task of a stream exits. -/
def exited (self : KcpListener A) (peer_addr : A) : KcpListener A :=
  match self.active_streams.lookup peer_addr with
  | some handle =>
    { self with active_streams := self.active_streams.replace peer_addr { input_tx := handle.input_tx.drop_receiver } }
  | none => self

end KcpListener

/-- A step of the task, of `accept` or of the task of a stream. The future of `accept` may also
be dropped. -/
inductive Event (A : Type) where
  | listen (arrival : Arrival A)
  | accept (r : Readings)
  | dropped
  | taken (peer_addr : A) (n : Nat)
  | exited (peer_addr : A)

namespace KcpListener

variable {A : Type} [DecidableEq A]

def step (self : KcpListener A) : Event A → KcpListener A
  | .listen arrival => self.listen arrival
  | .accept r => self.accept r
  | .dropped => { self with accepting := .recv }
  | .taken peer_addr n => self.taken peer_addr n
  | .exited peer_addr => self.exited peer_addr

end KcpListener

end kcp_tokio.listener
