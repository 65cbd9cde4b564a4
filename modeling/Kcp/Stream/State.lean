import Kcp.Mpsc
import Kcp.Config

open Mpsc kcp_core.protocol

namespace kcp_tokio.stream

def SEND_CHANNEL_CAPACITY : Nat := 16

/-- The capacity of the channel in which the actor forwards messages. -/
def DATA_CHANNEL_CAPACITY : Nat := 256

/-- The errors the stream builds, with their texts. -/
inductive IoError where
  | BrokenPipe (message : String)
  | Other (message : String)
  deriving DecidableEq, Repr

/-- The future of a write that found the channel full. It owns a copy of the data and the
number of bytes to report. -/
structure PendingWrite where
  data : Bytes
  len : Nat
  whole : len = data.length

structure KcpStream where
  send_tx : Channel Bytes
  data_rx : Channel Bytes
  mss : Nat
  read_buf : Bytes
  pending_write : Option PendingWrite
  /-- A shutdown has begun and waits for the actor. -/
  pending_shutdown : Bool
  closed : Bool

namespace KcpStream

/-- A new stream. `saturating_sub` stops at zero. -/
def new (config : config.KcpConfig) : KcpStream where
  send_tx := .new Bytes SEND_CHANNEL_CAPACITY
  data_rx := .new Bytes DATA_CHANNEL_CAPACITY
  mss := max (config.mtu.toNat - constants.IKCP_OVERHEAD.toNat) 1
  read_buf := []
  pending_write := none
  pending_shutdown := false
  closed := false

/-- Copy what fits of the buffered data. -/
def read_buffered (self : KcpStream) (remaining : Nat) : KcpStream × Poll Bytes :=
  let to_copy := min remaining self.read_buf.length
  ({ self with read_buf := self.read_buf.drop to_copy }, .ready (self.read_buf.take to_copy))

/-- The bytes put into a buffer that has room for `remaining`; none of them means the end
of the data. The task may have `spent` its budget, and is then asked to come back. -/
def poll_read (self : KcpStream) (remaining : Nat) (spent : Bool) : KcpStream × Poll Bytes :=
  if self.read_buf ≠ [] then self.read_buffered remaining
  else if self.closed then (self, .ready [])
  else if spent then (self, .pending)
  else
    match self.data_rx.poll_recv with
    | (data_rx, .ready (some data)) => { self with data_rx, read_buf := self.read_buf ++ data }.read_buffered remaining
    | (_, .ready none) => (self, .ready [])
    | (_, .pending) => (self, .pending)

/-- Poll the future of a write. -/
def poll_pending_write (self : KcpStream) (write : PendingWrite) (spent : Bool) :
    KcpStream × Poll (Except IoError Nat) :=
  if spent then ({ self with pending_write := some write }, .pending)
  else
    match self.send_tx.try_send write.data with
    | .ok send_tx => ({ self with send_tx, pending_write := none }, .ready (.ok write.len))
    | .error .closed => ({ self with pending_write := none }, .ready (.error (.Other "channel closed")))
    | .error .full => ({ self with pending_write := some write }, .pending)

/-- What the actor does between a failed `try_send` and the poll of the future that it
leaves: it takes some messages, or exits. -/
def meanwhile (send_tx : Channel Bytes) : Option Nat → Channel Bytes
  | some taken => send_tx.take taken
  | none => send_tx.drop_receiver

def poll_write (self : KcpStream) (buf : Bytes) (taken : Option Nat) (spent : Bool) :
    KcpStream × Poll (Except IoError Nat) :=
  if self.closed then (self, .ready (.error (.BrokenPipe "Stream is closed")))
  else
    match self.pending_write with
    | some write => self.poll_pending_write write spent
    | none =>
      let data := buf.take (min buf.length self.mss)
      match self.send_tx.try_send data with
      | .ok send_tx => ({ self with send_tx }, .ready (.ok (min buf.length self.mss)))
      | .error .closed => (self, .ready (.error (.BrokenPipe "connection closed")))
      | .error .full =>
        { self with send_tx := meanwhile self.send_tx taken }.poll_pending_write
          { data, len := min buf.length self.mss, whole := by simp [data] } spent

/-- Wait for the actor to finish. -/
def poll_shutdown (self : KcpStream) (finished : Bool) : KcpStream × Poll (Except IoError Unit) :=
  if self.closed then (self, .ready (.ok ()))
  else if finished then ({ self with pending_shutdown := false, closed := true }, .ready (.ok ()))
  else ({ self with pending_shutdown := true }, .pending)

def close (self : KcpStream) : KcpStream := if self.closed then self else { self with closed := true }

/-- A shutdown changes only whether it waits and whether the stream is closed. -/
theorem poll_shutdown_shape (self : KcpStream) (finished : Bool) : ∃ pending_shutdown closed,
    (self.poll_shutdown finished).1 = { self with pending_shutdown, closed } ∧ (self.closed = true → closed = true) := by
  unfold poll_shutdown
  split_ifs with hclosed
  · exact ⟨_, _, rfl, id⟩
  · exact ⟨_, _, rfl, fun _ => rfl⟩
  · exact ⟨_, _, rfl, fun h => absurd h hclosed⟩

/-- To close touches one flag. -/
theorem close_shape (self : KcpStream) : self.close = { self with closed := true } := by
  unfold close
  split_ifs with hclosed
  · rw [← hclosed]
  · rfl

theorem poll_shutdown_data_rx (self : KcpStream) (finished : Bool) : (self.poll_shutdown finished).1.data_rx = self.data_rx := by
  obtain ⟨_, _, heq, _⟩ := self.poll_shutdown_shape finished
  rw [heq]

theorem close_data_rx (self : KcpStream) : self.close.data_rx = self.data_rx := by rw [close_shape]

end KcpStream

/-- What happens to a stream: the calls of its owner, and what the actor does at the other
ends of the two channels. -/
inductive Event where
  | poll_read (remaining : Nat) (spent : Bool)
  | poll_write (buf : Bytes) (taken : Option Nat) (spent : Bool)
  | poll_shutdown (finished : Bool)
  | close
  | taken
  | placed (message : Bytes)
  | exited

namespace KcpStream

/-- The actor forwards a message if it can reserve a slot. -/
def place (self : KcpStream) (message : Bytes) : KcpStream :=
  match self.data_rx.try_send message with
  | .ok data_rx => { self with data_rx }
  | .error _ => self

def step (self : KcpStream) : Event → KcpStream
  | .poll_read remaining spent => (self.poll_read remaining spent).1
  | .poll_write buf taken spent => (self.poll_write buf taken spent).1
  | .poll_shutdown finished => (self.poll_shutdown finished).1
  | .close => self.close
  | .taken => { self with send_tx := self.send_tx.take 1 }
  | .placed message => self.place message
  | .exited => { self with send_tx := self.send_tx.drop_receiver, data_rx := self.data_rx.drop_sender }

end KcpStream

end kcp_tokio.stream
