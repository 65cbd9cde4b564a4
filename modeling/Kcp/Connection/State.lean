import Kcp.Stream.Send
import Kcp.Stream.Recv
import Kcp.Actor.State

/-! A stream together with the task that drives its engine. The steps of the task are as
small as what the writer can get in between: one look at a channel, or one message taken. -/

open Mpsc kcp_core.protocol kcp_core.error kcp_core.engine kcp_tokio.error kcp_tokio.stream kcp_tokio.actor

namespace kcp_tokio.connection

def CMD_CHANNEL_CAPACITY : Nat := 64

/-- The future of a flush. -/
structure PendingFlush where
  /-- The command has been placed in the channel. -/
  requested : Bool
  reply : Option (KcpCoreResult Unit)
  /-- The writes reported before the flush was started. The code keeps no record of them. -/
  before : List Bytes

/-- The future of a shutdown, or of `close`. -/
structure PendingClose where
  /-- The command has been placed in the channel, or the channel has been found closed. -/
  requested : Bool
  /-- It has the handle of the task, and waits for it. -/
  joins : Bool

/-- What the task looks at next: a branch of its `select`, which tries them in this order, or
the loop of the last branch. -/
inductive Phase where
  | timer
  | command
  | input
  | send
  | absorb
  deriving DecidableEq, Repr

structure Connection where
  stream : KcpStream
  /-- The limit that `send` checks. -/
  max_msg : Nat
  /-- The stream has the handle of its task. -/
  actor_task : Bool
  cmd_tx : Channel EngineCmd
  pending_flush : Option PendingFlush
  pending_shutdown : Option PendingClose
  /-- The future of `close`, as long as its caller keeps it. -/
  pending_close : Option PendingClose
  actor : Actor
  phase : Phase
  /-- The data passed to `send` of the engine. The code keeps no record of it. -/
  passed : List Bytes
  one_channel : stream.data_rx = actor.data_tx

namespace Connection

def new (config : config.KcpConfig) (actor : Actor) : Connection where
  stream := { KcpStream.new config with data_rx := actor.data_tx }
  max_msg := (MessageStream.new config).max_msg
  actor_task := true
  cmd_tx := .new EngineCmd CMD_CHANNEL_CAPACITY
  pending_flush := none
  pending_shutdown := none
  pending_close := none
  actor
  phase := .timer
  passed := []
  one_channel := rfl

/-! ### The calls of the owner -/

/-- A call during which the task takes steps is two calls here. The first of them parks the
data, and the second polls the future. -/
def poll_write (self : Connection) (buf : Bytes) (spent : Bool) : Connection × Poll (Except IoError Nat) :=
  ({ self with
      stream := (self.stream.poll_write buf (some 0) spent).1
      one_channel := (self.stream.poll_write_data_rx buf (some 0) spent).1.trans self.one_channel },
    (self.stream.poll_write buf (some 0) spent).2)

def send (self : Connection) (data : Bytes) (spent : Bool) : Connection × Poll (Except KcpError Unit) :=
  let stream : MessageStream := { self.stream with max_msg := self.max_msg }
  ({ self with
      stream := (stream.send data spent).1.toKcpStream
      one_channel := (stream.send_data_rx data spent).trans self.one_channel },
    (stream.send data spent).2)

def poll_read (self : Connection) (remaining : Nat) (spent : Bool) : Connection × Poll Bytes :=
  let (stream, result) := self.stream.poll_read remaining spent
  ({ self with stream, actor := { self.actor with data_tx := stream.data_rx }, one_channel := rfl }, result)

def recv (self : Connection) (spent : Bool) : Connection × Poll (Option Bytes) :=
  let (stream, result) := self.stream.recv spent
  ({ self with stream, actor := { self.actor with data_tx := stream.data_rx }, one_channel := rfl }, result)

/-- Wait for the reply. It never comes once the task has dropped the command. -/
def poll_reply (self : Connection) (flush : PendingFlush) (spent : Bool) : Connection × Poll (Except IoError Unit) :=
  if spent then ({ self with pending_flush := some flush }, .pending)
  else
    match flush.reply with
    | some result =>
      ({ self with pending_flush := none }, .ready (result.mapError fun e => .Other (KcpError.from_core e).to_string))
    | none =>
      if self.cmd_tx.receiver_open then ({ self with pending_flush := some flush }, .pending)
      else ({ self with pending_flush := none }, .ready (.error (.Other (KcpError.Connection .Closed).to_string)))

/-- Poll the future of a flush: it waits for room in the channel, then for the reply. -/
def poll_pending_flush (self : Connection) (flush : PendingFlush) (spent_send spent_reply : Bool) :
    Connection × Poll (Except IoError Unit) :=
  if flush.requested then self.poll_reply flush spent_reply
  else if spent_send then ({ self with pending_flush := some flush }, .pending)
  else
    match self.cmd_tx.try_send .Flush with
    | .ok cmd_tx => { self with cmd_tx }.poll_reply { flush with requested := true } spent_reply
    | .error .closed =>
      ({ self with pending_flush := none }, .ready (.error (.Other (KcpError.Connection .Closed).to_string)))
    | .error .full => ({ self with pending_flush := some flush }, .pending)

def poll_flush (self : Connection) (spent_send spent_reply : Bool) : Connection × Poll (Except IoError Unit) :=
  if self.stream.closed then (self, .ready (.ok ()))
  else
    match self.pending_flush with
    | some flush => self.poll_pending_flush flush spent_send spent_reply
    | none =>
      self.poll_pending_flush { requested := false, reply := none, before := self.stream.send_tx.sent } spent_send spent_reply

/-- Wait for the task to finish, if the future has its handle: `close` for so long that its timer
has `elapsed`. -/
def poll_task (self : Connection) (closing : PendingClose) (spent elapsed : Bool) : Option PendingClose :=
  if closing.joins = true ∧ ¬ (spent = false ∧ self.actor.exited.isSome ∨ elapsed = true) then some closing else none

/-- Poll the future of a shutdown: it waits for room in the channel, and no longer for that once
the channel is closed, then for the task. It leaves no future when it is ready. -/
def poll_pending_close (self : Connection) (closing : PendingClose) (spent_send spent_task elapsed : Bool) :
    Connection × Option PendingClose :=
  if closing.requested then (self, self.poll_task closing spent_task elapsed)
  else if spent_send then (self, some closing)
  else
    match self.cmd_tx.try_send .Close with
    | .ok cmd_tx => ({ self with cmd_tx }, self.poll_task { closing with requested := true } spent_task elapsed)
    | .error .closed => (self, self.poll_task { closing with requested := true } spent_task elapsed)
    | .error .full => (self, some closing)

/-- The future of a shutdown takes the handle of the task when it is made. -/
def poll_shutdown (self : Connection) (spent_send spent_task : Bool) : Connection × Poll (Except IoError Unit) :=
  if self.stream.closed then (self, .ready (.ok ()))
  else
    let closing := self.pending_shutdown.getD { requested := false, joins := self.actor_task }
    let (self, pending_shutdown) := self.poll_pending_close closing spent_send spent_task false
    ({ self with
        stream := (self.stream.poll_shutdown pending_shutdown.isNone).1
        actor_task := false
        pending_shutdown
        one_channel := (self.stream.poll_shutdown_data_rx pending_shutdown.isNone).trans self.one_channel },
      (self.stream.poll_shutdown pending_shutdown.isNone).2)

def poll_close (self : Connection) (closing : PendingClose) (spent_send spent_task elapsed : Bool) :
    Connection × Poll (Except KcpError Unit) :=
  let (self, pending_close) := self.poll_pending_close closing spent_send spent_task elapsed
  ({ self with pending_close }, if pending_close.isNone then .ready (.ok ()) else .pending)

/-- `close`, or a further poll of its future. It closes the stream before anything else. What it
does to the tasks at its end is not modelled: a client receives no more packets. -/
def close (self : Connection) (spent_send spent_task elapsed : Bool) : Connection × Poll (Except KcpError Unit) :=
  match self.pending_close with
  | some closing => self.poll_close closing spent_send spent_task elapsed
  | none =>
    if self.stream.closed then (self, .ready (.ok ()))
    else
      { self with
        stream := self.stream.close
        one_channel := self.stream.close_data_rx.trans self.one_channel }.poll_close
        { requested := false, joins := self.actor_task } spent_send spent_task elapsed

/-- The future of `close` is dropped, wherever it is. -/
def drop_close (self : Connection) : Connection := { self with pending_close := none }

/-- Any other command, for which nobody waits here. -/
def request (self : Connection) (cmd : EngineCmd) : Connection :=
  if cmd = .Flush then self
  else
    match self.cmd_tx.try_send cmd with
    | .ok cmd_tx => { self with cmd_tx }
    | .error _ => self

/-! ### The task -/

/-- What the task finds: whether its timer has fired, the packet that waits or the end of the
input, and the clocks. -/
structure Finds where
  fired : Bool
  packet : Option (Option Bytes)
  clk : Nat → Clock
  readings : Readings

/-- The task is done with a branch. If that ends it, its receivers are dropped. -/
def drive (self : Connection) (actor : Actor) : Connection :=
  { self with
    actor
    phase := .timer
    stream := { self.stream with
      data_rx := actor.data_tx
      send_tx := if actor.exited.isSome then self.stream.send_tx.drop_receiver else self.stream.send_tx }
    cmd_tx := if actor.exited.isSome then self.cmd_tx.drop_receiver else self.cmd_tx
    one_channel := rfl }

/-- Pass a message that has been taken. -/
def pass (self : Connection) (clk : Clock) (data : Bytes) : Connection :=
  { self with
    stream := { self.stream with send_tx := self.stream.send_tx.take 1 }
    actor := { self.actor with engine := (self.actor.engine.send clk data).1 }
    phase := .absorb
    passed := self.passed ++ [data]
    one_channel := self.one_channel }

/-- The messages in the send channel. -/
def waiting (self : Connection) (clk : Nat → Clock) : List (Clock × Bytes) :=
  self.stream.send_tx.queue.mapIdx fun i data => (clk i, data)

def take_all (self : Connection) : Connection :=
  { self with
    stream := { self.stream with send_tx := self.stream.send_tx.take self.stream.send_tx.queue.length }
    passed := self.passed ++ self.stream.send_tx.queue
    one_channel := self.one_channel }

/-- Answer the flush that is waited for. Its future sends at most one command. -/
def reply (self : Connection) (result : KcpCoreResult Unit) : Connection :=
  { self with pending_flush := self.pending_flush.map fun flush => { flush with reply := some result } }

def on_command (self : Connection) (cmd : EngineCmd) (finds : Finds) : Connection :=
  let self := { self with cmd_tx := self.cmd_tx.take 1 }
  match cmd with
  | .Flush =>
    (self.reply (self.actor.engine.flush finds.readings.flush).2).drive
      (self.actor.step (.command (some .Flush) [] finds.readings))
  | .Stats => self.drive (self.actor.step (.command (some .Stats) [] finds.readings))
  | .IsAlive => self.drive (self.actor.step (.command (some .IsAlive) [] finds.readings))
  | .Close =>
    self.take_all.drive (self.actor.step (.command (some .Close) (self.waiting finds.clk) finds.readings))

/-- The rest of the last branch, after its loop. -/
def flush_writes (self : Connection) (r : Readings) : Connection :=
  let (engine, result) := self.actor.engine.flush r.flush
  let actor := { self.actor with engine }
  if fatal result then self.drive (actor.exit .flush_send)
  else self.drive ({ actor with engine := flush_output engine }.finish_closing r)

/-- One step of the task. -/
def advance (self : Connection) (finds : Finds) : Connection :=
  if self.actor.exited.isSome then self
  else
    match self.phase with
    | .timer =>
      if finds.fired then self.drive (self.actor.step (.timer finds.readings)) else { self with phase := .command }
    | .command =>
      match self.cmd_tx.queue with
      | cmd :: _ => if self.actor.closing then { self with phase := .input } else self.on_command cmd finds
      | [] => { self with phase := .input }
    | .input =>
      match finds.packet with
      | some packet => self.drive (self.actor.step (.packet packet finds.readings))
      | none => { self with phase := .send }
    | .send =>
      match self.stream.send_tx.queue with
      | data :: _ =>
        if self.actor.send_closed = false ∧ self.actor.engine.send_queue_len < self.actor.settings.send_high_water then
          self.pass (finds.clk 0) data
        else { self with phase := .timer }
      | [] => { self with phase := .timer }
    | .absorb =>
      match self.stream.send_tx.queue with
      | data :: _ =>
        if self.actor.engine.send_queue_len < self.actor.settings.send_high_water then self.pass (finds.clk 0) data
        else self.flush_writes finds.readings
      | [] => self.flush_writes finds.readings

end Connection

/-- A call of the owner, or a step of the task. -/
inductive Event where
  | poll_write (buf : Bytes) (spent : Bool)
  | send (data : Bytes) (spent : Bool)
  | poll_flush (spent_send spent_reply : Bool)
  | poll_read (remaining : Nat) (spent : Bool)
  | recv (spent : Bool)
  | poll_shutdown (spent_send spent_task : Bool)
  | close (spent_send spent_task elapsed : Bool)
  | drop_close
  | request (cmd : EngineCmd)
  | advance (finds : Connection.Finds)

namespace Connection

def step (self : Connection) : Event → Connection
  | .poll_write buf spent => (self.poll_write buf spent).1
  | .poll_flush spent_send spent_reply => (self.poll_flush spent_send spent_reply).1
  | .send data spent => (self.send data spent).1
  | .poll_read remaining spent => (self.poll_read remaining spent).1
  | .recv spent => (self.recv spent).1
  | .poll_shutdown spent_send spent_task => (self.poll_shutdown spent_send spent_task).1
  | .close spent_send spent_task elapsed => (self.close spent_send spent_task elapsed).1
  | .drop_close => self.drop_close
  | .request cmd => self.request cmd
  | .advance finds => self.advance finds

end Connection

end kcp_tokio.connection
