import Kcp.Mpsc
import Kcp.Engine.Step

/-! The task that owns an engine. Each turn of its loop takes one branch of a `select`, and
any branch that is enabled may be the next one. -/

open Mpsc kcp_core.protocol kcp_core.error kcp_core.engine

namespace kcp_tokio.actor

inductive EngineCmd where
  | Flush
  | Stats
  | IsAlive
  | Close
  deriving DecidableEq, Repr

inductive Reply where
  | flush (result : KcpCoreResult Unit)
  | stats (stats : KcpStats)
  | is_alive (alive : Bool)

/-- The ways out of the loop. -/
inductive Exit where
  | flush_timer
  | peer_silent
  | keep_alive_probe
  | flush_input
  | input_closed
  | flush_send
  | drained
  deriving DecidableEq, Repr

/-- What the task is started with, beside the engine and its channels. -/
structure Settings where
  update_interval_ms : Nat
  keep_alive_ms : Option Nat
  send_high_water : Nat

def send_high_water (config : config.KcpConfig) : Nat := max (config.snd_wnd.toNat * 4) 64

def Settings.new (config : config.KcpConfig) (keep_alive_ms : Option Nat) : Settings where
  update_interval_ms := config.nodelay.interval.toNat
  keep_alive_ms
  send_high_water := actor.send_high_water config

/-- The longest sleep. -/
def Settings.idle_cap_ms (self : Settings) : Nat := max (self.keep_alive_ms.getD 1000) (max self.update_interval_ms 1)

structure Actor where
  settings : Settings
  engine : KcpEngine
  data_tx : Channel Bytes
  replies : List Reply
  last_probe : Nat
  send_closed : Bool
  closing : Bool
  close_deadline : Option Nat
  exited : Option Exit

/-- What a turn of the loop reads: the clock of the engine at each call of it, the clock of the
runtime in milliseconds, and how many messages the reader of the data channel takes before
each slot is reserved. -/
structure Readings where
  input : Timestamp
  flush : Clock
  silent : Timestamp
  idle : Timestamp
  elapsed : Nat
  probed : Nat
  probe : Clock
  linger : Nat
  closing : Nat
  last : Clock
  pace : Nat → Nat

/-- A turn within one millisecond, with a reader that takes nothing. -/
def Readings.at (t : Timestamp) : Readings where
  input := t
  flush := .at t
  silent := t
  idle := t
  elapsed := t.toNat
  probed := t.toNat
  probe := .at t
  linger := t.toNat
  closing := t.toNat
  last := .at t
  pace := fun _ => 0

def fatal : KcpCoreResult Unit → Bool
  | .ok () => false
  | .error e => e.is_fatal

/-- The datagrams go to the transport. -/
def flush_output (engine : KcpEngine) : KcpEngine := engine.drain_output.1

@[simp] theorem has_unsent_data_flush_output (engine : KcpEngine) :
    (flush_output engine).has_unsent_data = engine.has_unsent_data := rfl

/-- A message leaves the engine for each slot that can be reserved. -/
def drain_recv_loop (pace : Nat → Nat) : Nat → Nat → KcpEngine → Channel Bytes → KcpEngine × Channel Bytes
  | 0, _, engine, data_tx => (engine, data_tx)
  | fuel + 1, i, engine, data_tx =>
    let data_tx := data_tx.take (pace i)
    match data_tx.try_reserve with
    | .error _ => (engine, data_tx)
    | .ok send =>
      match engine.recv with
      | (engine, .ok (some msg)) => drain_recv_loop pace fuel (i + 1) engine (send msg)
      | (engine, _) => (engine, data_tx)

/-- A message takes a segment at least, so the fuel never runs out. -/
def drain_recv (pace : Nat → Nat) (engine : KcpEngine) (data_tx : Channel Bytes) : KcpEngine × Channel Bytes :=
  drain_recv_loop pace (engine.rcv_queue.length + engine.rcv_buf.entries.length + 1) 0 engine data_tx

/-- `send` everything that waits, while the queue of the engine is short enough. -/
def absorb (high_water : Nat) (engine : KcpEngine) : List (Clock × Bytes) → KcpEngine
  | [] => engine
  | (clk, data) :: more =>
    if engine.send_queue_len < high_water then absorb high_water (engine.send clk data).1 more else engine

namespace Actor

/-- The start of the task, up to the loop. -/
def start (settings : Settings) (engine : KcpEngine) (data_tx : Channel Bytes) (last_probe : Nat) (now : Timestamp)
    (clk : Clock) (pace : Nat → Nat) : Actor :=
  let engine := flush_output (engine.update now clk).1
  let (engine, data_tx) := drain_recv pace engine data_tx
  { settings
    engine
    data_tx
    replies := []
    last_probe
    send_closed := false
    closing := false
    close_deadline := none
    exited := none }

/-- The sleep at the head of the loop. -/
def wait (self : Actor) (now : Timestamp) : Nat := min (max (self.engine.check now).toNat 1) self.settings.idle_cap_ms

def exit (self : Actor) (exit : Exit) : Actor := { self with exited := some exit, data_tx := self.data_tx.drop_sender }

def forward (self : Actor) (r : Readings) : Actor :=
  let (engine, data_tx) := drain_recv r.pace (flush_output self.engine) self.data_tx
  { self with engine, data_tx }

def keep_alive (self : Actor) (r : Readings) : Actor :=
  match self.settings.keep_alive_ms with
  | none => self
  | some ka =>
    if ka * 3 ≤ (self.engine.idle_ms r.silent).toNat then self.exit .peer_silent
    else if ka ≤ (self.engine.idle_ms r.idle).toNat ∧ ka ≤ r.elapsed - self.last_probe then
      let (engine, result) := self.engine.keep_alive_probe r.probe
      let self := { self with engine, last_probe := r.probed }
      if fatal result then self.exit .keep_alive_probe else self
    else self

def on_timer (self : Actor) (r : Readings) : Actor :=
  let (engine, result) := self.engine.flush r.flush
  let self := { self with engine }
  if fatal result then self.exit .flush_timer
  else
    let self := self.keep_alive r
    if self.exited.isSome then self else self.forward r

/-- A command, or the end of the command channel. `buffered` are the writes not taken yet. -/
def on_command (self : Actor) (cmd : Option EngineCmd) (buffered : List (Clock × Bytes)) (r : Readings) : Actor :=
  match cmd with
  | some .Flush =>
    let (engine, result) := self.engine.flush r.flush
    { self with engine := flush_output engine, replies := self.replies ++ [.flush result] }
  | some .Stats => { self with replies := self.replies ++ [.stats self.engine.stats] }
  | some .IsAlive => { self with replies := self.replies ++ [.is_alive (!self.engine.is_dead)] }
  | some .Close | none =>
    let engine := buffered.foldl (fun engine write => (engine.send write.1 write.2).1) self.engine
    { self with
      engine := flush_output (engine.flush r.flush).1
      send_closed := true
      closing := true
      close_deadline := some (r.linger + 10000) }

/-- A packet, or the end of the input channel. -/
def on_packet (self : Actor) (packet : Option Bytes) (r : Readings) : Actor :=
  match packet with
  | none => self.exit .input_closed
  | some data =>
    let (engine, result) := (self.engine.input r.input data).1.flush r.flush
    let self := { self with engine }
    if fatal result then self.exit .flush_input else self.forward r

/-- A write, or the end of the send channel. `more` are the writes waiting behind it. -/
def on_write (self : Actor) (data : Option (Clock × Bytes)) (more : List (Clock × Bytes)) (r : Readings) : Actor :=
  match data with
  | none => { self with send_closed := true }
  | some (clk, data) =>
    let engine := absorb self.settings.send_high_water (self.engine.send clk data).1 more
    let (engine, result) := engine.flush r.flush
    let self := { self with engine }
    if fatal result then self.exit .flush_send else { self with engine := flush_output self.engine }

/-- The end of a turn: leave once everything is acknowledged, or at the deadline. -/
def finish_closing (self : Actor) (r : Readings) : Actor :=
  if self.closing ∧ (self.engine.has_unsent_data = false ∨ ∃ deadline ∈ self.close_deadline, deadline ≤ r.closing) then
    { self with engine := flush_output (self.engine.flush r.last).1 }.exit .drained
  else self

end Actor

/-- A turn of the loop, or something the reader of the data channel does. -/
inductive Event where
  | timer (r : Readings)
  | command (cmd : Option EngineCmd) (buffered : List (Clock × Bytes)) (r : Readings)
  | packet (packet : Option Bytes) (r : Readings)
  | write (data : Option (Clock × Bytes)) (more : List (Clock × Bytes)) (r : Readings)
  | read (n : Nat)
  | release

namespace Actor

/-- The condition of the branch. -/
def Enabled (self : Actor) : Event → Prop
  | .command .. => self.closing = false
  | .write .. => self.send_closed = false ∧ self.engine.send_queue_len < self.settings.send_high_water
  | _ => True

instance decidableEnabled (self : Actor) : (event : Event) → Decidable (self.Enabled event)
  | .timer _ => inferInstanceAs (Decidable True)
  | .command .. => inferInstanceAs (Decidable (self.closing = false))
  | .packet .. => inferInstanceAs (Decidable True)
  | .write .. => inferInstanceAs (Decidable (_ ∧ _))
  | .read _ => inferInstanceAs (Decidable True)
  | .release => inferInstanceAs (Decidable True)

/-- The branch that is taken. -/
def branch (self : Actor) : Event → Actor
  | .timer r => self.on_timer r
  | .command cmd buffered r => self.on_command cmd buffered r
  | .packet packet r => self.on_packet packet r
  | .write data more r => self.on_write data more r
  | .read _ => self
  | .release => self

/-- One turn, which the task does not take after it has left the loop. -/
def turn (self : Actor) (event : Event) (r : Readings) : Actor :=
  if self.exited.isSome ∨ ¬ self.Enabled event then self
  else
    let self := self.branch event
    if self.exited.isSome then self else self.finish_closing r

def step (self : Actor) (event : Event) : Actor :=
  match event with
  | .read n => { self with data_tx := self.data_tx.take n }
  | .release => { self with data_tx := self.data_tx.drop_receiver }
  | .timer r => self.turn (.timer r) r
  | .command cmd buffered r => self.turn (.command cmd buffered r) r
  | .packet packet r => self.turn (.packet packet r) r
  | .write data more r => self.turn (.write data more r) r

end Actor

end kcp_tokio.actor
