import Kcp.Actor.Fatal
import Kcp.Listener.State

/-! With what engines the task is started. -/

open Mpsc kcp_core.protocol kcp_core.error kcp_core.engine

namespace kcp_core.engine.KcpEngine

/-- Nothing to send, and nothing to be acknowledged. -/
def Unused (e : KcpEngine) : Prop := e.snd_queue = [] ∧ e.snd_buf = []

/-- A call that sends nothing leaves the engine unused. -/
theorem unused_step {e : KcpEngine} (h : Unused e) {op : Op} (hop : op.NoSend) : Unused (e.step op) := by
  obtain ⟨hqueue, hbuf⟩ := h
  apply step_rule (P := Unused) op
  · rintro clk data rfl
    exact hop.elim
  · intro _
    obtain ⟨queue, buf, nxt, flags, received, heq⟩ := e.recv_shape
    rw [heq]
    exact ⟨hqueue, hbuf⟩
  · intro now data _
    obtain ⟨kept, hsub, hcounted, _⟩ := e.input_snd_buf now data
    rw [hbuf, List.sublist_nil] at hsub
    rw [hsub] at hcounted
    exact ⟨(e.inputFrame_input now data).snd_queue.trans hqueue, List.forall₂_nil_left_iff.mp hcounted⟩
  · intro last flags clk _
    obtain ⟨queue, buf, stats, heq⟩ := flush_shape { e with last_update := last, probe := { e.probe with flags } } clk
    rw [heq]
    refine ⟨?_, ?_⟩
    · change e.snd_queue.drop _ = []
      rw [hqueue, List.drop_nil]
    · change (e.snd_buf ++ numbered _ _ _ (e.snd_queue.take _)).map _ = []
      rw [hqueue, hbuf, List.take_nil]
      rfl
  · exact fun _ => ⟨hqueue, hbuf⟩
  · exact ⟨hqueue, hbuf⟩
  · exact fun _ => ⟨hqueue, hbuf⟩

/-- Calls that send nothing leave the engine unused. -/
theorem unused_run {e : KcpEngine} (h : Unused e) {ops : List Op} (hops : ∀ op ∈ ops, op.NoSend) :
    Unused (Trace.run step e ops) := by
  induction ops generalizing e with
  | nil => exact h
  | cons op ops ih =>
    rw [Trace.run_cons]
    exact ih (unused_step h (hops op List.mem_cons_self)) fun other hother => hops other (List.mem_cons_of_mem _ hother)

/-- An unused engine has no segment to give up on. -/
theorem Unused.not_doomed {e : KcpEngine} (h : Unused e) (now : Timestamp) : ¬ e.Doomed now := by
  rintro (⟨segment, hmem, _⟩ | ⟨_, hadmitted⟩)
  · rw [h.2] at hmem
    cases hmem
  · have hle := e.admitted_le
    rw [h.1, List.length_nil] at hle
    omega

end kcp_core.engine.KcpEngine

namespace kcp_tokio.actor

/-- What the task is started with: an engine with accepted settings that has received at
most, and the rest. -/
structure Launch where
  start : Start
  before : List Op
  silent : ∀ op ∈ before, op.NoSend
  keep_alive_ms : Option Nat
  data_tx : Channel Bytes
  last_probe : Nat
  now : Timestamp
  clk : Clock
  pace : Nat → Nat

namespace Launch

def engine (self : Launch) : KcpEngine := self.start.reached self.before

def task (self : Launch) : Actor :=
  .start (.new self.start.config.toKcpConfig self.keep_alive_ms) self.engine self.data_tx self.last_probe self.now self.clk
    self.pace

/-- The calls before the loop. -/
def calls (self : Launch) : List Op := start_calls self.engine self.data_tx self.now self.clk self.pace

/-- The calls before the loop lead to the engine with which it begins. -/
theorem run_calls (self : Launch) : Trace.run KcpEngine.step self.engine self.calls = self.task.engine :=
  Actor.run_start_calls ..

/-- Before its task starts, an engine has been given nothing to send. -/
theorem unused (self : Launch) : self.engine.Unused := KcpEngine.unused_run ⟨rfl, rfl⟩ self.silent

/-- Every run of the task is a run of its engine. -/
theorem exists_reached (self : Launch) (events : List Event) :
    ∃ ops, (Trace.run Actor.step self.task events).engine = self.start.reached ops := by
  obtain ⟨_, messages, ⟨ops, hrun, _⟩, _⟩ := self.task.advances_run events
  refine ⟨self.before ++ self.calls ++ ops, ?_⟩
  rw [← hrun, ← self.run_calls, Start.reached, Trace.run_append, Trace.run_append]
  rfl

/-- The engine of a client starts fresh. -/
def client (start : Start) (keep_alive_ms : Option Nat) (data_tx : Channel Bytes) (last_probe : Nat) (now : Timestamp)
    (clk : Clock) (pace : Nat → Nat) : Launch where
  start
  before := []
  silent := fun _ h => absurd h List.not_mem_nil
  keep_alive_ms
  data_tx
  last_probe
  now
  clk
  pace

/-- The engine of a server has taken the first packet. -/
theorem exists_of_server_stream {client_conv server_conv : ConvId} {config : config.KcpConfig} {initial_packet : Bytes}
    {r : listener.Readings} {stream : KcpEngine}
    (h : listener.new_server_stream client_conv server_conv config initial_packet r = .ok stream)
    (keep_alive_ms : Option Nat) (data_tx : Channel Bytes) (last_probe : Nat) (now : Timestamp) (clk : Clock)
    (pace : Nat → Nat) :
    ∃ launch : Launch, launch.engine = stream ∧
      launch.task = .start (.new config keep_alive_ms) stream data_tx last_probe now clk pace := by
  obtain ⟨start, rfl, _, ops, rfl, hsilent⟩ := listener.new_server_stream_reached h
  exact ⟨⟨start, ops, hsilent, keep_alive_ms, data_tx, last_probe, now, clk, pace⟩, rfl, rfl⟩

/-- The `update` before the loop does not give up on a segment: there is none. -/
theorem update_sound (self : Launch) : ¬ GivesUp self.engine (.update self.now self.clk) := by
  rintro ⟨clk, _, hdoomed⟩
  exact self.unused.not_doomed _ hdoomed

end Launch

end kcp_tokio.actor
