import Kcp.Actor.Turn

/-! What the calls of a turn return is what the turn places in the data channel. -/

open Mpsc kcp_core.protocol kcp_core.error kcp_core.engine kcp_core.network

namespace kcp_tokio.actor

/-- The messages that calls of the engine return. -/
def messages (e : KcpEngine) (ops : List Op) : List Bytes := Trace.log KcpEngine.step returned e ops

theorem messages_cons (e : KcpEngine) (op : Op) (ops : List Op) :
    messages e (op :: ops) = returned e op ++ messages (e.step op) ops := rfl

/-- The messages of one run after another. -/
theorem messages_append (e : KcpEngine) (first second : List Op) :
    messages e (first ++ second) = messages e first ++ messages (Trace.run KcpEngine.step e first) second :=
  Trace.log_append ..

/-- Only `recv` returns a message. -/
theorem messages_of_no_recv {ops : List Op} (h : ∀ op ∈ ops, op ≠ .recv) (e : KcpEngine) : messages e ops = [] := by
  induction ops generalizing e with
  | nil => rfl
  | cons op ops ih =>
    have hnone : returned e op = [] := by
      cases op with
      | recv => exact absurd rfl (h .recv List.mem_cons_self)
      | _ => rfl
    rw [messages_cons, hnone, List.nil_append]
    exact ih (fun other hother => h other (List.mem_cons_of_mem _ hother)) _

/-- The loop places what its calls of `recv` return. -/
theorem sent_drain_recv (pace : Nat → Nat) (engine : KcpEngine) (data_tx : Channel Bytes) :
    (drain_recv pace engine data_tx).2.sent = data_tx.sent ++ messages engine (drain_calls pace engine data_tx) := by
  have hloop : ∀ fuel i engine data_tx, (drain_recv_loop pace fuel i engine data_tx).2.sent =
      data_tx.sent ++ messages engine (drain_calls_loop pace fuel i engine data_tx) := by
    intro fuel
    induction fuel with
    | zero => exact fun i engine data_tx => (List.append_nil _).symm
    | succ fuel ih =>
      intro i engine data_tx
      unfold drain_calls_loop drain_recv_loop
      dsimp only
      by_cases hroom : (data_tx.take (pace i)).HasRoom
      · rw [Channel.try_reserve_of_room hroom]
        have hstep : engine.step .recv = engine.recv.1 := rfl
        cases hrecv : engine.recv with
        | mk after result =>
          rw [hrecv] at hstep
          cases result with
          | error err =>
            dsimp only
            rw [messages_cons, returned, hrecv]
            exact (List.append_nil _).symm
          | ok message =>
            cases message with
            | none =>
              dsimp only
              rw [messages_cons, returned, hrecv]
              exact (List.append_nil _).symm
            | some msg =>
              dsimp only
              rw [ih, messages_cons, hstep, returned, hrecv, Channel.push_sent, Channel.take_sent, List.append_assoc]
      · rw [Channel.try_reserve_of_full hroom]
        exact (List.append_nil _).symm
  exact hloop ..

namespace Actor

/-! ### The branches -/

/-- Between these two states the engine makes these calls, and the channel gets what they
return. -/
def Places (self : Actor) (calls : List Op) (after : Actor) : Prop :=
  after.data_tx.sent = self.data_tx.sent ++ messages self.engine calls

/-- Calls that return nothing leave the channel as it is. -/
theorem places_of_no_recv {self after : Actor} {calls : List Op} (h : ∀ op ∈ calls, op ≠ .recv)
    (hsame : after.data_tx.sent = self.data_tx.sent) : self.Places calls after := by
  unfold Places
  rw [messages_of_no_recv h, hsame, List.append_nil]

/-- Two parts of a turn, one after the other. -/
theorem Places.trans {self mid after : Actor} {first second : List Op} (h : self.Places first mid)
    (hengine : Trace.run KcpEngine.step self.engine first = mid.engine) (h' : mid.Places second after) :
    self.Places (first ++ second) after := by
  unfold Places at h h' ⊢
  rw [h', h, messages_append, hengine, List.append_assoc]

theorem places_forward (self : Actor) (r : Readings) : self.Places (self.forward_calls r) (self.forward r) :=
  sent_drain_recv r.pace (flush_output self.engine) self.data_tx

theorem keep_alive_calls_no_recv (self : Actor) (r : Readings) : ∀ op ∈ self.keep_alive_calls r, op ≠ .recv := by
  unfold keep_alive_calls
  split
  · exact fun _ h => absurd h List.not_mem_nil
  · split_ifs <;> simp

theorem places_keep_alive (self : Actor) (r : Readings) : self.Places (self.keep_alive_calls r) (self.keep_alive r) := by
  apply places_of_no_recv (self.keep_alive_calls_no_recv r)
  unfold keep_alive
  split
  · rfl
  · dsimp only
    split_ifs <;> rfl

theorem places_on_timer (self : Actor) (r : Readings) : self.Places (self.timer_calls r) (self.on_timer r) := by
  obtain ⟨flushed, hflushed⟩ : ∃ flushed : Actor, flushed = { self with engine := (self.engine.flush r.flush).1 } := ⟨_, rfl⟩
  have hflush : self.Places [.flush r.flush] flushed := by
    rw [hflushed]
    exact places_of_no_recv (by simp) rfl
  have hengine : Trace.run KcpEngine.step self.engine [.flush r.flush] = flushed.engine := by
    rw [hflushed]
    rfl
  unfold timer_calls on_timer
  dsimp only
  rw [← hflushed, ← List.singleton_append]
  split_ifs with hfatal hexited
  · exact hflush
  · rw [List.append_nil]
    exact hflush.trans hengine (flushed.places_keep_alive r)
  · exact hflush.trans hengine
      ((flushed.places_keep_alive r).trans (flushed.run_keep_alive_calls r) ((flushed.keep_alive r).places_forward r))

theorem command_calls_no_recv (cmd : Option EngineCmd) (buffered : List (Clock × Bytes)) (r : Readings) :
    ∀ op ∈ command_calls cmd buffered r, op ≠ .recv := by
  have hclose : ∀ op ∈ buffered.map (fun write => Op.send write.1 write.2) ++ [.flush r.flush, .drain_output],
      op ≠ .recv := by
    intro op hmem
    rcases List.mem_append.mp hmem with hsend | hrest
    · obtain ⟨write, _, rfl⟩ := List.mem_map.mp hsend
      exact fun heq => by cases heq
    · rcases List.mem_pair.mp hrest with rfl | rfl <;> exact fun heq => by cases heq
  cases cmd with
  | none => exact hclose
  | some cmd =>
    cases cmd with
    | Close => exact hclose
    | _ => simp [command_calls]

theorem places_on_command (self : Actor) (cmd : Option EngineCmd) (buffered : List (Clock × Bytes)) (r : Readings) :
    self.Places (command_calls cmd buffered r) (self.on_command cmd buffered r) := by
  apply places_of_no_recv (command_calls_no_recv cmd buffered r)
  cases cmd with
  | none => rfl
  | some cmd => cases cmd <;> rfl

theorem places_on_packet (self : Actor) (packet : Option Bytes) (r : Readings) :
    self.Places (self.packet_calls packet r) (self.on_packet packet r) := by
  cases packet with
  | none => exact places_of_no_recv (fun _ h => absurd h List.not_mem_nil) rfl
  | some data =>
    obtain ⟨flushed, hflushed⟩ : ∃ flushed : Actor,
        flushed = { self with engine := ((self.engine.input r.input data).1.flush r.flush).1 } := ⟨_, rfl⟩
    have hinput : self.Places [.input r.input data, .flush r.flush] flushed := by
      rw [hflushed]
      exact places_of_no_recv (by simp) rfl
    have hengine : Trace.run KcpEngine.step self.engine [.input r.input data, .flush r.flush] = flushed.engine := by
      rw [hflushed]
      rfl
    unfold packet_calls on_packet
    dsimp only
    rw [← hflushed]
    split_ifs
    · exact hinput
    · exact hinput.trans hengine (flushed.places_forward r)

theorem write_calls_no_recv (self : Actor) (data : Option (Clock × Bytes)) (more : List (Clock × Bytes)) (r : Readings) :
    ∀ op ∈ self.write_calls data more r, op ≠ .recv := by
  cases data with
  | none => exact fun _ h => absurd h List.not_mem_nil
  | some write =>
    intro op hmem
    rcases List.mem_append.mp hmem with hsend | hrest
    · rcases List.mem_cons.mp hsend with rfl | habsorb
      · exact fun heq => by cases heq
      · obtain ⟨other, _, rfl⟩ := mem_absorb_calls habsorb
        exact fun heq => by cases heq
    · rcases List.mem_cons.mp hrest with rfl | hrest
      · exact fun heq => by cases heq
      · split at hrest
        · cases hrest
        · rw [List.mem_singleton.mp hrest]
          exact fun heq => by cases heq

theorem places_on_write (self : Actor) (data : Option (Clock × Bytes)) (more : List (Clock × Bytes)) (r : Readings) :
    self.Places (self.write_calls data more r) (self.on_write data more r) := by
  apply places_of_no_recv (self.write_calls_no_recv data more r)
  cases data with
  | none => rfl
  | some write =>
    unfold on_write
    dsimp only
    split_ifs <;> rfl

theorem finish_calls_no_recv (self : Actor) (r : Readings) : ∀ op ∈ self.finish_calls r, op ≠ .recv := by
  unfold finish_calls
  split_ifs <;> simp

theorem places_finish_closing (self : Actor) (r : Readings) : self.Places (self.finish_calls r) (self.finish_closing r) := by
  apply places_of_no_recv (self.finish_calls_no_recv r)
  unfold finish_closing
  split_ifs <;> rfl

theorem places_branch (self : Actor) (event : Event) : self.Places (self.branch_calls event) (self.branch event) := by
  cases event with
  | timer r => exact self.places_on_timer r
  | command cmd buffered r => exact self.places_on_command cmd buffered r
  | packet packet r => exact self.places_on_packet packet r
  | write data more r => exact self.places_on_write data more r
  | read n => exact (List.append_nil _).symm
  | release => exact (List.append_nil _).symm

theorem places_turn (self : Actor) (event : Event) (r : Readings) :
    self.Places (self.turn_calls event r) (self.turn event r) := by
  unfold turn_calls turn
  dsimp only
  split_ifs
  · exact (List.append_nil _).symm
  · rw [List.append_nil]
    exact self.places_branch event
  · exact (self.places_branch event).trans (self.run_branch_calls event) ((self.branch event).places_finish_closing r)

/-- A turn places in the channel what its calls return. -/
theorem places_step (self : Actor) (event : Event) : self.Places (self.calls event) (self.step event) := by
  cases event with
  | timer r => exact self.places_turn ..
  | command cmd buffered r => exact self.places_turn ..
  | packet packet r => exact self.places_turn ..
  | write data more r => exact self.places_turn ..
  | read n => exact (List.append_nil _).symm
  | release => exact (List.append_nil _).symm

/-- So does the start. -/
theorem sent_start (settings : Settings) (engine : KcpEngine) (data_tx : Channel Bytes) (last_probe : Nat)
    (now : Timestamp) (clk : Clock) (pace : Nat → Nat) :
    (start settings engine data_tx last_probe now clk pace).data_tx.sent =
      data_tx.sent ++ messages engine (start_calls engine data_tx now clk pace) := by
  rw [start_calls, messages_append, messages_of_no_recv (by simp), List.nil_append]
  exact sent_drain_recv ..

end Actor

end kcp_tokio.actor
