import Kcp.Actor.Calls

/-! The calls of the engine that the task makes, turn by turn. -/

open Mpsc kcp_core.protocol kcp_core.error kcp_core.engine kcp_core.network

namespace kcp_tokio.actor

def drain_calls_loop (pace : Nat → Nat) : Nat → Nat → KcpEngine → Channel Bytes → List Op
  | 0, _, _, _ => []
  | fuel + 1, i, engine, data_tx =>
    match (data_tx.take (pace i)).try_reserve with
    | .error _ => []
    | .ok send =>
      match engine.recv with
      | (engine, .ok (some msg)) => .recv :: drain_calls_loop pace fuel (i + 1) engine (send msg)
      | _ => [.recv]

def drain_calls (pace : Nat → Nat) (engine : KcpEngine) (data_tx : Channel Bytes) : List Op :=
  drain_calls_loop pace (engine.rcv_queue.length + engine.rcv_buf.entries.length + 1) 0 engine data_tx

def absorb_calls (high_water : Nat) (engine : KcpEngine) : List (Clock × Bytes) → List Op
  | [] => []
  | (clk, data) :: more =>
    if engine.send_queue_len < high_water then .send clk data :: absorb_calls high_water (engine.send clk data).1 more
    else []

def start_calls (engine : KcpEngine) (data_tx : Channel Bytes) (now : Timestamp) (clk : Clock) (pace : Nat → Nat) : List Op :=
  [.update now clk, .drain_output] ++ drain_calls pace (flush_output (engine.update now clk).1) data_tx

namespace Actor

def forward_calls (self : Actor) (r : Readings) : List Op :=
  .drain_output :: drain_calls r.pace (flush_output self.engine) self.data_tx

def keep_alive_calls (self : Actor) (r : Readings) : List Op :=
  match self.settings.keep_alive_ms with
  | none => []
  | some ka =>
    if ka * 3 ≤ (self.engine.idle_ms r.silent).toNat then []
    else if ka ≤ (self.engine.idle_ms r.idle).toNat ∧ ka ≤ r.elapsed - self.last_probe then [.keep_alive_probe r.probe]
    else []

def timer_calls (self : Actor) (r : Readings) : List Op :=
  let (engine, result) := self.engine.flush r.flush
  let self := { self with engine }
  .flush r.flush ::
    if fatal result then []
    else self.keep_alive_calls r ++ if (self.keep_alive r).exited.isSome then [] else (self.keep_alive r).forward_calls r

def command_calls (cmd : Option EngineCmd) (buffered : List (Clock × Bytes)) (r : Readings) : List Op :=
  match cmd with
  | some .Flush => [.flush r.flush, .drain_output]
  | some .Stats => []
  | some .IsAlive => []
  | some .Close | none => buffered.map (fun write => .send write.1 write.2) ++ [.flush r.flush, .drain_output]

def packet_calls (self : Actor) (packet : Option Bytes) (r : Readings) : List Op :=
  match packet with
  | none => []
  | some data =>
    let (engine, result) := (self.engine.input r.input data).1.flush r.flush
    let self := { self with engine }
    [.input r.input data, .flush r.flush] ++ if fatal result then [] else self.forward_calls r

def write_calls (self : Actor) (data : Option (Clock × Bytes)) (more : List (Clock × Bytes)) (r : Readings) : List Op :=
  match data with
  | none => []
  | some (clk, data) =>
    let high_water := self.settings.send_high_water
    let sent := (self.engine.send clk data).1
    .send clk data :: absorb_calls high_water sent more ++
      .flush r.flush :: if fatal ((absorb high_water sent more).flush r.flush).2 then [] else [.drain_output]

def finish_calls (self : Actor) (r : Readings) : List Op :=
  if self.closing ∧ (self.engine.has_unsent_data = false ∨ ∃ deadline ∈ self.close_deadline, deadline ≤ r.closing) then
    [.flush r.last, .drain_output]
  else []

def branch_calls (self : Actor) : Event → List Op
  | .timer r => self.timer_calls r
  | .command cmd buffered r => command_calls cmd buffered r
  | .packet packet r => self.packet_calls packet r
  | .write data more r => self.write_calls data more r
  | .read _ => []
  | .release => []

def turn_calls (self : Actor) (event : Event) (r : Readings) : List Op :=
  if self.exited.isSome ∨ ¬ self.Enabled event then []
  else self.branch_calls event ++ if (self.branch event).exited.isSome then [] else (self.branch event).finish_calls r

/-- The calls of a turn, in order. -/
def calls (self : Actor) (event : Event) : List Op :=
  match event with
  | .read _ => []
  | .release => []
  | .timer r => self.turn_calls (.timer r) r
  | .command cmd buffered r => self.turn_calls (.command cmd buffered r) r
  | .packet packet r => self.turn_calls (.packet packet r) r
  | .write data more r => self.turn_calls (.write data more r) r

end Actor

/-! ### They make the engine what it is after the turn -/

theorem run_drain_calls (pace : Nat → Nat) (engine : KcpEngine) (data_tx : Channel Bytes) :
    Trace.run KcpEngine.step engine (drain_calls pace engine data_tx) = (drain_recv pace engine data_tx).1 := by
  have hloop : ∀ fuel i engine data_tx, Trace.run KcpEngine.step engine (drain_calls_loop pace fuel i engine data_tx) =
      (drain_recv_loop pace fuel i engine data_tx).1 := by
    intro fuel
    induction fuel with
    | zero => exact fun i engine data_tx => rfl
    | succ fuel ih =>
      intro i engine data_tx
      unfold drain_calls_loop drain_recv_loop
      dsimp only
      cases (data_tx.take (pace i)).try_reserve with
      | error err => rfl
      | ok send =>
        have hstep : engine.step .recv = engine.recv.1 := rfl
        cases hrecv : engine.recv with
        | mk after result =>
          rw [hrecv] at hstep
          cases result with
          | error err => exact hstep
          | ok message =>
            cases message with
            | none => exact hstep
            | some msg =>
              dsimp only
              rw [Trace.run_cons, hstep]
              exact ih ..
  exact hloop ..

theorem run_absorb_calls (high_water : Nat) (engine : KcpEngine) (writes : List (Clock × Bytes)) :
    Trace.run KcpEngine.step engine (absorb_calls high_water engine writes) = absorb high_water engine writes := by
  induction writes generalizing engine with
  | nil => rfl
  | cons write writes ih =>
    unfold absorb_calls absorb
    split
    · rw [Trace.run_cons]
      exact ih _
    · rfl

theorem run_sends (engine : KcpEngine) (writes : List (Clock × Bytes)) :
    Trace.run KcpEngine.step engine (writes.map fun write => Op.send write.1 write.2) =
      writes.foldl (fun engine write => (engine.send write.1 write.2).1) engine := by
  induction writes generalizing engine with
  | nil => rfl
  | cons write writes ih =>
    rw [List.map_cons, Trace.run_cons, List.foldl_cons]
    exact ih _

theorem run_flush_calls (engine : KcpEngine) (clk : Clock) :
    Trace.run KcpEngine.step engine [.flush clk, .drain_output] = flush_output (engine.flush clk).1 := by
  have hflush : engine.step (.flush clk) = (engine.flush clk).1 := rfl
  rw [Trace.run_cons, hflush]
  rfl

namespace Actor

theorem run_forward_calls (self : Actor) (r : Readings) :
    Trace.run KcpEngine.step self.engine (self.forward_calls r) = (self.forward r).engine := by
  rw [forward_calls, Trace.run_cons]
  exact run_drain_calls ..

theorem run_keep_alive_calls (self : Actor) (r : Readings) :
    Trace.run KcpEngine.step self.engine (self.keep_alive_calls r) = (self.keep_alive r).engine := by
  unfold keep_alive_calls keep_alive
  cases self.settings.keep_alive_ms with
  | none => rfl
  | some ka =>
    dsimp only
    split_ifs <;> rfl

theorem run_timer_calls (self : Actor) (r : Readings) :
    Trace.run KcpEngine.step self.engine (self.timer_calls r) = (self.on_timer r).engine := by
  unfold timer_calls on_timer
  dsimp only
  rw [Trace.run_cons]
  split_ifs with hfatal hexited
  · rfl
  · rw [List.append_nil]
    exact run_keep_alive_calls { self with engine := (self.engine.flush r.flush).1 } r
  · rw [Trace.run_append]
    have hkeep := run_keep_alive_calls { self with engine := (self.engine.flush r.flush).1 } r
    dsimp only at hkeep
    change Trace.run _ (Trace.run _ (self.engine.flush r.flush).1 _) _ = _
    rw [hkeep]
    exact run_forward_calls ..

theorem run_command_calls (self : Actor) (cmd : Option EngineCmd) (buffered : List (Clock × Bytes)) (r : Readings) :
    Trace.run KcpEngine.step self.engine (command_calls cmd buffered r) = (self.on_command cmd buffered r).engine := by
  have hclose : Trace.run KcpEngine.step self.engine
      (buffered.map (fun write => .send write.1 write.2) ++ [.flush r.flush, .drain_output]) =
        flush_output ((buffered.foldl (fun engine write => (engine.send write.1 write.2).1) self.engine).flush r.flush).1 := by
    rw [Trace.run_append, run_sends]
    exact run_flush_calls ..
  cases cmd with
  | none => exact hclose
  | some cmd =>
    cases cmd with
    | Flush => exact run_flush_calls ..
    | Stats => rfl
    | IsAlive => rfl
    | Close => exact hclose

theorem run_packet_calls (self : Actor) (packet : Option Bytes) (r : Readings) :
    Trace.run KcpEngine.step self.engine (self.packet_calls packet r) = (self.on_packet packet r).engine := by
  cases packet with
  | none => rfl
  | some data =>
    unfold packet_calls on_packet
    dsimp only
    rw [Trace.run_append]
    split_ifs
    · rfl
    · exact run_forward_calls { self with engine := ((self.engine.input r.input data).1.flush r.flush).1 } r

theorem run_write_calls (self : Actor) (data : Option (Clock × Bytes)) (more : List (Clock × Bytes)) (r : Readings) :
    Trace.run KcpEngine.step self.engine (self.write_calls data more r) = (self.on_write data more r).engine := by
  cases data with
  | none => rfl
  | some write =>
    unfold write_calls on_write
    dsimp only
    rw [List.cons_append, Trace.run_cons, Trace.run_append]
    have habsorb := run_absorb_calls self.settings.send_high_water (self.engine.send write.1 write.2).1 more
    change Trace.run _ (Trace.run _ (self.engine.send write.1 write.2).1 _) _ = _
    rw [habsorb]
    split_ifs
    · rfl
    · exact run_flush_calls ..

theorem run_finish_calls (self : Actor) (r : Readings) :
    Trace.run KcpEngine.step self.engine (self.finish_calls r) = (self.finish_closing r).engine := by
  unfold finish_calls finish_closing
  split_ifs
  · exact run_flush_calls ..
  · rfl

theorem run_branch_calls (self : Actor) (event : Event) :
    Trace.run KcpEngine.step self.engine (self.branch_calls event) = (self.branch event).engine := by
  cases event with
  | timer r => exact self.run_timer_calls r
  | command cmd buffered r => exact self.run_command_calls cmd buffered r
  | packet packet r => exact self.run_packet_calls packet r
  | write data more r => exact self.run_write_calls data more r
  | read n => rfl
  | release => rfl

theorem run_turn_calls (self : Actor) (event : Event) (r : Readings) :
    Trace.run KcpEngine.step self.engine (self.turn_calls event r) = (self.turn event r).engine := by
  unfold turn_calls turn
  dsimp only
  split_ifs
  · rfl
  · rw [List.append_nil]
    exact self.run_branch_calls event
  · rw [Trace.run_append, run_branch_calls]
    exact run_finish_calls ..

/-- Made in order, the calls of a turn lead to its engine. -/
theorem run_calls (self : Actor) (event : Event) :
    Trace.run KcpEngine.step self.engine (self.calls event) = (self.step event).engine := by
  cases event with
  | timer r => exact self.run_turn_calls ..
  | command cmd buffered r => exact self.run_turn_calls ..
  | packet packet r => exact self.run_turn_calls ..
  | write data more r => exact self.run_turn_calls ..
  | read n => rfl
  | release => rfl

theorem run_start_calls (settings : Settings) (engine : KcpEngine) (data_tx : Channel Bytes) (last_probe : Nat)
    (now : Timestamp) (clk : Clock) (pace : Nat → Nat) :
    Trace.run KcpEngine.step engine (start_calls engine data_tx now clk pace) =
      (start settings engine data_tx last_probe now clk pace).engine := by
  rw [start_calls, Trace.run_append]
  exact run_drain_calls ..

end Actor

/-! ### The data they hand over -/

theorem mem_drain_calls {pace : Nat → Nat} {engine : KcpEngine} {data_tx : Channel Bytes} {op : Op}
    (h : op ∈ drain_calls pace engine data_tx) : op = .recv := by
  have hloop : ∀ fuel i engine data_tx, op ∈ drain_calls_loop pace fuel i engine data_tx → op = .recv := by
    intro fuel
    induction fuel with
    | zero => exact fun _ _ _ h => absurd h List.not_mem_nil
    | succ fuel ih =>
      intro i engine data_tx hmem
      unfold drain_calls_loop at hmem
      split at hmem
      · exact absurd hmem List.not_mem_nil
      · split at hmem
        · rcases List.mem_cons.mp hmem with hhead | htail
          · exact hhead
          · exact ih _ _ _ htail
        · exact List.mem_singleton.mp hmem
  exact hloop _ _ _ _ h

theorem mem_absorb_calls {high_water : Nat} {engine : KcpEngine} {writes : List (Clock × Bytes)} {op : Op}
    (h : op ∈ absorb_calls high_water engine writes) : ∃ write ∈ writes, op = .send write.1 write.2 := by
  induction writes generalizing engine with
  | nil => exact absurd h List.not_mem_nil
  | cons write writes ih =>
    unfold absorb_calls at h
    split at h
    · rcases List.mem_cons.mp h with hhead | htail
      · exact ⟨write, List.mem_cons_self, hhead⟩
      · obtain ⟨other, hmem, heq⟩ := ih htail
        exact ⟨other, List.mem_cons_of_mem _ hmem, heq⟩
    · exact absurd h List.not_mem_nil

/-- The data that a turn takes from the send channel, or would take. -/
def Event.writes : Event → List Bytes
  | .command _ buffered _ => buffered.map Prod.snd
  | .write (some (_, data)) more _ => data :: more.map Prod.snd
  | _ => []

/-- The data that a call hands to the engine is among these. -/
def SendsFrom (writes : List Bytes) (op : Op) : Prop := ∀ clk data, op = .send clk data → data ∈ writes

theorem sendsFrom_of_noSend {writes : List Bytes} {op : Op} (h : op.NoSend) : SendsFrom writes op := by
  rintro clk data rfl
  exact h.elim

namespace Actor

theorem mem_forward_calls {self : Actor} {r : Readings} {op : Op} (h : op ∈ self.forward_calls r) :
    op = .drain_output ∨ op = .recv := (List.mem_cons.mp h).imp_right mem_drain_calls

theorem noSend_forward_calls {self : Actor} {r : Readings} : ∀ op ∈ self.forward_calls r, op.NoSend := by
  intro op hmem
  rcases mem_forward_calls hmem with rfl | rfl <;> trivial

theorem noSend_keep_alive_calls {self : Actor} {r : Readings} : ∀ op ∈ self.keep_alive_calls r, op.NoSend := by
  unfold keep_alive_calls
  cases self.settings.keep_alive_ms with
  | none => exact fun _ h => absurd h List.not_mem_nil
  | some ka =>
    dsimp only
    split_ifs
    · exact fun _ h => absurd h List.not_mem_nil
    · intro op hmem
      rw [List.mem_singleton.mp hmem]
      trivial
    · exact fun _ h => absurd h List.not_mem_nil

theorem noSend_finish_calls {self : Actor} {r : Readings} : ∀ op ∈ self.finish_calls r, op.NoSend := by
  unfold finish_calls
  split_ifs
  · simp [Op.NoSend]
  · exact fun _ h => absurd h List.not_mem_nil

theorem noSend_timer_calls {self : Actor} {r : Readings} : ∀ op ∈ self.timer_calls r, op.NoSend := by
  unfold timer_calls
  dsimp only
  intro op hmem
  rcases List.mem_cons.mp hmem with rfl | hmem
  · trivial
  · split_ifs at hmem
    · cases hmem
    · rcases List.mem_append.mp hmem with hmem | hmem
      · exact noSend_keep_alive_calls op hmem
      · cases hmem
    · rcases List.mem_append.mp hmem with hmem | hmem
      · exact noSend_keep_alive_calls op hmem
      · exact noSend_forward_calls op hmem

theorem noSend_packet_calls {self : Actor} {packet : Option Bytes} {r : Readings} :
    ∀ op ∈ self.packet_calls packet r, op.NoSend := by
  cases packet with
  | none => exact fun _ h => absurd h List.not_mem_nil
  | some data =>
    unfold packet_calls
    dsimp only
    intro op hmem
    rcases List.mem_append.mp hmem with hmem | hmem
    · rcases List.mem_pair.mp hmem with rfl | rfl <;> trivial
    · split_ifs at hmem
      · cases hmem
      · exact noSend_forward_calls op hmem

theorem sendsFrom_branch_calls (self : Actor) (event : Event) : ∀ op ∈ self.branch_calls event, SendsFrom event.writes op := by
  intro op hmem
  cases event with
  | timer r => exact sendsFrom_of_noSend (noSend_timer_calls op hmem)
  | packet packet r => exact sendsFrom_of_noSend (noSend_packet_calls op hmem)
  | read n => cases hmem
  | release => cases hmem
  | write data more r =>
    cases data with
    | none => cases hmem
    | some write =>
      rcases List.mem_append.mp hmem with hsend | hrest
      · rcases List.mem_cons.mp hsend with rfl | habsorb
        · rintro clk data ⟨⟩
          exact List.mem_cons_self
        · obtain ⟨other, hother, rfl⟩ := mem_absorb_calls habsorb
          rintro clk data ⟨⟩
          exact List.mem_cons_of_mem _ (List.mem_map_of_mem hother)
      · refine sendsFrom_of_noSend ?_
        rcases List.mem_cons.mp hrest with rfl | hrest
        · trivial
        · split at hrest
          · cases hrest
          · rw [List.mem_singleton.mp hrest]
            trivial
  | command cmd buffered r =>
    have hclose : op ∈ buffered.map (fun write => Op.send write.1 write.2) ++ [.flush r.flush, .drain_output] →
        SendsFrom (buffered.map Prod.snd) op := by
      intro hmem
      rcases List.mem_append.mp hmem with hsend | hrest
      · obtain ⟨write, hwrite, rfl⟩ := List.mem_map.mp hsend
        rintro clk data ⟨⟩
        exact List.mem_map_of_mem hwrite
      · refine sendsFrom_of_noSend ?_
        rcases List.mem_pair.mp hrest with rfl | rfl <;> trivial
    cases cmd with
    | none => exact hclose hmem
    | some cmd =>
      cases cmd with
      | Flush =>
        refine sendsFrom_of_noSend ?_
        rcases List.mem_pair.mp hmem with rfl | rfl <;> trivial
      | Stats => cases hmem
      | IsAlive => cases hmem
      | Close => exact hclose hmem

/-- The engine gets no data but what comes from the send channel. -/
theorem sendsFrom_calls (self : Actor) (event : Event) : ∀ op ∈ self.calls event, SendsFrom event.writes op := by
  have hturn : ∀ r, ∀ op ∈ self.turn_calls event r, SendsFrom event.writes op := by
    intro r op hmem
    unfold turn_calls at hmem
    split at hmem
    · cases hmem
    · rcases List.mem_append.mp hmem with hbranch | hfinish
      · exact self.sendsFrom_branch_calls event op hbranch
      · split at hfinish
        · cases hfinish
        · exact sendsFrom_of_noSend (noSend_finish_calls op hfinish)
  cases event with
  | timer r => exact hturn r
  | command cmd buffered r => exact hturn r
  | packet packet r => exact hturn r
  | write data more r => exact hturn r
  | read n => exact fun _ h => absurd h List.not_mem_nil
  | release => exact fun _ h => absurd h List.not_mem_nil

end Actor

end kcp_tokio.actor
