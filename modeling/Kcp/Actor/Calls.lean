import Kcp.Network.Model
import Kcp.Actor.State

open Mpsc kcp_core.protocol kcp_core.error kcp_core.engine kcp_core.network

namespace kcp_tokio.actor

/-! ### The calls of the engine -/

/-- Calls of the engine lead from `e` to `e'` and return these messages, in this order. -/
def Ran (e e' : KcpEngine) (messages : List Bytes) : Prop :=
  ∃ ops, Trace.run KcpEngine.step e ops = e' ∧ Trace.log KcpEngine.step returned e ops = messages

theorem Ran.refl (e : KcpEngine) : Ran e e [] := ⟨[], rfl, rfl⟩

/-- Two runs of the engine, one after the other. -/
theorem Ran.trans {first second third : KcpEngine} {messages more : List Bytes} (h : Ran first second messages)
    (h' : Ran second third more) : Ran first third (messages ++ more) := by
  obtain ⟨ops, rfl, rfl⟩ := h
  obtain ⟨rest, rfl, rfl⟩ := h'
  exact ⟨ops ++ rest, Trace.run_append .., Trace.log_append ..⟩

/-- One call. -/
theorem ran_step (e : KcpEngine) (op : Op) : Ran e (e.step op) (returned e op) :=
  ⟨[op], rfl, by simp [Trace.log]⟩

theorem ran_flush (e : KcpEngine) (clk : Clock) : Ran e (e.flush clk).1 [] := ran_step e (.flush clk)

theorem ran_flush_output (e : KcpEngine) : Ran e (flush_output e) [] := ran_step e .drain_output

/-- A `send` returns no message. -/
theorem ran_send (e : KcpEngine) (clk : Clock) (data : Bytes) : Ran e (e.send clk data).1 [] := ran_step e (.send clk data)

/-- A run of `send` returns no message. -/
theorem ran_sends (e : KcpEngine) (writes : List (Clock × Bytes)) :
    Ran e (writes.foldl (fun engine write => (engine.send write.1 write.2).1) e) [] := by
  induction writes generalizing e with
  | nil => exact .refl e
  | cons write writes ih => exact (ran_send e write.1 write.2).trans (ih _)

/-- The loop that takes up messages returns none. -/
theorem ran_absorb (high_water : Nat) (e : KcpEngine) (writes : List (Clock × Bytes)) :
    Ran e (absorb high_water e writes) [] := by
  induction writes generalizing e with
  | nil => exact .refl e
  | cons write writes ih =>
    unfold absorb
    split
    · exact (ran_send e write.1 write.2).trans (ih _)
    · exact .refl e

/-- A message that `recv` returns has a byte. -/
theorem returned_ne_nil (e : KcpEngine) (op : Op) : [] ∉ returned e op := by
  cases op with
  | recv =>
    simp only [returned]
    obtain ⟨_, heq⟩ | ⟨_, _, k, _, heq⟩ := e.recv_cases
    · rw [heq]
      exact List.not_mem_nil
    · rw [heq]
      by_cases hnil : KcpEngine.payload (e.rcv_queue.take k) = []
      · rw [if_pos hnil]
        exact List.not_mem_nil
      · rw [if_neg hnil]
        intro hmem
        exact hnil (List.mem_singleton.mp hmem).symm
  | _ => exact List.not_mem_nil

/-- No message that the engine returns is empty. -/
theorem Ran.ne_nil {e e' : KcpEngine} {messages : List Bytes} (h : Ran e e' messages) : [] ∉ messages := by
  obtain ⟨ops, rfl, rfl⟩ := h
  induction ops generalizing e with
  | nil => exact List.not_mem_nil
  | cons op ops ih =>
    intro hmem
    rcases List.mem_append.mp hmem with hmem | hmem
    · exact returned_ne_nil e op hmem
    · exact ih hmem

/-- What a look at the channel keeps, and a call of `recv` with the message that it places, the loop keeps. -/
theorem drain_recv_rule {P : KcpEngine → Channel Bytes → Prop} {pace : Nat → Nat}
    (htake : ∀ i e data_tx, P e data_tx → P e (data_tx.take (pace i)))
    (hrecv : ∀ e data_tx, P e data_tx → returned e .recv = [] → P e.recv.1 data_tx)
    (hplace : ∀ e (data_tx : Channel Bytes) (hroom : data_tx.HasRoom) msg, P e data_tx → returned e .recv = [msg] →
      P e.recv.1 (data_tx.push hroom msg)) {e : KcpEngine} {data_tx : Channel Bytes} (h : P e data_tx) :
    P (drain_recv pace e data_tx).1 (drain_recv pace e data_tx).2 := by
  have hloop : ∀ fuel i e data_tx, P e data_tx →
      P (drain_recv_loop pace fuel i e data_tx).1 (drain_recv_loop pace fuel i e data_tx).2 := by
    intro fuel
    induction fuel with
    | zero => exact fun _ _ _ h => h
    | succ fuel ih =>
      intro i e data_tx h
      have htaken := htake i e data_tx h
      unfold drain_recv_loop
      dsimp only
      by_cases hroom : (data_tx.take (pace i)).HasRoom
      · rw [Channel.try_reserve_of_room hroom]
        have hnone := hrecv e _ htaken
        have hsome := hplace e _ hroom
        unfold returned at hnone hsome
        cases hresult : e.recv with
        | mk engine result =>
          rw [hresult] at hnone hsome
          cases result with
          | error err => exact hnone rfl
          | ok message =>
            cases message with
            | none => exact hnone rfl
            | some msg => exact ih (i + 1) engine _ (hsome msg htaken rfl)
      · rw [Channel.try_reserve_of_full hroom]
        exact htaken
  exact hloop _ 0 e data_tx h

/-- What is drained is placed in the channel, message by message. -/
theorem ran_drain_recv (pace : Nat → Nat) (e : KcpEngine) (data_tx : Channel Bytes) :
    ∃ messages, Ran e (drain_recv pace e data_tx).1 messages ∧
      (drain_recv pace e data_tx).2.sent = data_tx.sent ++ messages := by
  apply drain_recv_rule (P := fun engine channel => ∃ messages, Ran e engine messages ∧ channel.sent = data_tx.sent ++ messages)
  · exact fun _ _ _ h => h
  · rintro engine channel ⟨messages, hran, hsent⟩ hnone
    have hnext := hran.trans (ran_step engine .recv)
    rw [hnone, List.append_nil] at hnext
    exact ⟨messages, hnext, hsent⟩
  · rintro engine channel hroom msg ⟨messages, hran, hsent⟩ hsome
    have hnext := hran.trans (ran_step engine .recv)
    rw [hsome] at hnext
    exact ⟨messages ++ [msg], hnext, by rw [Channel.push_sent, hsent, List.append_assoc]⟩
  · exact ⟨[], .refl e, (List.append_nil _).symm⟩

namespace Actor

/-- The engine makes calls, and the channel gets the messages that they return. The settings
stay. -/
def Advances (self self' : Actor) : Prop :=
  self'.settings = self.settings ∧
    ∃ messages, Ran self.engine self'.engine messages ∧ self'.data_tx.sent = self.data_tx.sent ++ messages

/-- Two parts of a turn, one after the other. -/
theorem Advances.trans {first second third : Actor} (h : Advances first second) (h' : Advances second third) :
    Advances first third := by
  obtain ⟨hsettings, messages, hran, hsent⟩ := h
  obtain ⟨hsettings', more, hran', hsent'⟩ := h'
  exact ⟨hsettings'.trans hsettings, messages ++ more, hran.trans hran', by rw [hsent', hsent, List.append_assoc]⟩

/-- Calls that return no message leave the channel as it is. -/
theorem advances_of_ran {self self' : Actor} (h : Ran self.engine self'.engine [])
    (hsent : self'.data_tx.sent = self.data_tx.sent) (hsettings : self'.settings = self.settings) : Advances self self' :=
  ⟨hsettings, [], h, by rw [hsent, List.append_nil]⟩

theorem advances_refl (self : Actor) : Advances self self := advances_of_ran (.refl _) rfl rfl

theorem advances_exit (self : Actor) (e : Exit) : Advances self (self.exit e) := advances_of_ran (.refl _) rfl rfl

/-- To forward messages places them in order, each of them once. -/
theorem advances_forward (self : Actor) (r : Readings) : Advances self (self.forward r) := by
  obtain ⟨messages, hran, hsent⟩ := ran_drain_recv r.pace (flush_output self.engine) self.data_tx
  exact ⟨rfl, messages, (ran_flush_output _).trans hran, hsent⟩

/-- The keep-alive places none. -/
theorem advances_keep_alive (self : Actor) (r : Readings) : Advances self (self.keep_alive r) := by
  have hprobe : Advances self { self with
      engine := (self.engine.keep_alive_probe r.probe).1, last_probe := r.probed } :=
    advances_of_ran (ran_step self.engine (.keep_alive_probe r.probe)) rfl rfl
  unfold keep_alive
  cases self.settings.keep_alive_ms with
  | none => exact advances_refl self
  | some ka =>
    dsimp only
    split_ifs
    · exact advances_exit ..
    · exact hprobe.trans (advances_exit ..)
    · exact hprobe
    · exact advances_refl self

theorem advances_on_timer (self : Actor) (r : Readings) : Advances self (self.on_timer r) := by
  have hflush : Advances self { self with engine := (self.engine.flush r.flush).1 } := advances_of_ran (ran_flush ..) rfl rfl
  unfold on_timer
  dsimp only
  split_ifs
  · exact hflush.trans (advances_exit ..)
  · exact hflush.trans (advances_keep_alive ..)
  · exact (hflush.trans (advances_keep_alive ..)).trans (advances_forward ..)

/-- The packet branch places what the engine returns once it has the packet. -/
theorem advances_on_packet (self : Actor) (packet : Option Bytes) (r : Readings) :
    Advances self (self.on_packet packet r) := by
  cases packet with
  | none => exact advances_exit ..
  | some data =>
    have hinput : Advances self { self with engine := ((self.engine.input r.input data).1.flush r.flush).1 } :=
      advances_of_ran ((ran_step self.engine (.input r.input data)).trans (ran_flush ..)) rfl rfl
    unfold on_packet
    dsimp only
    split_ifs
    · exact hinput.trans (advances_exit ..)
    · exact hinput.trans (advances_forward ..)

theorem advances_on_command (self : Actor) (cmd : Option EngineCmd) (buffered : List (Clock × Bytes)) (r : Readings) :
    Advances self (self.on_command cmd buffered r) := by
  have hclose : Ran self.engine (flush_output ((buffered.foldl (fun engine write => (engine.send write.1 write.2).1)
      self.engine).flush r.flush).1) [] := ((ran_sends ..).trans (ran_flush ..)).trans (ran_flush_output _)
  cases cmd with
  | none => exact advances_of_ran hclose rfl rfl
  | some cmd =>
    cases cmd with
    | Flush => exact advances_of_ran ((ran_flush ..).trans (ran_flush_output _)) rfl rfl
    | Stats => exact advances_refl self
    | IsAlive => exact advances_refl self
    | Close => exact advances_of_ran hclose rfl rfl

theorem advances_on_write (self : Actor) (data : Option (Clock × Bytes)) (more : List (Clock × Bytes)) (r : Readings) :
    Advances self (self.on_write data more r) := by
  cases data with
  | none => exact advances_refl self
  | some write =>
    have hsend : Advances self { self with
        engine := ((absorb self.settings.send_high_water (self.engine.send write.1 write.2).1 more).flush r.flush).1 } :=
      advances_of_ran (((ran_send ..).trans (ran_absorb ..)).trans (ran_flush ..)) rfl rfl
    unfold on_write
    dsimp only
    split_ifs
    · exact hsend.trans (advances_exit ..)
    · exact hsend.trans (advances_of_ran (ran_flush_output _) rfl rfl)

theorem advances_finish_closing (self : Actor) (r : Readings) : Advances self (self.finish_closing r) := by
  unfold finish_closing
  split_ifs
  · exact advances_of_ran ((ran_flush ..).trans (ran_flush_output _)) rfl rfl
  · exact advances_refl self

/-- Every branch places what its engine returns. -/
theorem advances_branch (self : Actor) (event : Event) : Advances self (self.branch event) := by
  cases event with
  | timer r => exact self.advances_on_timer r
  | command cmd buffered r => exact self.advances_on_command cmd buffered r
  | packet packet r => exact self.advances_on_packet packet r
  | write data more r => exact self.advances_on_write data more r
  | read n => exact advances_refl self
  | release => exact advances_refl self

/-- A whole turn places what its engine returns. -/
theorem advances_turn (self : Actor) (event : Event) (r : Readings) : Advances self (self.turn event r) := by
  unfold turn
  dsimp only
  split_ifs
  · exact advances_refl self
  · exact self.advances_branch event
  · exact (self.advances_branch event).trans (advances_finish_closing ..)

/-- A turn with the readings of its event places what its engine returns. -/
theorem advances_step (self : Actor) (event : Event) : Advances self (self.step event) := by
  cases event with
  | timer r => exact self.advances_turn ..
  | command cmd buffered r => exact self.advances_turn ..
  | packet packet r => exact self.advances_turn ..
  | write data more r => exact self.advances_turn ..
  | read n => exact advances_of_ran (.refl _) rfl rfl
  | release => exact advances_of_ran (.refl _) rfl rfl

/-- A run of the task is a run of its engine, and the messages placed in the channel are those
that the engine returned. -/
theorem advances_run (self : Actor) (events : List Event) : Advances self (Trace.run step self events) := by
  induction events generalizing self with
  | nil => exact advances_refl self
  | cons event events ih => exact (self.advances_step event).trans (ih (self.step event))

/-- Before its loop the task places what its engine returns. -/
theorem ran_start (settings : Settings) (engine : KcpEngine) (data_tx : Channel Bytes) (last_probe : Nat) (now : Timestamp)
    (clk : Clock) (pace : Nat → Nat) :
    ∃ messages, Ran engine (start settings engine data_tx last_probe now clk pace).engine messages ∧
      (start settings engine data_tx last_probe now clk pace).data_tx.sent = data_tx.sent ++ messages := by
  obtain ⟨messages, hran, hsent⟩ := ran_drain_recv pace (flush_output (engine.update now clk).1) data_tx
  exact ⟨messages, ((ran_step engine (.update now clk)).trans (ran_flush_output _)).trans hran, hsent⟩

end Actor

end kcp_tokio.actor
