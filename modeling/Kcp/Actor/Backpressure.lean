import Kcp.Engine.Fragment
import Kcp.Actor.Launch

/-! How long the send queue gets while the task serves its stream. -/

open Mpsc kcp_core.protocol kcp_core.config kcp_core.error kcp_core.engine

namespace kcp_core.engine.KcpEngine

/-- Merging appends no segment. -/
theorem length_merged (self : KcpEngine) (data : Bytes) : (self.merged data).1.length = self.snd_queue.length := by
  unfold merged
  split
  · unfold merge_into_last
    cases hlast : self.snd_queue.getLast? with
    | none => rfl
    | some last =>
      dsimp only
      split
      · obtain ⟨front, heq⟩ := List.getLast?_eq_some_iff.mp hlast
        simp [heq]
      · rfl
  · rfl

/-- One message adds at most as many segments as it may have fragments. -/
theorem send_queue_len_send (self : KcpEngine) (clk : Clock) (data : Bytes) :
    (self.send clk data).1.send_queue_len ≤ self.send_queue_len + max_frags self.config := by
  unfold send_queue_len
  rcases self.send_cases clk data with ⟨_, hqueue, _⟩ | ⟨_, hqueue, _⟩ | ⟨_, hcount, hqueue, _⟩
  · rw [hqueue]
    exact Nat.le_add_right _ _
  · rw [hqueue, length_merged]
    exact Nat.le_add_right _ _
  · rw [hqueue, List.length_append, length_merged, fragments, length_fragment_loop]
    exact Nat.add_le_add_left hcount _

/-- No other call makes the queue longer. -/
theorem send_queue_len_step (self : KcpEngine) {op : Op} (h : op.NoSend) :
    (self.step op).send_queue_len ≤ self.send_queue_len := by
  apply step_rule (P := fun e => e.send_queue_len ≤ self.send_queue_len) op
  · rintro clk data rfl
    exact h.elim
  · intro _
    obtain ⟨queue, buf, nxt, flags, received, heq⟩ := self.recv_shape
    rw [heq]
    exact le_rfl
  · intro now data _
    unfold send_queue_len
    rw [(self.inputFrame_input now data).snd_queue]
  · intro last flags clk _
    obtain ⟨queue, buf, stats, heq⟩ := flush_shape { self with last_update := last, probe := { self.probe with flags } } clk
    rw [heq]
    exact (List.drop_sublist _ self.snd_queue).length_le
  · exact fun _ => le_rfl
  · exact le_rfl
  · exact fun _ => le_rfl

/-- Data comes only while the queue is below the mark. -/
def Guarded (high_water : Nat) (e : KcpEngine) (op : Op) : Prop := op.NoSend ∨ e.send_queue_len < high_water

/-- The queue is no longer than this before the call and after it. -/
def Within (bound : Nat) (e : KcpEngine) (op : Op) : Prop := e.send_queue_len ≤ bound ∧ (e.step op).send_queue_len ≤ bound

/-- A guarded call keeps the queue within its bound. -/
theorem within_step {high_water : Nat} {e : KcpEngine} {op : Op}
    (hle : e.send_queue_len ≤ high_water - 1 + max_frags e.config) (hguard : Guarded high_water e op) :
    Within (high_water - 1 + max_frags e.config) e op := by
  refine ⟨hle, ?_⟩
  by_cases hop : op.NoSend
  · exact (e.send_queue_len_step hop).trans hle
  · have hlow := hguard.resolve_left hop
    cases op with
    | send clk data =>
      have hadded := e.send_queue_len_send clk data
      change (e.send clk data).1.send_queue_len ≤ _
      omega
    | _ => exact absurd trivial hop

/-- Guarded calls keep the queue within its bound. -/
theorem within_run {c : KcpCoreConfig} {high_water : Nat} {e : KcpEngine} {ops : List Op} (hconf : Configured c e)
    (hle : e.send_queue_len ≤ high_water - 1 + max_frags c) (hguard : Trace.Always step (Guarded high_water) e ops) :
    Trace.Always step (Within (high_water - 1 + max_frags c)) e ops ∧ Configured c (Trace.run step e ops) ∧
      (Trace.run step e ops).send_queue_len ≤ high_water - 1 + max_frags c := by
  induction ops generalizing e with
  | nil => exact ⟨trivial, hconf, hle⟩
  | cons op ops ih =>
    obtain ⟨hhead, htail⟩ := hguard
    rw [← hconf.config] at hle
    have hwithin := within_step hle hhead
    rw [hconf.config] at hwithin
    obtain ⟨hrest, hlast⟩ := ih (configured_step hconf op) hwithin.2 htail
    exact ⟨⟨hwithin, hrest⟩, hlast⟩

/-- Calls that send nothing need no guard. -/
theorem guarded_of_noSend {high_water : Nat} {e : KcpEngine} {ops : List Op} (h : ∀ op ∈ ops, op.NoSend) :
    Trace.Always step (Guarded high_water) e ops := Trace.always_of_forall fun _ op hop => .inl (h op hop)

end kcp_core.engine.KcpEngine

open KcpEngine

namespace kcp_tokio.actor

/-- The turn begins to close: it takes a `Close` command, or finds the command channel at its
end, with which it does the same. -/
def Event.Closes : Event → Prop
  | .command none _ _ | .command (some .Close) _ _ => True
  | _ => False

instance decidableCloses : (event : Event) → Decidable event.Closes
  | .command none _ _ => .isTrue trivial
  | .command (some .Close) _ _ => .isTrue trivial
  | .command (some .Flush) _ _ | .command (some .Stats) _ _ | .command (some .IsAlive) _ _ => .isFalse id
  | .timer _ | .packet _ _ | .write _ _ _ | .read _ | .release => .isFalse id

/-- The loop looks at the length of the queue before each message. -/
theorem guarded_absorb_calls (high_water : Nat) (e : KcpEngine) (writes : List (Clock × Bytes)) :
    Trace.Always KcpEngine.step (Guarded high_water) e (absorb_calls high_water e writes) := by
  induction writes generalizing e with
  | nil => trivial
  | cons write writes ih =>
    unfold absorb_calls
    split
    · next hlow => exact ⟨.inr hlow, ih _⟩
    · trivial

namespace Actor

/-- The send branch is taken below the mark only. -/
theorem guarded_write_calls {self : Actor} {data : Option (Clock × Bytes)} {more : List (Clock × Bytes)} {r : Readings}
    (henabled : self.Enabled (.write data more r)) :
    Trace.Always KcpEngine.step (Guarded self.settings.send_high_water) self.engine (self.write_calls data more r) := by
  cases data with
  | none => trivial
  | some write =>
    unfold write_calls
    dsimp only
    refine ⟨.inr henabled.2, Trace.always_append.mpr ⟨guarded_absorb_calls .., guarded_of_noSend fun op hmem => ?_⟩⟩
    rcases List.mem_cons.mp hmem with rfl | hmem
    · trivial
    · split_ifs at hmem
      · cases hmem
      · rw [List.mem_singleton.mp hmem]
        trivial

/-- No branch but a close sends above the mark. -/
theorem guarded_branch_calls {self : Actor} {event : Event} (henabled : self.Enabled event) (h : ¬ event.Closes) :
    Trace.Always KcpEngine.step (Guarded self.settings.send_high_water) self.engine (self.branch_calls event) := by
  cases event with
  | timer r => exact guarded_of_noSend noSend_timer_calls
  | packet packet r => exact guarded_of_noSend noSend_packet_calls
  | write data more r => exact guarded_write_calls henabled
  | read n => trivial
  | release => trivial
  | command cmd buffered r =>
    cases cmd with
    | none => exact absurd trivial h
    | some cmd =>
      cases cmd with
      | Flush => exact guarded_of_noSend (by simp [branch_calls, command_calls, Op.NoSend])
      | Stats => trivial
      | IsAlive => trivial
      | Close => exact absurd trivial h

theorem guarded_turn_calls {self : Actor} {event : Event} (h : ¬ event.Closes) (r : Readings) :
    Trace.Always KcpEngine.step (Guarded self.settings.send_high_water) self.engine (self.turn_calls event r) := by
  unfold turn_calls
  split
  · trivial
  · next hgo =>
    have hbranch := guarded_branch_calls (not_not.mp (not_or.mp hgo).2) h
    rw [Trace.always_append]
    refine ⟨hbranch, guarded_of_noSend ?_⟩
    split
    · exact fun _ h => absurd h List.not_mem_nil
    · exact noSend_finish_calls

/-- Unless it begins to close, a turn sends only while the queue is below the mark. -/
theorem guarded_calls {self : Actor} {event : Event} (h : ¬ event.Closes) :
    Trace.Always KcpEngine.step (Guarded self.settings.send_high_water) self.engine (self.calls event) := by
  cases event with
  | timer r => exact guarded_turn_calls h r
  | command cmd buffered r => exact guarded_turn_calls h r
  | packet packet r => exact guarded_turn_calls h r
  | write data more r => exact guarded_turn_calls h r
  | read n => trivial
  | release => trivial

/-! ### The closing flag -/

theorem closing_keep_alive (self : Actor) (r : Readings) : (self.keep_alive r).closing = self.closing := by
  unfold keep_alive
  cases self.settings.keep_alive_ms with
  | none => rfl
  | some ka =>
    dsimp only
    split_ifs <;> rfl

/-- A branch begins to close exactly if it takes a close. -/
theorem closing_branch (self : Actor) (event : Event) :
    (self.branch event).closing = (self.closing || decide event.Closes) := by
  cases event with
  | timer r =>
    have hkeep := closing_keep_alive { self with engine := (self.engine.flush r.flush).1 } r
    have hno : decide (Event.Closes (.timer r)) = false := rfl
    rw [hno, Bool.or_false]
    simp only [branch, on_timer]
    split_ifs
    · rfl
    · exact hkeep
    · exact hkeep
  | packet packet r =>
    have hno : decide (Event.Closes (.packet packet r)) = false := rfl
    rw [hno, Bool.or_false]
    cases packet with
    | none => rfl
    | some data =>
      simp only [branch, on_packet]
      split_ifs <;> rfl
  | write data more r =>
    have hno : decide (Event.Closes (.write data more r)) = false := rfl
    rw [hno, Bool.or_false]
    cases data with
    | none => rfl
    | some write =>
      simp only [branch, on_write]
      split_ifs <;> rfl
  | read n => exact (Bool.or_false _).symm
  | release => exact (Bool.or_false _).symm
  | command cmd buffered r =>
    cases cmd with
    | none => exact (Bool.or_true _).symm
    | some cmd =>
      cases cmd with
      | Close => exact (Bool.or_true _).symm
      | _ => exact (Bool.or_false _).symm

/-- A turn does nothing, or begins to close exactly if its branch takes a close. -/
theorem closing_turn (self : Actor) (event : Event) (r : Readings) :
    (self.turn event r) = self ∧ self.turn_calls event r = [] ∨
      (self.turn event r).closing = (self.closing || decide event.Closes) := by
  unfold turn turn_calls
  split
  · exact .inl ⟨rfl, rfl⟩
  · right
    dsimp only
    rw [← closing_branch]
    split
    · rfl
    · unfold finish_closing
      split <;> rfl

/-- A turn that leaves the task serving does not begin to close, or does nothing. -/
theorem serving_step {self : Actor} {event : Event} (h : (self.step event).closing = false) :
    self.closing = false ∧ (¬ event.Closes ∨ (self.step event).engine = self.engine) := by
  have hturn : ∀ r, (self.turn event r).closing = false →
      self.closing = false ∧ (¬ event.Closes ∨ (self.turn event r).engine = self.engine) := by
    intro r hserving
    rcases self.closing_turn event r with ⟨hsame, _⟩ | hflag
    · rw [hsame] at hserving
      exact ⟨hserving, .inr (by rw [hsame])⟩
    · rw [hflag, Bool.or_eq_false_iff, decide_eq_false_iff_not] at hserving
      exact ⟨hserving.1, .inl hserving.2⟩
  cases event with
  | timer r => exact hturn r h
  | command cmd buffered r => exact hturn r h
  | packet packet r => exact hturn r h
  | write data more r => exact hturn r h
  | read n => exact ⟨h, .inl id⟩
  | release => exact ⟨h, .inl id⟩

end Actor

/-! ### Runs -/

/-- The longest that backpressure lets the send queue get. -/
def queue_bound (config : config.KcpConfig) : Nat := send_high_water config - 1 + min config.rcv_wnd.toNat 128

namespace Launch

/-- The bound, in the terms of the engine. -/
theorem queue_bound_eq (self : Launch) :
    queue_bound self.start.config.toKcpConfig =
      send_high_water self.start.config.toKcpConfig - 1 + max_frags self.start.config.into := by
  unfold queue_bound max_frags
  rw [Word.toNat_min]
  rfl

/-- What holds as long as the task serves its stream. -/
structure Serving (launch : Launch) (a : Actor) : Prop where
  settings : a.settings = .new launch.start.config.toKcpConfig launch.keep_alive_ms
  configured : a.closing = false → Configured launch.start.config.into a.engine
  bounded : a.closing = false → a.engine.send_queue_len ≤ queue_bound launch.start.config.toKcpConfig

variable (self : Launch)

/-- The calls of a turn of a task that serves stay within the bound. -/
theorem within_calls {a : Actor} (h : self.Serving a) (hserving : a.closing = false) {event : Event} (hevent : ¬ event.Closes) :
    Trace.Always KcpEngine.step (Within (queue_bound self.start.config.toKcpConfig)) a.engine (a.calls event) ∧
      Configured self.start.config.into (a.step event).engine ∧
      (a.step event).engine.send_queue_len ≤ queue_bound self.start.config.toKcpConfig := by
  have hguard : Trace.Always KcpEngine.step (Guarded a.settings.send_high_water) a.engine (a.calls event) :=
    Actor.guarded_calls hevent
  have hle := h.bounded hserving
  rw [h.settings] at hguard
  rw [queue_bound_eq] at hle ⊢
  rw [← Actor.run_calls]
  exact within_run (h.configured hserving) hle hguard

theorem serving_step {a : Actor} (h : self.Serving a) (event : Event) : self.Serving (a.step event) := by
  have hengine : (a.step event).closing = false → Configured self.start.config.into (a.step event).engine ∧
      (a.step event).engine.send_queue_len ≤ queue_bound self.start.config.toKcpConfig := by
    intro hafter
    obtain ⟨hbefore, hevent | hsame⟩ := Actor.serving_step hafter
    · exact (self.within_calls h hbefore hevent).2
    · rw [hsame]
      exact ⟨h.configured hbefore, h.bounded hbefore⟩
  exact ⟨(a.advances_step event).1.trans h.settings, fun hafter => (hengine hafter).1, fun hafter => (hengine hafter).2⟩

/-- Before the loop nothing is sent. -/
theorem noSend_calls : ∀ op ∈ self.calls, op.NoSend := by
  intro op hmem
  rcases List.mem_append.mp hmem with hmem | hmem
  · rcases List.mem_pair.mp hmem with rfl | rfl <;> trivial
  · rw [mem_drain_calls hmem]
    trivial

/-- The queue is within its bound when the loop begins. -/
theorem within_start :
    Trace.Always KcpEngine.step (Within (queue_bound self.start.config.toKcpConfig)) self.engine self.calls ∧
      Configured self.start.config.into self.task.engine ∧
      self.task.engine.send_queue_len ≤ queue_bound self.start.config.toKcpConfig := by
  have hnone : self.engine.send_queue_len = 0 := List.length_eq_zero_iff.mpr self.unused.1
  rw [queue_bound_eq, ← run_calls]
  exact within_run (self.start.configured self.before) (by omega) (guarded_of_noSend self.noSend_calls)

/-- In every run the task serves and its queue is within the bound. -/
theorem serving_run (events : List Event) : self.Serving (Trace.run Actor.step self.task events) := by
  apply Trace.invariant (P := fun _ a => self.Serving a)
  · exact ⟨rfl, fun _ => self.within_start.2.1, fun _ => self.within_start.2.2⟩
  · exact fun _ event h => self.serving_step h event

end Launch

/-- Whatever the peer and the writer do, up to the turn in which the task begins to close:
before and after every call of the engine, in every turn and before the loop, the send queue
is below the mark but for the fragments of one message. -/
theorem send_queue_bounded (launch : Launch) (events : List Event) :
    Trace.Always KcpEngine.step (Within (queue_bound launch.start.config.toKcpConfig)) launch.engine launch.calls ∧
      Trace.Always Actor.step (fun a event => a.closing = false → ¬ event.Closes →
        Trace.Always KcpEngine.step (Within (queue_bound launch.start.config.toKcpConfig)) a.engine (a.calls event))
        launch.task events ∧
      ((Trace.run Actor.step launch.task events).closing = false →
        (Trace.run Actor.step launch.task events).engine.send_queue_len ≤ queue_bound launch.start.config.toKcpConfig) := by
  refine ⟨launch.within_start.1, ?_, (launch.serving_run events).bounded⟩
  induction events using List.reverseRecOn with
  | nil => trivial
  | append_singleton events event ih =>
    rw [Trace.always_concat]
    exact ⟨ih, fun hserving hevent => (launch.within_calls (launch.serving_run events) hserving hevent).1⟩

end kcp_tokio.actor
