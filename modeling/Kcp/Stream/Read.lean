import Kcp.Trace
import Kcp.Stream.State

open Mpsc kcp_core.protocol

namespace kcp_tokio.stream

namespace KcpStream

/-! ### Where received data is -/

/-- The bytes that `poll_read` has not returned yet. -/
def unread (self : KcpStream) : Bytes := self.read_buf ++ self.data_rx.queue.flatten

/-- The bytes a call returns. -/
def returned (self : KcpStream) : Event → List Bytes
  | .poll_read remaining spent =>
    match (self.poll_read remaining spent).2 with
    | .ready data => [data]
    | .pending => []
  | _ => []

/-- What a call of `poll_read` does. It copies from the buffer, after it has put a message
into it if it was empty; or reports the end, with the buffer empty and the stream closed
or no message in the channel; or asks to wait. -/
theorem poll_read_cases (self : KcpStream) (remaining : Nat) (spent : Bool) :
    (∃ data_rx data, self.poll_read remaining spent =
        { self with data_rx, read_buf := self.read_buf ++ data }.read_buffered remaining ∧
        data_rx.sent = self.data_rx.sent ∧ data ++ data_rx.queue.flatten = self.data_rx.queue.flatten ∧
        ([] ∉ self.data_rx.queue → self.read_buf ++ data ≠ [])) ∨
      (self.read_buf = [] ∧ (self.closed = true ∨ self.data_rx.queue = []) ∧
        self.poll_read remaining spent = (self, .ready [])) ∨
      self.poll_read remaining spent = (self, .pending) := by
  unfold poll_read
  by_cases hbuf : self.read_buf ≠ []
  · rw [if_pos hbuf]
    refine .inl ⟨self.data_rx, [], by rw [List.append_nil], rfl, rfl, fun _ => ?_⟩
    rw [List.append_nil]
    exact hbuf
  have hempty : self.read_buf = [] := not_not.mp hbuf
  rw [if_neg hbuf]
  by_cases hclosed : self.closed = true
  · rw [if_pos hclosed]
    exact .inr (.inl ⟨hempty, .inl hclosed, rfl⟩)
  rw [if_neg hclosed]
  by_cases hspent : spent = true
  · rw [if_pos hspent]
    exact .inr (.inr rfl)
  rw [if_neg hspent]
  cases hqueue : self.data_rx.queue with
  | cons message rest =>
    rw [Channel.poll_recv_cons hqueue]
    refine .inl ⟨self.data_rx.take 1, message, rfl, rfl, by simp [hqueue], fun hfilled => ?_⟩
    rw [hempty, List.nil_append]
    rintro rfl
    exact hfilled List.mem_cons_self
  | nil =>
    rw [Channel.poll_recv_nil hqueue]
    by_cases hopen : self.data_rx.sender_open = true
    · rw [if_pos hopen]
      exact .inr (.inr rfl)
    · rw [if_neg hopen]
      exact .inr (.inl ⟨hempty, .inr rfl, rfl⟩)

/-- `poll_read` moves bytes to the caller and loses none. -/
theorem poll_read_unread (self : KcpStream) (remaining : Nat) (spent : Bool) :
    (self.returned (.poll_read remaining spent)).flatten ++ (self.poll_read remaining spent).1.unread = self.unread ∧
      (self.poll_read remaining spent).1.data_rx.sent = self.data_rx.sent := by
  simp only [returned]
  rcases self.poll_read_cases remaining spent with ⟨data_rx, data, heq, hsent, hqueue, _⟩ | ⟨_, _, heq⟩ | heq
  · rw [heq]
    refine ⟨?_, hsent⟩
    simp only [read_buffered, unread, List.flatten_singleton]
    rw [← List.append_assoc, List.take_append_drop, List.append_assoc, hqueue]
  · rw [heq]
    exact ⟨rfl, rfl⟩
  · rw [heq]
    exact ⟨rfl, rfl⟩

/-- A read takes messages out of the channel, and changes nothing but that and the buffer. -/
theorem poll_read_shape (self : KcpStream) (remaining : Nat) (spent : Bool) : ∃ data_rx read_buf,
    (self.poll_read remaining spent).1 = { self with data_rx, read_buf } ∧ data_rx.sent = self.data_rx.sent ∧
      data_rx.sender_open = self.data_rx.sender_open := by
  unfold poll_read
  split_ifs
  · exact ⟨_, _, rfl, rfl, rfl⟩
  · exact ⟨_, _, rfl, rfl, rfl⟩
  · exact ⟨_, _, rfl, rfl, rfl⟩
  · cases hqueue : self.data_rx.queue with
    | nil =>
      rw [Channel.poll_recv_nil hqueue]
      split_ifs <;> exact ⟨_, _, rfl, rfl, rfl⟩
    | cons message rest =>
      rw [Channel.poll_recv_cons hqueue]
      exact ⟨_, _, rfl, rfl, rfl⟩

/-- A read into a buffer that has room reports the end with nothing left in `read_buf`, once
the stream is closed or no message is left in the channel. -/
theorem read_buf_of_end {self : KcpStream} {remaining : Nat} {spent : Bool} (hroom : 0 < remaining)
    (hfilled : [] ∉ self.data_rx.queue) (h : (self.poll_read remaining spent).2 = .ready []) :
    self.read_buf = [] ∧ (self.closed = true ∨ self.data_rx.queue = []) := by
  rcases self.poll_read_cases remaining spent with ⟨data_rx, data, heq, _, _, hsome⟩ | ⟨hempty, hdone, _⟩ | heq
  · rw [heq] at h
    have hnil := congrArg List.length (Poll.ready.inj h)
    have hpos := List.length_pos_iff.mpr (hsome hfilled)
    simp only [List.length_take, List.length_nil] at hnil
    omega
  · exact ⟨hempty, hdone⟩
  · rw [heq] at h
    cases h

/-! ### Runs -/

/-- A write touches nothing of what is read. -/
theorem poll_write_shape (self : KcpStream) (buf : Bytes) (taken : Option Nat) (spent : Bool) : ∃ send_tx pending_write,
    (self.poll_write buf taken spent).1 = { self with send_tx, pending_write } := by
  have hpending : ∀ (stream : KcpStream) (write : PendingWrite), ∃ send_tx pending_write,
      (stream.poll_pending_write write spent).1 = { stream with send_tx, pending_write } := by
    intro stream write
    unfold poll_pending_write
    split
    · exact ⟨_, _, rfl⟩
    · split <;> exact ⟨_, _, rfl⟩
  unfold poll_write
  split
  · exact ⟨_, _, rfl⟩
  · split
    · exact hpending ..
    · dsimp only
      split
      · exact ⟨_, _, rfl⟩
      · exact ⟨_, _, rfl⟩
      · obtain ⟨_, _, heq⟩ := hpending { self with send_tx := meanwhile self.send_tx taken } _
        exact ⟨_, _, heq⟩

/-- A write leaves what is received where it is. -/
theorem poll_write_data_rx (self : KcpStream) (buf : Bytes) (taken : Option Nat) (spent : Bool) :
    (self.poll_write buf taken spent).1.data_rx = self.data_rx ∧
      (self.poll_write buf taken spent).1.read_buf = self.read_buf := by
  obtain ⟨_, _, heq⟩ := self.poll_write_shape buf taken spent
  rw [heq]
  exact ⟨rfl, rfl⟩

/-- The messages forwarded are the bytes returned and those not returned yet. -/
theorem step_unread (self : KcpStream) (event : Event) :
    ∃ forwarded, (self.step event).data_rx.sent = self.data_rx.sent ++ forwarded ∧
      (self.returned event).flatten ++ (self.step event).unread = self.unread ++ forwarded.flatten ∧
      ∀ m ∈ forwarded, event = .placed m := by
  have hquiet : ∀ {event}, (self.step event).data_rx = self.data_rx → (self.step event).read_buf = self.read_buf →
      self.returned event = [] →
      ∃ forwarded, (self.step event).data_rx.sent = self.data_rx.sent ++ forwarded ∧
        (self.returned event).flatten ++ (self.step event).unread = self.unread ++ forwarded.flatten ∧
        ∀ m ∈ forwarded, event = .placed m := by
    intro event hrx hbuf hnone
    refine ⟨[], by rw [hrx, List.append_nil], ?_, fun m hm => absurd hm List.not_mem_nil⟩
    rw [hnone, unread, hrx, hbuf]
    simp [unread]
  cases event with
  | poll_read remaining spent =>
    obtain ⟨hunread, hsent⟩ := self.poll_read_unread remaining spent
    refine ⟨[], by rw [List.append_nil]; exact hsent, ?_, fun m hm => absurd hm List.not_mem_nil⟩
    rw [List.flatten_nil, List.append_nil]
    exact hunread
  | poll_write buf taken spent =>
    obtain ⟨hrx, hbuf⟩ := self.poll_write_data_rx buf taken spent
    exact hquiet hrx hbuf rfl
  | poll_shutdown finished =>
    apply hquiet
    · simp only [step, poll_shutdown]
      split_ifs <;> rfl
    · simp only [step, poll_shutdown]
      split_ifs <;> rfl
    · rfl
  | close =>
    apply hquiet
    · simp only [step, close]
      split_ifs <;> rfl
    · simp only [step, close]
      split_ifs <;> rfl
    · rfl
  | taken => exact hquiet rfl rfl rfl
  | placed message =>
    simp only [step, place]
    by_cases hroom : self.data_rx.HasRoom
    · rw [Channel.try_send_of_room hroom]
      refine ⟨[message], rfl, ?_, fun m hm => by rw [List.mem_singleton.mp hm]⟩
      simp [returned, unread]
    · rw [Channel.try_send_of_full hroom]
      exact ⟨[], by simp, by simp [returned], fun m hm => absurd hm List.not_mem_nil⟩
  | exited =>
    refine ⟨[], by rw [List.append_nil]; rfl, ?_, fun m hm => absurd hm List.not_mem_nil⟩
    rw [List.flatten_nil, List.append_nil]
    rfl

/-- Every byte forwarded has been returned, in order, or not been returned yet. -/
theorem run_unread (config : config.KcpConfig) (events : List Event) :
    (Trace.log step returned (new config) events).flatten ++ (Trace.run step (new config) events).unread =
        (Trace.run step (new config) events).data_rx.sent.flatten ∧
      ∀ m ∈ (Trace.run step (new config) events).data_rx.sent, Event.placed m ∈ events := by
  induction events using List.reverseRecOn with
  | nil => exact ⟨rfl, fun m hm => absurd hm List.not_mem_nil⟩
  | append_singleton events event ih =>
    obtain ⟨hconserved, hplaced⟩ := ih
    obtain ⟨forwarded, hsent, hunread, hfrom⟩ := (Trace.run step (new config) events).step_unread event
    rw [Trace.run_concat, Trace.log_concat, hsent]
    constructor
    · rw [List.flatten_append, List.flatten_append, List.append_assoc, hunread, ← List.append_assoc, hconserved]
    · intro m hm
      rcases List.mem_append.mp hm with hm | hm
      · exact List.mem_append_left _ (hplaced m hm)
      · rw [← hfrom m hm]
        exact List.mem_append_right _ List.mem_cons_self

/-! ### Closing -/

/-- Messages wait in the channel of a closed stream. No read looks at them any more. -/
def Stranded (self : KcpStream) : Prop := self.closed = true ∧ self.data_rx.queue ≠ []

/-- A call that closes the stream finds no message in the channel, and on a closed stream none is placed there. -/
def Spares (self : KcpStream) : Event → Prop
  | .poll_shutdown finished => self.closed = false → finished = true → self.data_rx.queue = []
  | .close => self.closed = false → self.data_rx.queue = []
  | .placed _ => self.closed = true → ¬ self.data_rx.HasRoom
  | _ => True

instance decidableSpares (self : KcpStream) : (event : Event) → Decidable (self.Spares event)
  | .poll_shutdown _ => inferInstanceAs (Decidable (_ → _ → self.data_rx.queue = []))
  | .close => inferInstanceAs (Decidable (_ → self.data_rx.queue = []))
  | .placed _ => inferInstanceAs (Decidable (_ → ¬ self.data_rx.HasRoom))
  | .poll_read .. | .poll_write .. | .taken | .exited => .isTrue trivial

/-- A read of a closed stream takes nothing from the channel. -/
theorem poll_read_closed {self : KcpStream} (h : self.closed = true) (remaining : Nat) (spent : Bool) :
    (self.poll_read remaining spent).1.data_rx = self.data_rx := by
  unfold poll_read
  rw [if_pos h]
  split <;> rfl

/-- A read does not close the stream. -/
theorem poll_read_open (self : KcpStream) (remaining : Nat) (spent : Bool) :
    (self.poll_read remaining spent).1.closed = self.closed := by
  rcases self.poll_read_cases remaining spent with ⟨_, _, heq, _⟩ | ⟨_, _, heq⟩ | heq <;> rw [heq]
  rfl

/-- A write does not close the stream. -/
theorem poll_write_open (self : KcpStream) (buf : Bytes) (taken : Option Nat) (spent : Bool) :
    (self.poll_write buf taken spent).1.closed = self.closed := by
  have hpending : ∀ (stream : KcpStream) (write : PendingWrite),
      (stream.poll_pending_write write spent).1.closed = stream.closed := by
    intro stream write
    unfold poll_pending_write
    split
    · rfl
    · split <;> rfl
  unfold poll_write
  split
  · rfl
  · split
    · exact hpending ..
    · dsimp only
      split
      · rfl
      · rfl
      · exact hpending ..

/-- A step that leaves the channel to the data as it is strands nothing unless it closes the stream. -/
theorem stranded_of_same {self after : KcpStream} (hclosed : after.closed = self.closed)
    (hqueue : self.closed = true → after.data_rx.queue = self.data_rx.queue) : Stranded after ↔ Stranded self := by
  unfold Stranded
  rw [hclosed]
  exact and_congr_right fun h => by rw [hqueue h]

/-- What is stranded stays so. -/
theorem stranded_step {self : KcpStream} (h : Stranded self) (event : Event) : Stranded (self.step event) := by
  obtain ⟨hclosed, hsome⟩ := h
  cases event with
  | poll_read remaining spent =>
    rw [step, stranded_of_same (self.poll_read_open remaining spent) fun h =>
      congrArg Channel.queue (poll_read_closed h remaining spent)]
    exact ⟨hclosed, hsome⟩
  | poll_write buf taken spent =>
    rw [step, stranded_of_same (self.poll_write_open buf taken spent) fun _ =>
      congrArg Channel.queue (self.poll_write_data_rx buf taken spent).1]
    exact ⟨hclosed, hsome⟩
  | poll_shutdown finished =>
    rw [step, poll_shutdown, if_pos hclosed]
    exact ⟨hclosed, hsome⟩
  | close =>
    rw [step, close, if_pos hclosed]
    exact ⟨hclosed, hsome⟩
  | placed message =>
    rw [step, place]
    by_cases hroom : self.data_rx.HasRoom
    · rw [Channel.try_send_of_room hroom]
      exact ⟨hclosed, List.append_ne_nil_of_left_ne_nil hsome _⟩
    · rw [Channel.try_send_of_full hroom]
      exact ⟨hclosed, hsome⟩
  | taken => exact ⟨hclosed, hsome⟩
  | exited => exact ⟨hclosed, hsome⟩

/-- A step strands a message exactly if it closes over it, or places it on a closed stream. -/
theorem not_stranded_step_iff {self : KcpStream} (h : ¬ Stranded self) (event : Event) :
    ¬ Stranded (self.step event) ↔ self.Spares event := by
  -- closing turns on what the channel holds
  have hcloses : ∀ after : KcpStream, after.closed = true → after.data_rx = self.data_rx →
      (¬ Stranded after ↔ self.data_rx.queue = []) := by
    intro after hafter hsame
    unfold Stranded
    rw [hsame, not_and, not_not]
    exact forall_prop_of_true hafter
  cases event with
  | poll_read remaining spent =>
    rw [step, stranded_of_same (self.poll_read_open remaining spent) fun hclosed =>
      congrArg Channel.queue (poll_read_closed hclosed remaining spent)]
    exact iff_of_true h trivial
  | poll_write buf taken spent =>
    rw [step, stranded_of_same (self.poll_write_open buf taken spent) fun _ =>
      congrArg Channel.queue (self.poll_write_data_rx buf taken spent).1]
    exact iff_of_true h trivial
  | poll_shutdown finished =>
    simp only [step, poll_shutdown, Spares]
    split_ifs with hclosed hfinished
    · exact iff_of_true h fun hopen => absurd (hopen.symm.trans hclosed) (by decide)
    · refine (hcloses { self with pending_shutdown := false, closed := true } rfl rfl).trans ?_
      exact ⟨fun hnil _ _ => hnil, fun hspares => hspares (Bool.eq_false_iff.mpr hclosed) hfinished⟩
    · exact iff_of_true h fun _ hdone => absurd hdone hfinished
  | close =>
    simp only [step, close, Spares]
    split_ifs with hclosed
    · exact iff_of_true h fun hopen => absurd (hopen.symm.trans hclosed) (by decide)
    · refine (hcloses { self with closed := true } rfl rfl).trans ?_
      exact ⟨fun hnil _ => hnil, fun hspares => hspares (Bool.eq_false_iff.mpr hclosed)⟩
  | placed message =>
    simp only [step, place, Spares]
    by_cases hroom : self.data_rx.HasRoom
    · rw [Channel.try_send_of_room hroom]
      constructor
      · exact fun hnot hclosed => absurd ⟨hclosed, List.append_ne_nil_of_right_ne_nil _ (List.cons_ne_nil _ _)⟩ hnot
      · exact fun hspares hstranded => hspares hstranded.1 hroom
    · rw [Channel.try_send_of_full hroom]
      exact iff_of_true h fun _ => hroom
  | taken => exact iff_of_true h trivial
  | exited => exact iff_of_true h trivial

/-- In every run, closing strands no message exactly if each step spares them. -/
theorem not_stranded_run_iff (config : config.KcpConfig) (events : List Event) :
    ¬ Stranded (Trace.run step (new config) events) ↔ Trace.Always step Spares (new config) events :=
  Trace.latch_iff (G := fun s => ¬ Stranded s) (fun _ event h => not_not.mpr (stranded_step (not_not.mp h) event))
    (fun _ event h => not_stranded_step_iff h event) (fun h => by cases h.1) events

end KcpStream

open KcpStream

/-- When a read reports the end, all the data forwarded has been returned, exactly if the stream was
closed with no message in its channel and none was placed there afterwards, or not closed at all. -/
theorem read_to_end_iff (config : config.KcpConfig) (events : List Event) (remaining : Nat) (spent : Bool)
    (hroom : 0 < remaining) (hfilled : Event.placed [] ∉ events)
    (hend : ((Trace.run step (.new config) events).poll_read remaining spent).2 = .ready []) :
    (Trace.log step returned (.new config) events).flatten =
        (Trace.run step (.new config) events).data_rx.sent.flatten ↔
      Trace.Always step Spares (.new config) events := by
  rw [← not_stranded_run_iff]
  obtain ⟨hconserved, hplaced⟩ := run_unread config events
  generalize Trace.run step (.new config) events = reached at *
  have hqueue : [] ∉ reached.data_rx.queue := fun hmem => hfilled (hplaced [] (reached.data_rx.fifo.subset hmem))
  obtain ⟨hbuf, hdone⟩ := read_buf_of_end hroom hqueue hend
  have hleft : reached.unread = [] ↔ reached.data_rx.queue = [] := by
    rw [unread, hbuf, List.nil_append, List.flatten_eq_nil_iff]
    constructor
    · intro hall
      by_contra hne
      obtain ⟨message, hmem⟩ := List.exists_mem_of_ne_nil _ hne
      rw [hall message hmem] at hmem
      exact hqueue hmem
    · intro hnil message hmem
      rw [hnil] at hmem
      cases hmem
  have hall : (Trace.log step returned (.new config) events).flatten = reached.data_rx.sent.flatten ↔ reached.unread = [] := by
    rw [← hconserved]
    exact ⟨fun h => List.self_eq_append_right.mp h, fun h => by rw [h, List.append_nil]⟩
  rw [hall, hleft]
  constructor
  · rintro hnil ⟨_, hne⟩
    exact hne hnil
  · intro hnot
    rcases hdone with hclosed | hnil
    · exact not_not.mp fun hne => hnot ⟨hclosed, hne⟩
    · exact hnil

/-- A message is read in two parts, and the stream is closed in between. -/
def halfway_run : List Event :=
  [.placed [1, 2], .placed [3, 4], .poll_read 2 false, .poll_read 1 false, .exited, .poll_shutdown true, .poll_read 8 false]

/-- The stream is closed half way through a message, with nothing behind it. -/
theorem read_to_end_halfway : (Trace.log step returned (.new .default) halfway_run).flatten = [1, 2, 3, 4] :=
  (read_to_end_iff .default halfway_run 8 false (by decide) (by simp [halfway_run]) (by decide +kernel)).mpr
    (by decide +kernel)

/-- Two messages wait in the channel when the stream is closed. One read has returned a part
of the first; the next ones return its rest and then report the end. -/
def closed_run : List Event :=
  [.placed [1, 2], .placed [3], .poll_read 1 false, .exited, .poll_shutdown true, .poll_read 8 false]

/-- The stream is closed half way through a message, with another behind it. -/
theorem closed_loses_message :
    ((Trace.run step (.new .default) closed_run).poll_read 8 false).2 = .ready [] ∧
      (Trace.log step returned (.new .default) closed_run).flatten = [1, 2] ∧
      (Trace.run step (.new .default) closed_run).data_rx.sent.flatten = [1, 2, 3] := by
  decide +kernel

end kcp_tokio.stream
