import Kcp.Connection.State

/-! What the calls of the owner do. They leave the task alone, place messages and commands in
its channels, and take messages out of the data channel. -/

open Mpsc kcp_core.protocol kcp_core.error kcp_core.engine kcp_tokio.error kcp_tokio.stream kcp_tokio.actor

namespace kcp_tokio.connection

/-! ### The writes reported -/

/-- The data that a call of `poll_write` is about: that of a parked write, or the beginning of
the buffer. -/
def chunk (stream : KcpStream) (buf : Bytes) : Bytes :=
  match stream.pending_write with
  | some write => write.data
  | none => buf.take (min buf.length stream.mss)

/-- The data, if its write is reported. -/
def if_reported {ε α : Type} (data : Bytes) : Poll (Except ε α) → List Bytes
  | .ready (.ok _) => [data]
  | _ => []

/-- A call that does not succeed reports nothing. -/
theorem if_reported_of_not_ok {ε α : Type} (data : Bytes) {result : Poll (Except ε α)}
    (h : ∀ value, result ≠ .ready (.ok value)) : if_reported data result = [] := by
  unfold if_reported
  split
  · next value => exact absurd rfl (h value)
  · rfl

/-- The send channel gets these messages, and a closed stream stays closed. -/
structure Hands (stream stream' : KcpStream) (messages : List Bytes) : Prop where
  sent : stream'.send_tx.sent = stream.send_tx.sent ++ messages
  queue : stream'.send_tx.queue = stream.send_tx.queue ++ messages
  receiver : stream'.send_tx.receiver_open = stream.send_tx.receiver_open
  closed : stream.closed = true → stream'.closed = true ∧ messages = []

/-- Nothing is taken back. -/
theorem Hands.sent_prefix {stream stream' : KcpStream} {messages : List Bytes} (h : Hands stream stream' messages) :
    stream.send_tx.sent <+: stream'.send_tx.sent := h.sent ▸ List.prefix_append ..

/-- What writes leave behind is as before. -/
structure SameWrites (stream stream' : KcpStream) : Prop where
  send_tx : stream'.send_tx = stream.send_tx
  mss : stream'.mss = stream.mss
  pending_write : stream'.pending_write = stream.pending_write

/-- A call that leaves the channel alone. -/
theorem Hands.none {stream stream' : KcpStream} (h : stream'.send_tx = stream.send_tx)
    (hclosed : stream.closed = true → stream'.closed = true) : Hands stream stream' [] where
  sent := by rw [h, List.append_nil]
  queue := by rw [h, List.append_nil]
  receiver := by rw [h]
  closed := fun hbefore => ⟨hclosed hbefore, rfl⟩

/-- An open stream places a message. -/
theorem Hands.push {stream stream' : KcpStream} {data : Bytes} (hopen : stream.closed = false) (hroom : stream.send_tx.HasRoom)
    (h : stream'.send_tx = stream.send_tx.push hroom data) : Hands stream stream' [data] where
  sent := by rw [h, Channel.push_sent]
  queue := by rw [h, Channel.push_queue]
  receiver := by rw [h]; rfl
  closed := fun hclosed => absurd (hopen.symm.trans hclosed) Bool.false_ne_true

/-- A write that waits hands over its data when it completes. -/
theorem hands_pending_write (stream : KcpStream) (hopen : stream.closed = false) (write : PendingWrite) (spent : Bool) :
    Hands stream (stream.poll_pending_write write spent).1
      (if_reported write.data (stream.poll_pending_write write spent).2) := by
  by_cases hcompletes : Completes stream.send_tx spent
  · rw [stream.poll_pending_write_completes write hcompletes]
    exact .push hopen hcompletes.2 rfl
  · obtain ⟨hsame, hnot⟩ := stream.poll_pending_write_fails write hcompletes
    rw [if_reported_of_not_ok _ hnot]
    exact .none hsame fun hclosed => absurd (hopen.symm.trans hclosed) Bool.false_ne_true

/-- A write that is reported is in the channel, and nothing else is placed there. -/
theorem hands_write (stream : KcpStream) (buf : Bytes) (spent : Bool) :
    Hands stream (stream.poll_write buf (some 0) spent).1
      (if_reported (chunk stream buf) (stream.poll_write buf (some 0) spent).2) := by
  unfold KcpStream.poll_write chunk
  by_cases hclosed : stream.closed = true
  · rw [if_pos hclosed]
    exact .none rfl id
  rw [if_neg hclosed]
  have hopen := Bool.eq_false_iff.mpr hclosed
  cases hparked : stream.pending_write with
  | some write => exact hands_pending_write stream hopen write spent
  | none =>
    dsimp only
    by_cases hroom : stream.send_tx.HasRoom
    · rw [Channel.try_send_of_room hroom]
      exact .push hopen hroom rfl
    · rw [Channel.try_send_of_full hroom]
      by_cases hshut : stream.send_tx.receiver_open = false
      · rw [if_pos hshut]
        exact .none rfl id
      · rw [if_neg hshut]
        have hhands := hands_pending_write
          { stream with send_tx := KcpStream.meanwhile stream.send_tx (some 0), pending_write := none } hopen
          ⟨buf.take (min buf.length stream.mss), min buf.length stream.mss, by simp⟩ spent
        exact ⟨hhands.sent, hhands.queue, hhands.receiver, hhands.closed⟩

/-- A message that is sent is in the channel. -/
theorem hands_send (stream : MessageStream) (data : Bytes) (spent : Bool) :
    Hands stream.toKcpStream (stream.send data spent).1.toKcpStream (if_reported data (stream.send data spent).2) := by
  rcases stream.send_cases data spent with ⟨hroom, hopen, _, heq⟩ | ⟨hsame, hnot⟩
  · rw [heq]
    exact .push hopen hroom rfl
  · rw [if_reported_of_not_ok data fun _ => hnot, hsame]
    exact .none rfl id

/-- It is a call of the owner. -/
def Event.IsCall : Event → Prop
  | .advance _ => False
  | _ => True

/-- It is a call of the owner that reads nothing. -/
def Event.ReadsNone : Event → Prop
  | .advance _ | .poll_read .. | .recv _ => False
  | _ => True

/-- It is a call of the owner that asks for no flush. -/
def Event.AsksNone : Event → Prop
  | .advance _ | .poll_flush .. => False
  | _ => True

namespace Connection

variable {c : Connection}

/-- The data that a call reports as written. -/
def reported (self : Connection) : Event → List Bytes
  | .poll_write buf spent => if_reported (chunk self.stream buf) (self.poll_write buf spent).2
  | .send data spent => if_reported data (self.send data spent).2
  | _ => []

/-! ### The commands -/

/-- A call places at most one command. -/
def Commands (c after : Connection) : Prop :=
  after.cmd_tx = c.cmd_tx ∨ ∃ hroom : c.cmd_tx.HasRoom, ∃ cmd, after.cmd_tx = c.cmd_tx.push hroom cmd

/-- What a call other than `poll_flush` does: the command that it may place is no flush. -/
structure Unasked (c after : Connection) : Prop where
  flush : after.pending_flush = c.pending_flush
  commands : after.cmd_tx = c.cmd_tx ∨
    ∃ hroom : c.cmd_tx.HasRoom, ∃ cmd, cmd ≠ .Flush ∧ after.cmd_tx = c.cmd_tx.push hroom cmd

theorem Unasked.refl (c : Connection) : Unasked c c := ⟨rfl, .inl rfl⟩

/-- A command other than a flush is a command. -/
theorem Unasked.placed {after : Connection} (h : Unasked c after) : Commands c after :=
  h.commands.imp_right fun ⟨hroom, cmd, _, heq⟩ => ⟨hroom, cmd, heq⟩

/-- The future of a shutdown places its command, and touches nothing else. -/
theorem poll_pending_close_shape (c : Connection) (closing : PendingClose) (spent_send spent_task elapsed : Bool) :
    ∃ cmd_tx, (c.poll_pending_close closing spent_send spent_task elapsed).1 = { c with cmd_tx } ∧
      (cmd_tx = c.cmd_tx ∨ ∃ hroom : c.cmd_tx.HasRoom, cmd_tx = c.cmd_tx.push hroom .Close) := by
  unfold poll_pending_close
  split_ifs
  · exact ⟨_, rfl, .inl rfl⟩
  · exact ⟨_, rfl, .inl rfl⟩
  · by_cases hroom : c.cmd_tx.HasRoom
    · rw [Channel.try_send_of_room hroom]
      exact ⟨_, rfl, .inr ⟨hroom, rfl⟩⟩
    · rw [Channel.try_send_of_full hroom]
      split_ifs <;> exact ⟨_, rfl, .inl rfl⟩

/-- A close asks for no flush. -/
theorem Unasked.of_close {after : Connection} {cmd_tx : Channel EngineCmd}
    (h : cmd_tx = c.cmd_tx ∨ ∃ hroom : c.cmd_tx.HasRoom, cmd_tx = c.cmd_tx.push hroom .Close)
    (hflush : after.pending_flush = c.pending_flush) (hcmd : after.cmd_tx = cmd_tx) : Unasked c after where
  flush := hflush
  commands := by
    rw [hcmd]
    exact h.imp_right fun ⟨hroom, heq⟩ => ⟨hroom, .Close, by decide, heq⟩

/-- To wait for the reply changes nothing but the future. -/
theorem poll_reply_shape (c : Connection) (flush : PendingFlush) (spent : Bool) :
    ∃ pending_flush, (c.poll_reply flush spent).1 = { c with pending_flush } := by
  unfold poll_reply
  split
  · exact ⟨_, rfl⟩
  · split
    · exact ⟨_, rfl⟩
    · split <;> exact ⟨_, rfl⟩

/-- A flush that waits places its command once. -/
theorem poll_pending_flush_shape (c : Connection) (flush : PendingFlush) (spent_send spent_reply : Bool) :
    ∃ cmd_tx pending_flush, (c.poll_pending_flush flush spent_send spent_reply).1 = { c with cmd_tx, pending_flush } ∧
      (cmd_tx = c.cmd_tx ∨ ∃ hroom : c.cmd_tx.HasRoom, cmd_tx = c.cmd_tx.push hroom .Flush) := by
  unfold poll_pending_flush
  split_ifs
  · obtain ⟨_, heq⟩ := c.poll_reply_shape flush spent_reply
    exact ⟨_, _, heq, .inl rfl⟩
  · exact ⟨_, _, rfl, .inl rfl⟩
  · by_cases hroom : c.cmd_tx.HasRoom
    · rw [Channel.try_send_of_room hroom]
      obtain ⟨_, heq⟩ :=
        poll_reply_shape { c with cmd_tx := c.cmd_tx.push hroom .Flush } { flush with requested := true } spent_reply
      exact ⟨_, _, heq, .inr ⟨hroom, rfl⟩⟩
    · rw [Channel.try_send_of_full hroom]
      split_ifs <;> exact ⟨_, _, rfl, .inl rfl⟩

/-- A flush changes only its future and the commands. -/
theorem poll_flush_shape (c : Connection) (spent_send spent_reply : Bool) :
    ∃ cmd_tx pending_flush, (c.poll_flush spent_send spent_reply).1 = { c with cmd_tx, pending_flush } ∧
      (cmd_tx = c.cmd_tx ∨ ∃ hroom : c.cmd_tx.HasRoom, cmd_tx = c.cmd_tx.push hroom .Flush) := by
  unfold poll_flush
  split
  · exact ⟨_, _, rfl, .inl rfl⟩
  · split <;> exact poll_pending_flush_shape ..

/-! ### One call -/

/-- What a call of the owner does, which reports these messages as written. -/
structure Owner (c after : Connection) (messages : List Bytes) : Prop where
  hands : Hands c.stream after.stream messages
  size : after.stream.mss = c.stream.mss
  chunked : ∀ {mss}, mss ≤ c.max_msg → Chunked mss c.max_msg c.stream → Chunked mss c.max_msg after.stream
  limit : after.max_msg = c.max_msg
  task : after.actor = { c.actor with data_tx := after.actor.data_tx }
  placed : after.actor.data_tx.sent = c.actor.data_tx.sent
  sender : after.actor.data_tx.sender_open = c.actor.data_tx.sender_open
  passed : after.passed = c.passed
  commands : Commands c after

section

variable {after : Connection} {messages : List Bytes}

theorem Owner.exited (h : Owner c after messages) : after.actor.exited = c.actor.exited :=
  (congrArg Actor.exited h.task).trans rfl

theorem Owner.engine (h : Owner c after messages) : after.actor.engine = c.actor.engine :=
  (congrArg Actor.engine h.task).trans rfl

theorem Owner.closing (h : Owner c after messages) : after.actor.closing = c.actor.closing :=
  (congrArg Actor.closing h.task).trans rfl

/-- A call that takes nothing out of the data channel. -/
theorem Owner.of_actor (hands : Hands c.stream after.stream messages) (hsize : after.stream.mss = c.stream.mss)
    (hchunked : ∀ {mss}, mss ≤ c.max_msg → Chunked mss c.max_msg c.stream → Chunked mss c.max_msg after.stream)
    (hlimit : after.max_msg = c.max_msg) (hactor : after.actor = c.actor) (hpassed : after.passed = c.passed)
    (commands : Commands c after) : Owner c after messages where
  hands
  size := hsize
  chunked := hchunked
  limit := hlimit
  task := by rw [hactor]
  placed := by rw [hactor]
  sender := by rw [hactor]
  passed := hpassed
  commands

/-- What a call does that neither writes nor reads. -/
structure Quiet (c after : Connection) : Prop where
  writes : SameWrites c.stream after.stream
  read_buf : after.stream.read_buf = c.stream.read_buf
  closed : c.stream.closed = true → after.stream.closed = true
  limit : after.max_msg = c.max_msg
  actor : after.actor = c.actor
  passed : after.passed = c.passed
  commands : Commands c after

theorem Quiet.refl (c : Connection) : Quiet c c := ⟨⟨rfl, rfl, rfl⟩, rfl, id, rfl, rfl, rfl, .inl rfl⟩

/-- A call that neither writes nor reads leaves everything to the task but its command. -/
theorem Quiet.owner (h : Quiet c after) : Owner c after [] :=
  .of_actor (.none h.writes.send_tx h.closed) h.writes.mss
    (fun _ hchunked => hchunked.of_frame h.writes.mss (congrArg Channel.sent h.writes.send_tx) h.writes.pending_write)
    h.limit h.actor h.passed h.commands

/-- And it reads nothing. -/
theorem Quiet.reads (h : Quiet c after) : after.actor = c.actor ∧ after.stream.read_buf = c.stream.read_buf :=
  ⟨h.actor, h.read_buf⟩

/-- A call that only takes messages out of the data channel. -/
theorem Owner.of_read (hwrites : SameWrites c.stream after.stream) (hclosed : c.stream.closed = true → after.stream.closed = true)
    (hsent : after.stream.data_rx.sent = c.stream.data_rx.sent)
    (hopen : after.stream.data_rx.sender_open = c.stream.data_rx.sender_open)
    (htask : after.actor = { c.actor with data_tx := after.stream.data_rx }) (hlimit : after.max_msg = c.max_msg)
    (hpassed : after.passed = c.passed) (hcmd : after.cmd_tx = c.cmd_tx) : Owner c after [] where
  hands := .none hwrites.send_tx hclosed
  size := hwrites.mss
  chunked := fun _ h => h.of_frame hwrites.mss (congrArg Channel.sent hwrites.send_tx) hwrites.pending_write
  limit := hlimit
  task := by rw [htask]
  placed := by rw [htask, ← c.one_channel]; exact hsent
  sender := by rw [htask, ← c.one_channel]; exact hopen
  passed := hpassed
  commands := .inl hcmd

end

/-- A flush neither writes nor reads. -/
theorem quiet_poll_flush (c : Connection) (spent_send spent_reply : Bool) : Quiet c (c.poll_flush spent_send spent_reply).1 := by
  obtain ⟨_, _, hshape, hplaced⟩ := c.poll_flush_shape spent_send spent_reply
  rw [hshape]
  exact ⟨⟨rfl, rfl, rfl⟩, rfl, id, rfl, rfl, rfl, hplaced.imp_right fun ⟨hroom, heq⟩ => ⟨hroom, .Flush, heq⟩⟩

/-- A shutdown neither writes nor reads; it asks the task to close. -/
theorem quiet_poll_shutdown (c : Connection) (spent_send spent_task : Bool) :
    Quiet c (c.poll_shutdown spent_send spent_task).1 ∧ Unasked c (c.poll_shutdown spent_send spent_task).1 := by
  unfold poll_shutdown
  split
  · exact ⟨.refl c, .refl c⟩
  · next hclosed =>
    dsimp only
    obtain ⟨cmd_tx, heq, hplaced⟩ := c.poll_pending_close_shape
      (c.pending_shutdown.getD { requested := false, joins := c.actor_task }) spent_send spent_task false
    generalize c.poll_pending_close _ spent_send spent_task false = polled at heq ⊢
    obtain ⟨after, pending_shutdown⟩ := polled
    obtain rfl : after = { c with cmd_tx } := heq
    obtain ⟨_, _, hshape, _⟩ := c.stream.poll_shutdown_shape pending_shutdown.isNone
    refine ⟨⟨?_, ?_, fun h => absurd h hclosed, rfl, rfl, rfl, ?_⟩, .of_close hplaced rfl rfl⟩
    · change SameWrites c.stream (c.stream.poll_shutdown pending_shutdown.isNone).1
      rw [hshape]
      exact ⟨rfl, rfl, rfl⟩
    · exact (congrArg KcpStream.read_buf hshape).trans rfl
    · exact Unasked.placed (.of_close hplaced rfl rfl)

/-- `close` neither writes nor reads, and closes the stream before it asks. -/
theorem quiet_close (c : Connection) (spent_send spent_task elapsed : Bool) :
    Quiet c (c.close spent_send spent_task elapsed).1 ∧ Unasked c (c.close spent_send spent_task elapsed).1 := by
  have hpoll : ∀ (mid : Connection) (closing : PendingClose), Quiet c mid → Unasked c mid → mid.cmd_tx = c.cmd_tx →
      Quiet c (mid.poll_close closing spent_send spent_task elapsed).1 ∧
        Unasked c (mid.poll_close closing spent_send spent_task elapsed).1 := by
    intro mid closing hquiet hunasked hcmd
    unfold poll_close
    dsimp only
    obtain ⟨cmd_tx, heq, hplaced⟩ := mid.poll_pending_close_shape closing spent_send spent_task elapsed
    rw [heq]
    rw [hcmd] at hplaced
    have hplaces : ∀ pending_close, Unasked c { mid with cmd_tx, pending_close } :=
      fun _ => .of_close hplaced hunasked.flush rfl
    exact ⟨{ hquiet with commands := (hplaces _).placed }, hplaces _⟩
  unfold close
  split
  · exact hpoll c _ (.refl c) (.refl c) rfl
  · split
    · exact ⟨.refl c, .refl c⟩
    · refine hpoll _ _ ?_ ⟨rfl, .inl rfl⟩ rfl
      have hshape := c.stream.close_shape
      exact ⟨⟨(congrArg KcpStream.send_tx hshape).trans rfl, (congrArg KcpStream.mss hshape).trans rfl,
        (congrArg KcpStream.pending_write hshape).trans rfl⟩, (congrArg KcpStream.read_buf hshape).trans rfl,
        fun _ => (congrArg KcpStream.closed hshape).trans rfl, rfl, rfl, rfl, .inl rfl⟩

/-- No other command writes or reads. -/
theorem quiet_request (c : Connection) (cmd : EngineCmd) : Quiet c (c.request cmd) ∧ Unasked c (c.request cmd) := by
  have hplaces : ∀ cmd_tx, Unasked c { c with cmd_tx } → Quiet c { c with cmd_tx } ∧ Unasked c { c with cmd_tx } :=
    fun _ h => ⟨{ Quiet.refl c with commands := h.placed }, h⟩
  unfold request
  split_ifs with hcmd
  · exact hplaces _ (.refl c)
  · by_cases hroom : c.cmd_tx.HasRoom
    · rw [Channel.try_send_of_room hroom]
      exact hplaces _ ⟨rfl, .inr ⟨hroom, cmd, hcmd, rfl⟩⟩
    · rw [Channel.try_send_of_full hroom]
      exact hplaces _ (.refl c)

/-- A read into a buffer only takes messages out. -/
theorem owner_poll_read (c : Connection) (remaining : Nat) (spent : Bool) : Owner c (c.poll_read remaining spent).1 [] := by
  obtain ⟨_, _, hshape, hsent, hopen⟩ := c.stream.poll_read_shape remaining spent
  refine .of_read ?_ (fun h => (congrArg KcpStream.closed hshape).trans h) ((congrArg (·.data_rx.sent) hshape).trans hsent)
    ((congrArg (·.data_rx.sender_open) hshape).trans hopen) rfl rfl rfl rfl
  change SameWrites c.stream (c.stream.poll_read remaining spent).1
  rw [hshape]
  exact ⟨rfl, rfl, rfl⟩

/-- A read of a whole message only takes messages out. -/
theorem owner_recv (c : Connection) (spent : Bool) : Owner c (c.recv spent).1 [] := by
  obtain ⟨_, hshape, hsent, hopen⟩ := c.stream.recv_shape spent
  refine .of_read ?_ (fun h => (congrArg KcpStream.closed hshape).trans h) ((congrArg (·.data_rx.sent) hshape).trans hsent)
    ((congrArg (·.data_rx.sender_open) hshape).trans hopen) rfl rfl rfl rfl
  change SameWrites c.stream (c.stream.recv spent).1
  rw [hshape]
  exact ⟨rfl, rfl, rfl⟩

/-- Every call of the owner is of this kind. -/
theorem owner_step (c : Connection) {event : Event} (h : event.IsCall) : Owner c (c.step event) (c.reported event) := by
  cases event with
  | advance finds => exact h.elim
  | poll_write buf spent =>
    obtain ⟨_, _, heq⟩ := c.stream.poll_write_shape buf (some 0) spent
    exact .of_actor (hands_write c.stream buf spent) ((congrArg KcpStream.mss heq).trans rfl)
      (fun hle h => chunked_poll_write hle h buf (some 0) spent) rfl rfl rfl (.inl rfl)
  | send data spent =>
    have hsize : (MessageStream.send { c.stream with max_msg := c.max_msg } data spent).1.mss = c.stream.mss := by
      rcases MessageStream.send_cases { c.stream with max_msg := c.max_msg } data spent with ⟨_, _, _, heq⟩ | ⟨hsame, _⟩
      · rw [heq]
      · rw [hsame]
    exact .of_actor (hands_send { c.stream with max_msg := c.max_msg } data spent) hsize
      (fun _ h => (chunked_send (s := { c.stream with max_msg := c.max_msg }) h data spent).1) rfl rfl rfl (.inl rfl)
  | poll_flush spent_send spent_reply => exact (c.quiet_poll_flush spent_send spent_reply).owner
  | poll_read remaining spent => exact c.owner_poll_read remaining spent
  | recv spent => exact c.owner_recv spent
  | poll_shutdown spent_send spent_task => exact (c.quiet_poll_shutdown spent_send spent_task).1.owner
  | close spent_send spent_task elapsed => exact (c.quiet_close spent_send spent_task elapsed).1.owner
  | drop_close => exact Quiet.owner ⟨⟨rfl, rfl, rfl⟩, rfl, id, rfl, rfl, rfl, .inl rfl⟩
  | request cmd => exact (c.quiet_request cmd).1.owner

/-- What a call adds to the channel is what it reports. -/
theorem sent_of_call (c : Connection) {event : Event} (h : event.IsCall) :
    (c.step event).stream.send_tx.sent = c.stream.send_tx.sent ++ c.reported event := (c.owner_step h).hands.sent

/-- Only `poll_flush` asks for a flush. -/
theorem unasked_step (c : Connection) {event : Event} (h : event.AsksNone) : Unasked c (c.step event) := by
  cases event with
  | advance finds => exact h.elim
  | poll_flush spent_send spent_reply => exact h.elim
  | poll_shutdown spent_send spent_task => exact (c.quiet_poll_shutdown spent_send spent_task).2
  | close spent_send spent_task elapsed => exact (c.quiet_close spent_send spent_task elapsed).2
  | request cmd => exact (c.quiet_request cmd).2
  | _ => exact ⟨rfl, .inl rfl⟩

/-- Only `poll_read` and `recv` read. -/
theorem actor_of_call (c : Connection) {event : Event} (h : event.ReadsNone) :
    (c.step event).actor = c.actor ∧ (c.step event).stream.read_buf = c.stream.read_buf := by
  cases event with
  | advance finds => exact h.elim
  | poll_read remaining spent => exact h.elim
  | recv spent => exact h.elim
  | poll_write buf spent => exact ⟨rfl, (c.stream.poll_write_data_rx buf (some 0) spent).2⟩
  | send data spent =>
    refine ⟨rfl, ?_⟩
    rcases MessageStream.send_cases { c.stream with max_msg := c.max_msg } data spent with ⟨_, _, _, heq⟩ | ⟨hsame, _⟩
    · exact (congrArg (·.1.read_buf) heq).trans rfl
    · exact (congrArg (·.read_buf) hsame).trans rfl
  | poll_flush spent_send spent_reply => exact (c.quiet_poll_flush spent_send spent_reply).reads
  | poll_shutdown spent_send spent_task => exact (c.quiet_poll_shutdown spent_send spent_task).1.reads
  | close spent_send spent_task elapsed => exact (c.quiet_close spent_send spent_task elapsed).1.reads
  | drop_close => exact ⟨rfl, rfl⟩
  | request cmd => exact (c.quiet_request cmd).1.reads

end Connection

end kcp_tokio.connection
