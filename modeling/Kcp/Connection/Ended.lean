import Kcp.Actor.Backpressure
import Kcp.Connection.Bytes

/-! The end of a task: a close comes to it by its deadline. From then on no call of the owner
waits, and the reader is told the end of the data once it has had all of it. -/

open Mpsc kcp_core.protocol kcp_core.error kcp_core.engine kcp_tokio.error kcp_tokio.stream kcp_tokio.actor

namespace kcp_tokio.actor

/-- The loop keeps its end of the channel. -/
theorem sender_drain_recv (pace : Nat → Nat) (engine : KcpEngine) (data_tx : Channel Bytes) :
    (drain_recv pace engine data_tx).2.sender_open = data_tx.sender_open := by
  apply drain_recv_rule (P := fun _ channel => channel.sender_open = data_tx.sender_open)
  · exact fun _ _ _ h => h
  · exact fun _ _ h _ => h
  · exact fun _ _ _ _ h _ => h
  · rfl

namespace Actor

/-- The task holds its end of the data channel until it exits, and has a deadline once it
closes. -/
structure Bound (a : Actor) : Prop where
  sender : a.data_tx.sender_open = a.exited.isNone
  deadline : a.closing = true → a.close_deadline.isSome = true

/-- A close that has begun is not taken back, and its deadline stays. -/
def Lasts (a after : Actor) : Prop := a.closing = true → after.closing = true ∧ after.close_deadline = a.close_deadline

theorem Lasts.refl (a : Actor) : a.Lasts a := fun h => ⟨h, rfl⟩

/-- A close that lasts for two parts of a turn lasts for both. -/
theorem Lasts.trans {a mid after : Actor} (h : a.Lasts mid) (hmid : mid.Lasts after) : a.Lasts after := by
  intro hclosing
  obtain ⟨hstill, hsame⟩ := h hclosing
  obtain ⟨hclosed, heq⟩ := hmid hstill
  exact ⟨hclosed, heq.trans hsame⟩

/-- What one part of a turn does to both. -/
structure Keeps (a after : Actor) : Prop where
  bound : Bound a → Bound after
  lasts : a.Lasts after

variable {a : Actor}

/-- Two parts of a turn, one after the other. -/
theorem Keeps.trans {mid after : Actor} (h : a.Keeps mid) (hmid : mid.Keeps after) : a.Keeps after where
  bound := fun hbound => hmid.bound (h.bound hbound)
  lasts := h.lasts.trans hmid.lasts

/-- Nothing that matters here changes. -/
theorem Keeps.of_same {after : Actor} (hsender : after.data_tx.sender_open = a.data_tx.sender_open)
    (hexited : after.exited = a.exited) (hclosing : after.closing = a.closing)
    (hdeadline : after.close_deadline = a.close_deadline) : a.Keeps after where
  bound := fun h => ⟨by rw [hsender, hexited, h.sender], by rw [hclosing, hdeadline]; exact h.deadline⟩
  lasts := fun h => ⟨hclosing.trans h, hdeadline⟩

/-- To leave the loop takes back no close. -/
theorem Keeps.exit {after : Actor} (h : a.Keeps after) (reason : Exit) : a.Keeps (after.exit reason) :=
  h.trans ⟨fun hbound => ⟨rfl, hbound.deadline⟩, fun hclosing => ⟨hclosing, rfl⟩⟩

theorem Keeps.refl (a : Actor) : a.Keeps a := .of_same rfl rfl rfl rfl

theorem keeps_engine (a : Actor) (engine : KcpEngine) : a.Keeps { a with engine } := .of_same rfl rfl rfl rfl

theorem keeps_forward (a : Actor) (r : Readings) : a.Keeps (a.forward r) := .of_same (sender_drain_recv ..) rfl rfl rfl

theorem keeps_keep_alive (a : Actor) (r : Readings) : a.Keeps (a.keep_alive r) := by
  unfold keep_alive
  split
  · exact .refl a
  · have hprobe : a.Keeps { a with engine := (a.engine.keep_alive_probe r.probe).1, last_probe := r.probed } :=
      .of_same rfl rfl rfl rfl
    dsimp only
    split_ifs
    · exact (Keeps.refl a).exit _
    · exact hprobe.exit _
    · exact hprobe
    · exact .refl a

/-- No branch takes a close back, or moves its deadline. -/
theorem keeps_branch {event : Event} (henabled : a.Enabled event) : a.Keeps (a.branch event) := by
  cases event with
  | timer r =>
    have hflush := a.keeps_engine (a.engine.flush r.flush).1
    simp only [branch, on_timer]
    split_ifs
    · exact hflush.exit _
    · exact hflush.trans (keeps_keep_alive ..)
    · exact (hflush.trans (keeps_keep_alive ..)).trans (keeps_forward ..)
  | packet packet r =>
    cases packet with
    | none => exact (Keeps.refl a).exit _
    | some data =>
      have hflush := a.keeps_engine ((a.engine.input r.input data).1.flush r.flush).1
      simp only [branch, on_packet]
      split_ifs
      · exact hflush.exit _
      · exact hflush.trans (keeps_forward ..)
  | write data more r =>
    cases data with
    | none => exact .of_same rfl rfl rfl rfl
    | some write =>
      have hflush := a.keeps_engine
        ((absorb a.settings.send_high_water (a.engine.send write.1 write.2).1 more).flush r.flush).1
      simp only [branch, on_write]
      split_ifs
      · exact hflush.exit _
      · exact hflush.trans (keeps_engine ..)
  | read n => exact .refl a
  | release => exact .refl a
  | command cmd buffered r =>
    have hclose : ∀ engine deadline,
        a.Keeps { a with engine, send_closed := true, closing := true, close_deadline := some deadline } := by
      refine fun _ _ => ⟨fun h => ⟨h.sender, fun _ => rfl⟩, fun hclosing => ?_⟩
      rw [show a.closing = false from henabled] at hclosing
      cases hclosing
    cases cmd with
    | none => exact hclose _ _
    | some cmd =>
      cases cmd with
      | Close => exact hclose _ _
      | Flush => exact .of_same rfl rfl rfl rfl
      | Stats => exact .of_same rfl rfl rfl rfl
      | IsAlive => exact .of_same rfl rfl rfl rfl

theorem keeps_finish_closing (a : Actor) (r : Readings) : a.Keeps (a.finish_closing r) := by
  unfold finish_closing
  split
  · exact (a.keeps_engine _).exit _
  · exact .refl a

/-- No turn takes a close back, or moves its deadline. -/
theorem keeps_turn (a : Actor) (event : Event) (r : Readings) : a.Keeps (a.turn event r) := by
  unfold turn
  dsimp only
  split_ifs with hskip
  · exact .refl a
  · exact keeps_branch (not_not.mp (not_or.mp hskip).2)
  · exact (keeps_branch (not_not.mp (not_or.mp hskip).2)).trans (keeps_finish_closing ..)

/-- A turn on the timer at the deadline is the last one. -/
theorem exited_of_timer {r : Readings} (hclosing : a.closing = true) {deadline : Nat}
    (hdeadline : a.close_deadline = some deadline) (hlate : deadline ≤ r.closing) : (a.turn (.timer r) r).exited.isSome = true := by
  unfold turn
  dsimp only
  split_ifs with hskip hleft
  · exact hskip.resolve_right fun hnot => hnot trivial
  · exact hleft
  · have henabled : a.Enabled (.timer r) := trivial
    obtain ⟨hstill, hsame⟩ := (keeps_branch henabled).lasts hclosing
    unfold finish_closing
    rw [if_pos ⟨hstill, .inr ⟨deadline, hsame.trans hdeadline, hlate⟩⟩]
    rfl

end Actor

end kcp_tokio.actor

namespace kcp_tokio.connection

namespace Connection

variable {c : Connection}

/-- The task holds its ends of the channels until it exits. -/
structure Held (c : Connection) : Prop where
  bound : Actor.Bound c.actor
  send : c.stream.send_tx.receiver_open = c.actor.exited.isNone
  cmd : c.cmd_tx.receiver_open = c.actor.exited.isNone

/-- What a step does to both ends, and to a close that has begun. -/
structure Steps (c after : Connection) : Prop where
  held : Held c → Held after
  lasts : c.actor.Lasts after.actor

/-- Nothing of the task is dropped. -/
theorem Steps.of_same {after : Connection} (hactor : c.actor.Keeps after.actor) (hexited : after.actor.exited = c.actor.exited)
    (hsend : after.stream.send_tx.receiver_open = c.stream.send_tx.receiver_open)
    (hcmd : after.cmd_tx.receiver_open = c.cmd_tx.receiver_open) : Steps c after where
  held := fun h => ⟨hactor.bound h.bound, by rw [hsend, hexited, h.send], by rw [hcmd, hexited, h.cmd]⟩
  lasts := hactor.lasts

/-- A call of the owner does not touch the end of the task. -/
theorem Commands.receiver {after : Connection} (h : Commands c after) :
    after.cmd_tx.receiver_open = c.cmd_tx.receiver_open := by
  rcases h with heq | ⟨_, _, heq⟩ <;> rw [heq]
  rfl

/-- A call of the owner neither ends the task nor takes a close back. -/
theorem Owner.steps {after : Connection} {messages : List Bytes} (h : Owner c after messages) : Steps c after :=
  .of_same (.of_same h.sender h.exited h.closing ((congrArg Actor.close_deadline h.task).trans rfl)) h.exited h.hands.receiver
    h.commands.receiver

/-- A branch comes to its end: if the task exits, it drops its ends. -/
theorem Steps.drive {mid : Connection} (h : Steps c mid) (hrunning : mid.actor.exited = none) {actor : Actor}
    (hkeeps : mid.actor.Keeps actor) : Steps c (mid.drive actor) where
  held := fun hheld => by
    obtain ⟨hbound, hsend, hcmd⟩ := h.held hheld
    refine ⟨⟨(hkeeps.bound hbound).sender, (hkeeps.bound hbound).deadline⟩, ?_, ?_⟩
    · unfold Connection.drive
      dsimp only
      cases actor.exited with
      | none => exact hsend.trans (by rw [hrunning])
      | some reason => rfl
    · unfold Connection.drive
      dsimp only
      cases actor.exited with
      | none => exact hcmd.trans (by rw [hrunning])
      | some reason => rfl
  lasts := h.lasts.trans hkeeps.lasts

theorem Steps.refl (c : Connection) : Steps c c := .of_same (.refl _) rfl rfl rfl

theorem steps_on_command (hrunning : c.actor.exited = none) (cmd : EngineCmd) (finds : Finds) :
    Steps c (c.on_command cmd finds) := by
  have htaken : ∀ cmd_tx pending_flush, cmd_tx.receiver_open = c.cmd_tx.receiver_open →
      Steps c { c with cmd_tx, pending_flush } := fun _ _ hcmd => .of_same (.refl _) rfl rfl hcmd
  have hall : Steps c (take_all { c with cmd_tx := c.cmd_tx.take 1 }) := .of_same (.refl _) rfl rfl rfl
  cases cmd with
  | Flush =>
    have hreplied : ∀ result, Steps c (reply { c with cmd_tx := c.cmd_tx.take 1 } result) := fun _ => htaken _ _ rfl
    exact (hreplied _).drive hrunning (Actor.keeps_turn ..)
  | Stats => exact (htaken (c.cmd_tx.take 1) c.pending_flush rfl).drive hrunning (Actor.keeps_turn ..)
  | IsAlive => exact (htaken (c.cmd_tx.take 1) c.pending_flush rfl).drive hrunning (Actor.keeps_turn ..)
  | Close => exact hall.drive hrunning (Actor.keeps_turn ..)

theorem steps_flush_writes (hrunning : c.actor.exited = none) (r : Readings) : Steps c (c.flush_writes r) := by
  have hflush := c.actor.keeps_engine (c.actor.engine.flush r.flush).1
  unfold flush_writes
  dsimp only
  split
  · exact (Steps.refl c).drive hrunning (hflush.exit _)
  · exact (Steps.refl c).drive hrunning ((hflush.trans (Actor.keeps_engine ..)).trans (Actor.keeps_finish_closing ..))

/-- A step of the task takes no close back, unless the task ends with it. -/
theorem steps_advance (c : Connection) (finds : Finds) : Steps c (c.advance finds) := by
  have hphase : ∀ phase, Steps c { c with phase } := fun _ => .of_same (.refl _) rfl rfl rfl
  have hpass : ∀ clk data, Steps c (c.pass clk data) := fun _ _ => .of_same (Actor.keeps_engine ..) rfl rfl rfl
  unfold advance
  by_cases hexited : c.actor.exited.isSome = true
  · rw [if_pos hexited]
    exact .refl c
  rw [if_neg hexited]
  have hrunning : c.actor.exited = none := Option.not_isSome_iff_eq_none.mp hexited
  split
  · split
    · exact (Steps.refl c).drive hrunning (Actor.keeps_turn ..)
    · exact hphase .command
  · split
    · split
      · exact hphase .input
      · exact steps_on_command hrunning _ finds
    · exact hphase .input
  · split
    · exact (Steps.refl c).drive hrunning (Actor.keeps_turn ..)
    · exact hphase .send
  · split
    · split
      · exact hpass ..
      · exact hphase .timer
    · exact hphase .timer
  · split
    · split
      · exact hpass ..
      · exact steps_flush_writes hrunning _
    · exact steps_flush_writes hrunning _

/-- Whoever takes the step. -/
theorem steps_step (c : Connection) (event : Event) : Steps c (c.step event) := by
  cases event with
  | advance finds => exact c.steps_advance finds
  | _ => exact Owner.steps (c.owner_step trivial)

/-! ### Runs -/

/-- A new task holds its ends. -/
theorem held_launch (config : config.KcpConfig) (engine : KcpEngine) (boot : Boot) : Held (launch config engine boot) where
  bound := ⟨sender_drain_recv .., fun h => by cases h⟩
  send := rfl
  cmd := rfl

/-- In a whole run a close is not taken back. -/
theorem steps_run (c : Connection) (events : List Event) : Steps c (Trace.run step c events) := by
  induction events using List.reverseRecOn with
  | nil => exact .refl c
  | append_singleton events event ih =>
    obtain ⟨hheld, hlasts⟩ := steps_step (Trace.run step c events) event
    rw [Trace.run_concat]
    exact ⟨fun h => hheld (ih.held h), ih.lasts.trans hlasts⟩

/-- A task that has exited stays so. -/
theorem exited_run {c : Connection} (h : c.actor.exited.isSome = true) (events : List Event) :
    (Trace.run step c events).actor.exited = c.actor.exited := by
  induction events using List.reverseRecOn with
  | nil => rfl
  | append_singleton events event ih =>
    rw [Trace.run_concat]
    generalize Trace.run step c events = mid at ih ⊢
    cases event with
    | advance finds =>
      have hsame : mid.advance finds = mid := if_pos (by rw [ih, h])
      change (mid.advance finds).actor.exited = _
      rw [hsame, ih]
    | _ => exact (Owner.exited (mid.owner_step (by exact trivial))).trans ih

/-- What a flush comes to once the task is gone: its reply, if that has come. -/
def outcome (flush : PendingFlush) : Except IoError Unit :=
  match flush.reply with
  | some result => result.mapError fun e => .Other (KcpError.from_core e).to_string
  | none => .error (.Other (KcpError.Connection .Closed).to_string)

def verdict (self : Connection) : Except IoError Unit :=
  (self.pending_flush.map outcome).getD (.error (.Other (KcpError.Connection .Closed).to_string))

/-- A channel without a receiver takes nothing. -/
theorem try_send_of_shut {α : Type} {channel : Channel α} (h : channel.receiver_open = false) (value : α) :
    channel.try_send value = .error .closed := by
  have hnone : ¬ channel.HasRoom := fun hroom => absurd (hroom.1.symm.trans h) (by decide)
  rw [Channel.try_send_of_full hnone, if_pos h]

/-- A flush that can no longer be asked for is answered at once. -/
theorem poll_pending_flush_of_shut (hcmd : c.cmd_tx.receiver_open = false) {flush : PendingFlush}
    (hunasked : flush.requested = false → flush.reply = none) :
    (c.poll_pending_flush flush false false).2 = .ready (outcome flush) := by
  unfold poll_pending_flush outcome
  cases hrequested : flush.requested with
  | false =>
    rw [if_neg (by decide), if_neg (by decide), try_send_of_shut hcmd, hunasked hrequested]
  | true =>
    rw [if_pos rfl]
    unfold poll_reply
    rw [if_neg (by decide), if_neg (by rw [hcmd]; decide)]
    cases flush.reply <;> rfl

/-- The command can no longer be placed, and there is no task to wait for. -/
theorem poll_pending_close_of_shut (hcmd : c.cmd_tx.receiver_open = false) (hexited : c.actor.exited.isSome = true)
    (closing : PendingClose) (elapsed : Bool) : c.poll_pending_close closing false false elapsed = (c, none) := by
  have htask : ∀ closing, c.poll_task closing false elapsed = none := fun closing =>
    if_neg fun h => h.2 (.inl ⟨rfl, hexited⟩)
  unfold poll_pending_close
  rw [if_neg Bool.false_ne_true, try_send_of_shut hcmd]
  split
  · rw [htask]
  · dsimp only
    rw [htask]

/-- The task is gone, and no call of the owner waits. -/
structure Resolved (c : Connection) : Prop where
  exited : c.actor.exited.isSome = true
  write : ∀ buf, ∃ e, (c.poll_write buf false).2 = .ready (.error e)
  send : ∀ data, ∃ e, (c.send data false).2 = .ready (.error e)
  flush : (c.poll_flush false false).2 = .ready (if c.stream.closed then .ok () else c.verdict)
  read : ∀ remaining, (c.poll_read remaining false).2 ≠ .pending
  recv : (c.recv false).2 ≠ .pending
  shutdown : (c.poll_shutdown false false).2 = .ready (.ok ())
  close : ∀ elapsed, (c.close false false elapsed).2 = .ready (.ok ())

/-- A channel whose sender is gone does not keep its reader waiting. -/
theorem poll_recv_ne_pending {α : Type} {channel : Channel α} (h : channel.sender_open = false) :
    channel.poll_recv.2 ≠ .pending := by
  cases hqueue : channel.queue with
  | nil =>
    rw [Channel.poll_recv_nil hqueue, h]
    exact fun hnot => by cases hnot
  | cons message rest =>
    rw [Channel.poll_recv_cons hqueue]
    exact fun hnot => by cases hnot

/-! ### One call at a time -/

/-- A write into a channel without a receiver fails, whether it waits or is new. -/
theorem poll_write_of_shut (hsend : c.stream.send_tx.receiver_open = false) (buf : Bytes) :
    ∃ e, (c.poll_write buf false).2 = .ready (.error e) := by
  unfold poll_write KcpStream.poll_write
  dsimp only
  split_ifs
  · exact ⟨_, rfl⟩
  · split
    · unfold KcpStream.poll_pending_write
      rw [if_neg (by decide), try_send_of_shut hsend]
      exact ⟨_, rfl⟩
    · rw [try_send_of_shut hsend]
      exact ⟨_, rfl⟩

theorem send_of_shut (hsend : c.stream.send_tx.receiver_open = false) (data : Bytes) :
    ∃ e, (c.send data false).2 = .ready (.error e) := by
  unfold Connection.send MessageStream.send
  dsimp only
  rw [if_neg Bool.false_ne_true, try_send_of_shut hsend]
  split_ifs <;> exact ⟨_, rfl⟩

/-- A flush is answered, if not by its task then by the channel that is gone. -/
theorem poll_flush_of_shut (hcmd : c.cmd_tx.receiver_open = false) (hasked : Asked c.cmd_tx c.pending_flush) :
    (c.poll_flush false false).2 = .ready (if c.stream.closed then .ok () else c.verdict) := by
  unfold poll_flush verdict
  split_ifs
  · rfl
  · cases hpending : c.pending_flush with
    | none => exact poll_pending_flush_of_shut hcmd fun _ => rfl
    | some flush => exact poll_pending_flush_of_shut hcmd (hasked.unasked flush hpending)

/-- A read does not wait for a channel that has something, or whose sender is gone. -/
theorem poll_read_ne_pending (hdata : c.stream.data_rx.poll_recv.2 ≠ .pending) (remaining : Nat) :
    (c.poll_read remaining false).2 ≠ .pending := by
  change (c.stream.poll_read remaining false).2 ≠ .pending
  unfold KcpStream.poll_read
  rw [if_neg Bool.false_ne_true]
  split_ifs
  · exact fun hnot => by cases hnot
  · exact fun hnot => by cases hnot
  · split
    · exact fun hnot => by cases hnot
    · exact fun hnot => by cases hnot
    · next hpending => exact absurd (congrArg Prod.snd hpending) hdata

theorem recv_ne_pending (hdata : c.stream.data_rx.poll_recv.2 ≠ .pending) : (c.recv false).2 ≠ .pending := by
  change (c.stream.recv false).2 ≠ .pending
  unfold KcpStream.recv
  rw [if_neg Bool.false_ne_true]
  split_ifs
  · exact fun hnot => by cases hnot
  · exact hdata

/-- A shutdown has nothing left to wait for. -/
theorem poll_shutdown_of_shut (hcmd : c.cmd_tx.receiver_open = false) (hexited : c.actor.exited.isSome = true) :
    (c.poll_shutdown false false).2 = .ready (.ok ()) := by
  unfold poll_shutdown
  split_ifs with hclosed
  · rfl
  · have hnone := poll_pending_close_of_shut hcmd hexited
      (c.pending_shutdown.getD { requested := false, joins := c.actor_task }) false
    dsimp only
    rw [hnone]
    change (c.stream.poll_shutdown true).2 = _
    unfold KcpStream.poll_shutdown
    rw [if_neg hclosed, if_pos rfl]

theorem poll_close_of_shut (hcmd : c.cmd_tx.receiver_open = false) (hexited : c.actor.exited.isSome = true)
    (closing : PendingClose) (elapsed : Bool) : (c.poll_close closing false false elapsed).2 = .ready (.ok ()) := by
  unfold poll_close
  rw [poll_pending_close_of_shut hcmd hexited]
  rfl

/-- A close has nothing left to wait for, whether it waits or is new. -/
theorem close_of_shut (hcmd : c.cmd_tx.receiver_open = false) (hexited : c.actor.exited.isSome = true) (elapsed : Bool) :
    (c.close false false elapsed).2 = .ready (.ok ()) := by
  unfold Connection.close
  split
  · exact poll_close_of_shut hcmd hexited ..
  · split_ifs
    · rfl
    · exact poll_close_of_shut (by exact hcmd) (by exact hexited) ..

/-- Without its task, a stream keeps no caller waiting. -/
theorem resolved_of_exited (h : Held c) (hasked : Asked c.cmd_tx c.pending_flush) (hexited : c.actor.exited.isSome = true) :
    Resolved c := by
  have hgone : c.actor.exited.isNone = false := Option.isNone_eq_false_iff.mpr hexited
  have hsend : c.stream.send_tx.receiver_open = false := h.send.trans hgone
  have hcmd : c.cmd_tx.receiver_open = false := h.cmd.trans hgone
  have hdata : c.stream.data_rx.poll_recv.2 ≠ .pending := by
    apply poll_recv_ne_pending
    rw [c.one_channel]
    exact h.bound.sender.trans hgone
  exact {
    exited := hexited
    write := poll_write_of_shut hsend
    send := send_of_shut hsend
    flush := poll_flush_of_shut hcmd hasked
    read := poll_read_ne_pending hdata
    recv := recv_ne_pending hdata
    shutdown := poll_shutdown_of_shut hcmd hexited
    close := close_of_shut hcmd hexited }

/-! ### The close -/

/-- The turn that takes a close sets the deadline. -/
theorem deadline_of_close (hphase : c.phase = .command) {rest : List EngineCmd} (hnext : c.cmd_tx.queue = .Close :: rest)
    (hopen : c.actor.closing = false) (hrunning : c.actor.exited = none) (finds : Finds) :
    (c.advance finds).actor.closing = true ∧
      (c.advance finds).actor.close_deadline = some (finds.readings.linger + 10000) := by
  have hstep : c.advance finds = c.on_command .Close finds := by
    unfold advance
    rw [if_neg (by rw [hrunning]; decide), hphase]
    dsimp only
    rw [hnext]
    exact if_neg (by rw [hopen]; decide)
  rw [hstep]
  change (c.actor.turn (.command (some .Close) (c.waiting finds.clk) finds.readings) finds.readings).closing = true ∧
    (c.actor.turn (.command (some .Close) (c.waiting finds.clk) finds.readings) finds.readings).close_deadline = _
  unfold Actor.turn
  rw [if_neg (by rw [hrunning, not_or]; exact ⟨by decide, not_not.mpr hopen⟩)]
  dsimp only
  split
  · exact ⟨rfl, rfl⟩
  · obtain ⟨hstill, hsame⟩ := (Actor.keeps_finish_closing (c.actor.branch
      (.command (some .Close) (c.waiting finds.clk) finds.readings)) finds.readings).lasts rfl
    exact ⟨hstill, hsame⟩

end Connection

open Connection

/-- A task that takes a close is gone after its first turn on the timer ten seconds later, or earlier,
whatever has happened in between; and then no call of the owner waits. -/
theorem close_ends (config : config.KcpConfig) (engine : KcpEngine) (boot : Boot) (events : List Event) (finds : Finds)
    (hphase : (Trace.run step (launch config engine boot) events).phase = .command)
    (hnext : (Trace.run step (launch config engine boot) events).cmd_tx.queue.head? = some .Close)
    (hopen : (Trace.run step (launch config engine boot) events).actor.closing = false)
    (between : List Event) (late : Finds)
    (hturn : (Trace.run step (launch config engine boot)
      (events ++ .advance finds :: between)).phase = .timer)
    (hfired : late.fired = true) (hlate : finds.readings.linger + 10000 ≤ late.readings.closing) (after : List Event) :
    Resolved (Trace.run step (launch config engine boot)
      (events ++ .advance finds :: between ++ .advance late :: after)) := by
  have hheld : ∀ events, Held (Trace.run step (launch config engine boot) events) := fun events =>
    (steps_run _ events).held (held_launch ..)
  apply resolved_of_exited (hheld _) (asked_run config _ _)
  generalize launch config engine boot = first at *
  rw [Trace.run_append, Trace.run_cons]
  suffices hlast :
      (step (Trace.run step first (events ++ .advance finds :: between)) (.advance late)).actor.exited.isSome = true by
    rw [exited_run hlast]
    exact hlast
  rw [Trace.run_append, Trace.run_cons] at hturn ⊢
  by_cases hrunning : (Trace.run step first events).actor.exited = none
  · obtain ⟨rest, hqueue⟩ := List.head?_eq_some_iff.mp hnext
    obtain ⟨hclosing, hdeadline⟩ := deadline_of_close hphase hqueue hopen hrunning finds
    obtain ⟨hstill, hsame⟩ := (steps_run ((Trace.run step first events).advance finds) between).lasts hclosing
    change (Trace.run step ((Trace.run step first events).advance finds) between).phase = .timer at hturn
    change ((Trace.run step ((Trace.run step first events).advance finds) between).advance late).actor.exited.isSome = true
    generalize Trace.run step ((Trace.run step first events).advance finds) between = c at *
    unfold advance
    split
    · next hexited => exact hexited
    · rw [hturn]
      dsimp only
      exact Actor.exited_of_timer hstill (hsame.trans hdeadline) hlate
  · have hexited : (Trace.run step first events).actor.exited.isSome = true := Option.isSome_iff_ne_none.mpr hrunning
    have hlast := exited_run hexited (.advance finds :: between ++ [.advance late])
    rw [Trace.run_concat, Trace.run_cons] at hlast
    rw [hlast]
    exact hexited

/-- The owner shuts the stream down, and nothing that the task sends is acknowledged. -/
def unanswered : List Event := [.poll_write [1, 2, 3] false, .poll_shutdown false false, .advance quiet]

/-- Meanwhile the owner gives up on it, and closes the stream. -/
def given_up : List Event := [.poll_shutdown false false, .close true false false, .drop_close]

/-- Ten seconds later. -/
def late : Finds := { quiet with fired := true, readings := .at 10000 }

/-- The owner shuts down, closes and gives up; ten seconds later the task is gone. -/
theorem close_ends_unanswered : Resolved (Trace.run step (launch .default (.new 1 .default 0 0) .plain)
    (unanswered ++ .advance quiet :: given_up ++ .advance late :: [.poll_write [4] false])) :=
  close_ends .default (.new 1 .default 0 0) .plain unanswered quiet (by decide +kernel) (by decide +kernel) (by decide +kernel)
    given_up late (by decide +kernel) rfl (by decide) [.poll_write [4] false]

/-! ### The end of the data -/

namespace Connection

/-- No read falls between two reservations of one turn, and none overtakes another. -/
def ReadsInTurn (self : Connection) (event : Event) : Prop := Apart event ∧ self.InTurn event

/-- In every run what has been read and what is unread are all that was placed. -/
theorem readSoFar_run {c : Connection} (h : ReadSoFar [] c) {events : List Event} (hturn : Trace.Always step ReadsInTurn c events) :
    ReadSoFar (Trace.log step returned c events).flatten (Trace.run step c events) := by
  induction events using List.reverseRecOn with
  | nil => exact h
  | append_singleton events event ih =>
    obtain ⟨hbefore, hapart, hlast⟩ := Trace.always_concat.mp hturn
    rw [Trace.run_concat, Trace.log_concat, List.flatten_append]
    exact readSoFar_step (ih hbefore) hapart hlast

/-- The engine returns no empty message. -/
theorem messages_ne_nil (e : KcpEngine) (ops : List Op) : [] ∉ messages e ops := by
  induction ops generalizing e with
  | nil => exact List.not_mem_nil
  | cons op ops ih =>
    rw [messages_cons, List.mem_append, not_or]
    exact ⟨returned_ne_nil e op, ih _⟩

/-- A read of an open stream that finds nothing learns whether the task is gone. -/
theorem poll_read_empty (h : Held c) (hopen : c.stream.closed = false) (hbuf : c.stream.read_buf = [])
    (hqueue : c.stream.data_rx.queue = []) (remaining : Nat) :
    (c.poll_read remaining false).2 = if c.actor.exited.isNone then .pending else .ready [] := by
  change (c.stream.poll_read remaining false).2 = _
  unfold KcpStream.poll_read
  rw [if_neg (not_not.mpr hbuf), if_neg (Bool.eq_false_iff.mp hopen), if_neg Bool.false_ne_true, Channel.poll_recv_nil hqueue,
    c.one_channel, h.bound.sender]
  cases c.actor.exited.isNone <;> rfl

/-- No message in the data channel is empty. -/
theorem filled_run (config : config.KcpConfig) (engine : KcpEngine) (boot : Boot) (events : List Event) :
    [] ∉ (Trace.run step (launch config engine boot) events).actor.data_tx.sent := by
  obtain ⟨c, hc⟩ : ∃ c, c = launch config engine boot := ⟨_, rfl⟩
  rw [← hc]
  induction events using List.reverseRecOn with
  | nil =>
    rw [Trace.run_nil, hc]
    change [] ∉ (Actor.start (.new config boot.keep_alive_ms) engine (.new Bytes DATA_CHANNEL_CAPACITY) boot.last_probe boot.now
      boot.clk boot.pace).data_tx.sent
    rw [Actor.sent_start]
    exact messages_ne_nil _ _
  | append_singleton events event ih =>
    rw [Trace.run_concat, (makes_step (Trace.run step c events) event).placed, List.mem_append, not_or]
    exact ⟨ih, messages_ne_nil _ _⟩

end Connection

/-- On an open stream a read is told the end of the data exactly if the task is gone and every
byte that it has placed has been returned. On a closed one it is so exactly if all of them have
been returned but those still in the channel. -/
theorem end_of_data_iff (config : config.KcpConfig) (engine : KcpEngine) (boot : Boot) (hboot : boot.Apart) (events : List Event)
    (hturn : Trace.Always step ReadsInTurn (launch config engine boot) events) (remaining : Nat) (hroom : 0 < remaining) :
    ((Trace.run step (launch config engine boot) events).stream.closed = false →
      (((Trace.run step (launch config engine boot) events).poll_read remaining false).2 = .ready [] ↔
        (Trace.run step (launch config engine boot) events).actor.exited.isSome = true ∧
          (Trace.log step returned (launch config engine boot) events).flatten =
            (Trace.run step (launch config engine boot) events).actor.data_tx.sent.flatten)) ∧
    ((Trace.run step (launch config engine boot) events).stream.closed = true →
      (((Trace.run step (launch config engine boot) events).poll_read remaining false).2 = .ready [] ↔
        (Trace.log step returned (launch config engine boot) events).flatten ++
            (Trace.run step (launch config engine boot) events).actor.data_tx.queue.flatten =
          (Trace.run step (launch config engine boot) events).actor.data_tx.sent.flatten)) := by
  have hheld := (steps_run _ events).held (held_launch config engine boot)
  have hread := readSoFar_run (readSoFar_launch config engine hboot) hturn
  have hfilled := filled_run config engine boot events
  generalize Trace.run step (launch config engine boot) events = c at *
  generalize (Trace.log step returned (launch config engine boot) events).flatten = read at *
  have hqueue : [] ∉ c.stream.data_rx.queue := fun hmem =>
    hfilled (c.actor.data_tx.fifo.subset (c.one_channel ▸ hmem))
  constructor
  · intro hopen
    have hall : read = c.actor.data_tx.sent.flatten ↔ c.stream.read_buf = [] ∧ c.stream.data_rx.queue = [] := by
      rw [← hread, List.self_eq_append_right, KcpStream.unread, List.append_eq_nil_iff, List.flatten_eq_nil_iff]
      refine and_congr_right fun _ => ⟨fun hempty => ?_, fun hnil => by rw [hnil]; exact fun _ hmem => by cases hmem⟩
      exact List.eq_nil_iff_forall_not_mem.mpr fun message hmem => hqueue (hempty message hmem ▸ hmem)
    rw [hall]
    constructor
    · intro hend
      obtain ⟨hbuf, hdone⟩ := KcpStream.read_buf_of_end hroom hqueue hend
      have hnone := hdone.resolve_left (Bool.eq_false_iff.mp hopen)
      refine ⟨?_, hbuf, hnone⟩
      rw [poll_read_empty hheld hopen hbuf hnone] at hend
      split at hend
      · cases hend
      · next hexited => rwa [Option.isNone_iff_eq_none, ← ne_eq, ← Option.isSome_iff_ne_none] at hexited
    · rintro ⟨hexited, hbuf, hnone⟩
      rw [poll_read_empty hheld hopen hbuf hnone, if_neg]
      rwa [Option.isNone_iff_eq_none, ← ne_eq, ← Option.isSome_iff_ne_none]
  · intro hclosed
    have hall : read ++ c.actor.data_tx.queue.flatten = c.actor.data_tx.sent.flatten ↔ c.stream.read_buf = [] := by
      rw [← hread, KcpStream.unread, c.one_channel, List.append_right_inj, List.self_eq_append_left]
    rw [hall]
    constructor
    · exact fun hend => (KcpStream.read_buf_of_end hroom hqueue hend).1
    · intro hbuf
      change (c.stream.poll_read remaining false).2 = _
      unfold KcpStream.poll_read
      rw [if_neg (not_not.mpr hbuf), if_pos hclosed]

/-- A byte arrives and is read, and the input ends. -/
def deserted : List Event :=
  [.advance quiet, .advance quiet, .advance { quiet with packet := some (some (KcpSegment.push 1 0 [5] 0).bytes) },
    .poll_read 8 false, .advance quiet, .advance quiet, .advance { quiet with packet := some none }]

/-- Two messages arrive, and the owner closes the stream after the first of them. -/
def shut_early : List Event :=
  [.advance quiet, .advance quiet, .advance { quiet with
      packet := some (some ((KcpSegment.push 1 0 [5] 0).bytes ++ (KcpSegment.push 1 1 [6] 0).bytes)) },
    .poll_read 8 false, .close false false false]

/-- One byte, and the end after it; and an end with a byte still in the channel. -/
theorem end_of_data_iff_deserted :
    (Trace.log step returned (launch .default (.new 1 .default 0 0) .plain) deserted = [[5]] ∧
      ((Trace.run step (launch .default (.new 1 .default 0 0) .plain) deserted).poll_read 8 false).2 = .ready []) ∧
    (Trace.run step (launch .default (.new 1 .default 0 0) .plain) shut_early).actor.data_tx.queue = [[6]] ∧
      ((Trace.run step (launch .default (.new 1 .default 0 0) .plain) shut_early).poll_read 8 false).2 = .ready [] := by
  have hturn : Trace.Always step ReadsInTurn (launch .default (.new 1 .default 0 0) .plain) deserted := by
    refine Trace.always_of_forall fun c event hmem => ?_
    simp only [deserted, List.mem_cons, List.not_mem_nil, or_false] at hmem
    rcases hmem with rfl | rfl | rfl | rfl | rfl | rfl | rfl <;> exact ⟨by first | exact fun _ => rfl | trivial, trivial⟩
  have hshut : Trace.Always step ReadsInTurn (launch .default (.new 1 .default 0 0) .plain) shut_early := by
    refine Trace.always_of_forall fun c event hmem => ?_
    simp only [shut_early, List.mem_cons, List.not_mem_nil, or_false] at hmem
    rcases hmem with rfl | rfl | rfl | rfl | rfl <;> exact ⟨by first | exact fun _ => rfl | trivial, trivial⟩
  refine ⟨⟨by decide +kernel, ?_⟩, by decide +kernel, ?_⟩
  · exact ((end_of_data_iff .default (.new 1 .default 0 0) .plain (fun _ => rfl) deserted hturn 8 (by decide)).1
      (by decide +kernel)).mpr (by decide +kernel)
  · exact ((end_of_data_iff .default (.new 1 .default 0 0) .plain (fun _ => rfl) shut_early hshut 8 (by decide)).2
      (by decide +kernel)).mpr (by decide +kernel)

end kcp_tokio.connection
