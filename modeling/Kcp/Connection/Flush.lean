import Kcp.Stream.Write
import Kcp.Connection.Turn

/-! What a flush that has been answered says about the writes before it. -/

open Mpsc kcp_core.protocol kcp_core.error kcp_core.engine kcp_tokio.error kcp_tokio.stream kcp_tokio.actor

namespace kcp_tokio.connection

namespace Connection

variable {c : Connection}

/-! ### Where a write is -/

/-- While the task runs, a write is in the channel or has been passed to the engine, in the
order of the calls. A flush that is waited for was preceded by writes in this order, and its reply, if it
is a success, came after they had been passed. -/
structure Tracked (c : Connection) : Prop where
  taken : c.actor.exited = none → c.passed ++ c.stream.send_tx.queue = c.stream.send_tx.sent
  started : ∀ flush ∈ c.pending_flush, flush.before <+: c.stream.send_tx.sent
  answered : ∀ flush ∈ c.pending_flush, flush.reply = some (.ok ()) → flush.before <+: c.passed

/-- No flush waits yet. -/
theorem tracked_new (config : config.KcpConfig) (actor : Actor) : Tracked (new config actor) where
  taken := fun _ => rfl
  started := fun _ h => by cases h
  answered := fun _ h => by cases h

/-- A call that is about no flush. -/
theorem Tracked.of_owner (h : Tracked c) {after : Connection} {messages : List Bytes} (howner : Owner c after messages)
    (hnone : Unasked c after) : Tracked after where
  taken := fun hrunning => by
    rw [howner.passed, howner.hands.queue, howner.hands.sent, ← List.append_assoc, h.taken (howner.exited ▸ hrunning)]
  started := fun flush hwaited => by
    rw [howner.hands.sent]
    exact (h.started flush (hnone.flush ▸ hwaited)).trans (List.prefix_append ..)
  answered := fun flush hwaited hok => by
    rw [howner.passed]
    exact h.answered flush (hnone.flush ▸ hwaited) hok

/-- A flush that goes on waiting is tracked with what it was started after. -/
theorem Tracked.wait (h : Tracked c) (cmd_tx : Channel EngineCmd) {flush : PendingFlush}
    (hstarted : flush.before <+: c.stream.send_tx.sent)
    (hanswered : flush.reply = some (.ok ()) → flush.before <+: c.passed) :
    Tracked { c with cmd_tx, pending_flush := some flush } := by
  refine ⟨h.taken, fun other hother => ?_, fun other hother => ?_⟩
  · cases hother
    exact hstarted
  · cases hother
    exact hanswered

/-- A flush that is over is tracked no longer. -/
theorem Tracked.no_flush (h : Tracked c) (cmd_tx : Channel EngineCmd) : Tracked { c with cmd_tx, pending_flush := none } :=
  ⟨h.taken, fun _ hother => (by cases hother), fun _ hother => (by cases hother)⟩

/-- To wait for the reply changes nothing that is tracked. -/
theorem tracked_poll_reply (h : Tracked c) (cmd_tx : Channel EngineCmd) (flush : PendingFlush)
    (hstarted : flush.before <+: c.stream.send_tx.sent)
    (hanswered : flush.reply = some (.ok ()) → flush.before <+: c.passed) (spent : Bool) :
    Tracked ({ c with cmd_tx }.poll_reply flush spent).1 := by
  unfold poll_reply
  split
  · exact h.wait cmd_tx hstarted hanswered
  · split
    · exact h.no_flush cmd_tx
    · split
      · exact h.wait cmd_tx hstarted hanswered
      · exact h.no_flush cmd_tx

/-- A flush that waits stays tracked when its command is placed. -/
theorem tracked_poll_pending_flush (h : Tracked c) {flush : PendingFlush}
    (hstarted : flush.before <+: c.stream.send_tx.sent)
    (hanswered : flush.reply = some (.ok ()) → flush.before <+: c.passed) (spent_send spent_reply : Bool) :
    Tracked (c.poll_pending_flush flush spent_send spent_reply).1 := by
  unfold poll_pending_flush
  split
  · exact tracked_poll_reply h c.cmd_tx flush hstarted hanswered spent_reply
  · split
    · exact h.wait c.cmd_tx hstarted hanswered
    · split
      · exact tracked_poll_reply h _ { flush with requested := true } hstarted hanswered spent_reply
      · exact h.no_flush c.cmd_tx
      · exact h.wait c.cmd_tx hstarted hanswered

/-- A flush is tracked from its first poll on. -/
theorem tracked_poll_flush (h : Tracked c) (spent_send spent_reply : Bool) :
    Tracked (c.poll_flush spent_send spent_reply).1 := by
  unfold poll_flush
  split_ifs
  · exact h
  · split
    · next flush hflush =>
      exact tracked_poll_pending_flush h (h.started flush hflush) (h.answered flush hflush) spent_send spent_reply
    · exact tracked_poll_pending_flush h List.prefix_rfl (fun hreply => by cases hreply) spent_send spent_reply

/-! ### Steps of the task -/

/-- The end of a branch leaves the messages passed on where they are. -/
theorem Tracked.drive (h : Tracked c) (hrunning : c.actor.exited = none) (actor : Actor) : Tracked (c.drive actor) := by
  refine ⟨fun hnone => ?_, fun flush hflush => ?_, h.answered⟩
  · have hkept : (c.drive actor).stream.send_tx = c.stream.send_tx := if_neg (by
      rw [show actor.exited = none from hnone]
      decide)
    rw [hkept]
    exact h.taken hrunning
  · have hkept : (c.drive actor).stream.send_tx.sent = c.stream.send_tx.sent := by
      unfold Connection.drive
      dsimp only
      split_ifs <;> rfl
    rw [hkept]
    exact h.started flush hflush

/-- The next message of the channel is passed to the engine. -/
theorem Tracked.pass (h : Tracked c) {data : Bytes} {rest : List Bytes} (hqueue : c.stream.send_tx.queue = data :: rest)
    (clk : Clock) : Tracked (c.pass clk data) := by
  refine ⟨fun hrunning => ?_, h.started, fun flush hflush hok => ?_⟩
  · have htaken := h.taken hrunning
    rw [hqueue] at htaken
    simp only [Connection.pass, Channel.take_queue, Channel.take_sent, hqueue, List.drop_one, List.tail_cons]
    rw [List.append_assoc]
    exact htaken
  · exact (h.answered flush hflush hok).trans (List.prefix_append ..)

/-- After a close everything has been passed on. -/
theorem Tracked.take_all (h : Tracked c) : Tracked c.take_all := by
  refine ⟨fun hrunning => ?_, h.started, fun flush hflush hok => ?_⟩
  · simp only [Connection.take_all, Channel.take_queue, Channel.take_sent, List.drop_length, List.append_nil]
    exact h.taken hrunning
  · exact (h.answered flush hflush hok).trans (List.prefix_append ..)

/-- The task takes the command of a flush. -/
def TakesFlush (self : Connection) : Prop :=
  self.actor.exited = none ∧ self.phase = .command ∧ self.actor.closing = false ∧ self.cmd_tx.queue.head? = some .Flush

/-- When the task takes the command of a flush, no write before that flush is in the channel. And
no flush is polled on a closed stream, where it succeeds at once. -/
def InOrder (self : Connection) : Event → Prop
  | .advance _ => self.TakesFlush → ∀ flush ∈ self.pending_flush,
      flush.before.length + self.stream.send_tx.queue.length ≤ self.stream.send_tx.sent.length
  | .poll_flush .. => self.stream.closed = false
  | _ => True

instance decidableInOrder (self : Connection) : (event : Event) → Decidable (self.InOrder event)
  | .advance _ => inferInstanceAs (Decidable ((_ ∧ _ ∧ _ ∧ _) → ∀ flush ∈ self.pending_flush, _))
  | .poll_flush .. => inferInstanceAs (Decidable (self.stream.closed = false))
  | .poll_write .. | .send .. | .poll_read .. | .recv _ | .poll_shutdown .. | .close .. | .drop_close | .request _ =>
    .isTrue trivial

/-- What is no longer in the channel has been passed to the engine. -/
theorem Tracked.before_passed_iff (h : Tracked c) (hrunning : c.actor.exited = none) {flush : PendingFlush}
    (hflush : c.pending_flush = some flush) :
    flush.before <+: c.passed ↔
      flush.before.length + c.stream.send_tx.queue.length ≤ c.stream.send_tx.sent.length := by
  have htaken := h.taken hrunning
  have hstarted := h.started flush hflush
  have hlength := congrArg List.length htaken
  rw [List.length_append] at hlength
  constructor
  · intro hpassed
    have hle := hpassed.length_le
    omega
  · intro hle
    rw [← htaken] at hstarted
    exact List.prefix_of_prefix_length_le hstarted (List.prefix_append ..) (by omega)

/-- The flush that is answered was preceded by writes that have been passed. -/
theorem Tracked.reply (h : Tracked c) (hpassed : ∀ flush ∈ c.pending_flush, flush.before <+: c.passed)
    (result : KcpCoreResult Unit) : Tracked (c.reply result) := by
  refine ⟨h.taken, fun flush hflush => ?_, fun flush hflush _ => ?_⟩
  · obtain ⟨asked, hasked, rfl⟩ := Option.map_eq_some_iff.mp hflush
    exact h.started asked hasked
  · obtain ⟨asked, hasked, rfl⟩ := Option.map_eq_some_iff.mp hflush
    exact hpassed asked hasked

/-- A flush that is answered in order has all its writes passed on. -/
theorem tracked_on_command (h : Tracked c) (hrunning : c.actor.exited = none) (cmd : EngineCmd) (finds : Finds)
    (horder : cmd = .Flush → ∀ flush ∈ c.pending_flush, flush.before <+: c.passed) : Tracked (c.on_command cmd finds) := by
  have htaken : Tracked { c with cmd_tx := c.cmd_tx.take 1 } := ⟨h.taken, h.started, h.answered⟩
  cases cmd with
  | Flush => exact (htaken.reply (horder rfl) _).drive hrunning _
  | Stats => exact htaken.drive hrunning _
  | IsAlive => exact htaken.drive hrunning _
  | Close => exact htaken.take_all.drive hrunning _

/-- The flush after the loop answers nobody. -/
theorem tracked_flush_writes (h : Tracked c) (hrunning : c.actor.exited = none) (r : Readings) :
    Tracked (c.flush_writes r) := by
  unfold flush_writes
  dsimp only
  split
  · exact h.drive hrunning _
  · exact h.drive hrunning _

/-- A step of the task that answers in order keeps track. -/
theorem tracked_advance (h : Tracked c) (finds : Finds) (horder : c.InOrder (.advance finds)) :
    Tracked (c.advance finds) := by
  have hphase : ∀ phase, Tracked { c with phase } := fun phase => ⟨h.taken, h.started, h.answered⟩
  unfold advance
  by_cases hexited : c.actor.exited.isSome = true
  · rw [if_pos hexited]
    exact h
  rw [if_neg hexited]
  have hrunning : c.actor.exited = none := Option.not_isSome_iff_eq_none.mp hexited
  cases hat : c.phase with
  | timer =>
    dsimp only
    split
    · exact h.drive hrunning _
    · exact hphase .command
  | command =>
    dsimp only
    cases hqueue : c.cmd_tx.queue with
    | nil => exact hphase .input
    | cons cmd rest =>
      dsimp only
      split
      · exact hphase .input
      · next hclosing =>
        refine tracked_on_command h hrunning cmd finds fun hcmd flush hflush => ?_
        have htakes : c.TakesFlush := ⟨hrunning, hat, Bool.eq_false_iff.mpr hclosing, by rw [hqueue, hcmd]; rfl⟩
        exact (h.before_passed_iff hrunning hflush).mpr (horder htakes flush hflush)
  | input =>
    dsimp only
    split
    · exact h.drive hrunning _
    · exact hphase .send
  | send =>
    dsimp only
    cases hqueue : c.stream.send_tx.queue with
    | nil => exact hphase .timer
    | cons data rest =>
      dsimp only
      split
      · exact h.pass hqueue _
      · exact hphase .timer
  | absorb =>
    dsimp only
    cases hqueue : c.stream.send_tx.queue with
    | nil => exact tracked_flush_writes h hrunning _
    | cons data rest =>
      dsimp only
      split
      · exact h.pass hqueue _
      · exact tracked_flush_writes h hrunning _

/-- Every step that answers in order keeps track, whoever takes it. -/
theorem tracked_step (h : Tracked c) (event : Event) (horder : c.InOrder event) : Tracked (c.step event) := by
  cases event with
  | poll_flush spent_send spent_reply => exact tracked_poll_flush h spent_send spent_reply
  | advance finds => exact tracked_advance h finds horder
  | _ => exact h.of_owner (c.owner_step trivial) (c.unasked_step trivial)

/-! ### What a flush reports -/

/-- A flush that reports success reports that every write before it has been passed to the
engine. -/
def Barrier (self : Connection) : Event → Prop
  | .poll_flush spent_send spent_reply => (self.poll_flush spent_send spent_reply).2 = .ready (.ok ()) →
      ∃ flush, self.pending_flush = some flush ∧ flush.before <+: self.passed
  | _ => True

/-- A flush succeeds with the reply of its task alone. -/
theorem reply_of_poll_reply (flush : PendingFlush) {spent : Bool} (h : (c.poll_reply flush spent).2 = .ready (.ok ())) :
    flush.reply = some (.ok ()) := by
  unfold poll_reply at h
  split at h
  · cases h
  · split at h
    · next result hreply =>
      cases result with
      | ok _ => exact hreply
      | error e => cases h
    · split at h <;> cases h

/-- However many of its steps one poll takes. -/
theorem reply_of_poll_pending_flush {flush : PendingFlush} {spent_send spent_reply : Bool}
    (h : (c.poll_pending_flush flush spent_send spent_reply).2 = .ready (.ok ())) : flush.reply = some (.ok ()) := by
  unfold poll_pending_flush at h
  split at h
  · exact reply_of_poll_reply flush h
  · split at h
    · cases h
    · split at h
      · exact reply_of_poll_reply { flush with requested := true } h
      · cases h
      · cases h

/-- A tracked flush that succeeds is a barrier. -/
theorem Tracked.barrier (h : Tracked c) {event : Event} (horder : c.InOrder event) : c.Barrier event := by
  cases event with
  | poll_flush spent_send spent_reply =>
    intro hok
    unfold poll_flush at hok
    rw [if_neg (Bool.eq_false_iff.mp horder)] at hok
    split at hok
    · next flush hflush => exact ⟨flush, hflush, h.answered flush hflush (reply_of_poll_pending_flush hok)⟩
    · cases reply_of_poll_pending_flush hok
  | _ => trivial

/-- The reply is exact: a flush that succeeds is a barrier at that moment exactly if its command
was in order. -/
theorem answer_iff (h : Tracked c) (hasked : Asked c.cmd_tx c.pending_flush) (hopen : c.stream.closed = false)
    (htakes : c.TakesFlush) {finds : Finds} (hok : (c.actor.engine.flush finds.readings.flush).2 = .ok ()) (spent_send : Bool) :
    (c.advance finds).Barrier (.poll_flush spent_send false) ↔ c.InOrder (.advance finds) := by
  obtain ⟨hrunning, hphase, hclosing, hhead⟩ := htakes
  obtain ⟨rest, hqueue⟩ := List.head?_eq_some_iff.mp hhead
  obtain ⟨flush, hflush, hrequested, _⟩ := hasked.waited (by rw [hqueue]; exact List.mem_cons_self)
  have hstep : c.advance finds = c.on_command .Flush finds := by
    unfold advance
    rw [if_neg (by rw [hrunning]; decide), hphase]
    dsimp only
    rw [hqueue]
    exact if_neg (by rw [hclosing]; decide)
  have hanswered : (c.advance finds).pending_flush = some { flush with reply := some (.ok ()) } := by
    rw [hstep, ← hok]
    exact congrArg (Option.map _) hflush
  have hpassed : (c.advance finds).passed = c.passed := by
    rw [hstep]
    rfl
  have hstill : (c.advance finds).stream.closed = false := by
    rw [hstep]
    exact hopen
  have hready : ((c.advance finds).poll_flush spent_send false).2 = .ready (.ok ()) := by
    unfold poll_flush
    rw [if_neg (by rw [hstill]; decide), hanswered]
    simp only [poll_pending_flush, hrequested, if_true, poll_reply, Bool.false_eq_true, if_false]
    rfl
  have hiff := h.before_passed_iff hrunning hflush
  simp only [Barrier, hready, forall_true_left, hanswered, hpassed, Option.some.injEq, exists_eq_left', InOrder]
  rw [hiff]
  constructor
  · intro hle _ other hother
    rw [hflush] at hother
    cases hother
    exact hle
  · exact fun horder => horder ⟨hrunning, hphase, hclosing, hhead⟩ flush hflush

/-- The end of a branch writes nothing. -/
theorem drive_sent (c : Connection) (actor : Actor) : (c.drive actor).stream.send_tx.sent = c.stream.send_tx.sent := by
  unfold drive
  dsimp only
  split <;> rfl

/-- The task only takes messages. -/
theorem advance_sent (c : Connection) (finds : Finds) : (c.advance finds).stream.send_tx.sent = c.stream.send_tx.sent := by
  have hflush : (c.flush_writes finds.readings).stream.send_tx.sent = c.stream.send_tx.sent := by
    unfold flush_writes
    dsimp only
    split <;> exact drive_sent ..
  unfold advance
  split
  · rfl
  split
  · split
    · exact drive_sent ..
    · rfl
  · split
    · next cmd _ _ =>
      split
      · rfl
      · cases cmd <;> exact drive_sent ..
    · rfl
  · split
    · exact drive_sent ..
    · rfl
  · split
    · split <;> rfl
    · rfl
  · split
    · split
      · rfl
      · exact hflush
    · exact hflush

/-- The messages placed in the send channel are the writes reported. -/
theorem sent_eq_reported (config : config.KcpConfig) (actor : Actor) (events : List Event) :
    (Trace.run step (new config actor) events).stream.send_tx.sent = Trace.log step reported (new config actor) events := by
  induction events using List.reverseRecOn with
  | nil => rfl
  | append_singleton events event ih =>
    rw [Trace.run_concat, Trace.log_concat, ← ih]
    cases event with
    | advance finds =>
      rw [step, advance_sent]
      exact (List.append_nil _).symm
    | _ => exact sent_of_call _ trivial

end Connection

open Connection

/-- While no flush overtakes a write or is polled on a closed stream, a flush that reports success
reports that every write reported before it was started has been passed to the engine. -/
theorem flush_is_barrier (config : config.KcpConfig) (actor : Actor) (events : List Event)
    (h : Trace.Always step InOrder (new config actor) events) :
    (Trace.run step (new config actor) events).stream.send_tx.sent = Trace.log step reported (new config actor) events ∧
      Trace.Always step Barrier (new config actor) events := by
  refine ⟨sent_eq_reported config actor events, ?_⟩
  suffices hrun : ∀ c, Tracked c → Trace.Always step InOrder c events → Trace.Always step Barrier c events from
    hrun _ (tracked_new config actor) h
  clear h
  induction events with
  | nil => exact fun _ _ _ => trivial
  | cons event events ih =>
    rintro c htracked ⟨hfirst, hrest⟩
    exact ⟨htracked.barrier hfirst, ih _ (tracked_step htracked event hfirst) hrest⟩

/-- The task of a new engine with the default settings. -/
def idle : Actor :=
  .start (.new .default none) (.new 1 .default 0 0) (.new Bytes DATA_CHANNEL_CAPACITY) 0 0 (.at 0) fun _ => 0

/-- Nothing has arrived, and the timer has not fired. -/
def quiet : Finds where
  fired := false
  packet := none
  clk := fun _ => .at 0
  readings := .at 0

/-- A byte is written, and after some steps of the task a flush is started, polled before and after
two more steps. -/
def flush_after (steps : Nat) : List Event :=
  [.poll_write [7] false] ++ List.replicate steps (.advance quiet) ++
    [.poll_flush false false, .advance quiet, .advance quiet, .poll_flush false false]

/-- The task has passed the byte before the flush is started. -/
theorem flush_is_barrier_passed :
    (Trace.run step (new .default idle) (flush_after 5)).stream.send_tx.sent =
        Trace.log step reported (new .default idle) (flush_after 5) ∧
      Trace.Always step Barrier (new .default idle) (flush_after 5) :=
  flush_is_barrier .default idle (flush_after 5) (by decide +kernel)

/-- The task takes the command first, and the flush reports success with the byte still in the
channel. -/
theorem flush_overtakes :
    Trace.log step reported (new .default idle) [.poll_write [7] false] = [[7]] ∧
      ((Trace.run step (new .default idle) [.poll_write [7] false, .poll_flush false false, .advance quiet,
        .advance quiet]).poll_flush false false).2 = .ready (.ok ()) ∧
      (Trace.run step (new .default idle) [.poll_write [7] false, .poll_flush false false, .advance quiet,
        .advance quiet]).passed = [] := by
  decide +kernel

end kcp_tokio.connection
