import Kcp.Connection.Owner

/-! What the steps of the task come to: a turn of its loop, and one reply to each flush. -/

open Mpsc kcp_core.protocol kcp_core.error kcp_core.engine kcp_tokio.error kcp_tokio.stream kcp_tokio.actor

namespace kcp_tokio.connection

namespace Connection

variable {c : Connection}

/-! ### The branch that takes writes -/

/-- The end of the branch, after its loop. -/
def end_write (actor : Actor) (r : Readings) : Actor :=
  let (engine, result) := actor.engine.flush r.flush
  let actor := { actor with engine }
  if fatal result then actor.exit .flush_send else { actor with engine := flush_output engine }.finish_closing r

/-- The step after the loop is the end of a turn of the send branch. -/
theorem flush_writes_actor (c : Connection) (r : Readings) : (c.flush_writes r).actor = end_write c.actor r := by
  unfold flush_writes end_write
  dsimp only
  split <;> rfl

/-- The loop takes the next message while the queue of the engine is short enough. -/
theorem advance_absorb {finds : Finds} (hphase : c.phase = .absorb) (hrunning : c.actor.exited = none) {data : Bytes}
    {rest : List Bytes} (hqueue : c.stream.send_tx.queue = data :: rest)
    (hroom : c.actor.engine.send_queue_len < c.actor.settings.send_high_water) :
    c.advance finds = c.pass (finds.clk 0) data := by
  unfold advance
  rw [if_neg (by rw [hrunning]; decide), hphase]
  dsimp only
  rw [hqueue]
  exact if_pos hroom

/-- Otherwise the branch comes to its end. -/
theorem advance_flush_writes {finds : Finds} (hphase : c.phase = .absorb) (hrunning : c.actor.exited = none)
    (hdone : c.stream.send_tx.queue = [] ∨ ¬ c.actor.engine.send_queue_len < c.actor.settings.send_high_water) :
    (c.advance finds).actor = end_write c.actor finds.readings := by
  rw [← flush_writes_actor]
  unfold advance
  rw [if_neg (by rw [hrunning]; decide), hphase]
  dsimp only
  cases hqueue : c.stream.send_tx.queue with
  | nil => rfl
  | cons data rest =>
    have hfull := hdone.resolve_left (by rw [hqueue]; exact List.cons_ne_nil data rest)
    dsimp only
    rw [if_neg hfull]

theorem pass_queue {data : Bytes} {rest : List Bytes} (hqueue : c.stream.send_tx.queue = data :: rest) (clk : Clock) :
    (c.pass clk data).stream.send_tx.queue = rest := by
  simp only [pass, Channel.take_queue, hqueue, List.drop_one, List.tail_cons]

/-- The loop passes what waits in the channel, as long as the queue of the engine is short
enough. -/
theorem absorb_steps (c : Connection) (finds : Finds) (hphase : c.phase = .absorb) (hrunning : c.actor.exited = none) :
    ∃ n, (Trace.run advance c (List.replicate n finds)).actor =
      end_write { c.actor with
        engine := absorb c.actor.settings.send_high_water c.actor.engine
          (c.stream.send_tx.queue.map fun data => (finds.clk 0, data)) } finds.readings := by
  cases hqueue : c.stream.send_tx.queue with
  | nil => exact ⟨1, advance_flush_writes hphase hrunning (.inl hqueue)⟩
  | cons data rest =>
    by_cases hroom : c.actor.engine.send_queue_len < c.actor.settings.send_high_water
    · have hrest := pass_queue hqueue (finds.clk 0)
      obtain ⟨n, hn⟩ := absorb_steps (c.pass (finds.clk 0) data) finds rfl hrunning
      refine ⟨n + 1, ?_⟩
      rw [List.replicate_succ, Trace.run_cons, advance_absorb hphase hrunning hqueue hroom, hn, hrest, List.map_cons]
      simp only [pass, absorb, if_pos hroom]
    · refine ⟨1, (advance_flush_writes hphase hrunning (.inr hroom)).trans ?_⟩
      rw [List.map_cons]
      simp only [absorb, if_neg hroom]
termination_by c.stream.send_tx.queue.length
decreasing_by
  rw [hrest, hqueue]
  exact Nat.lt_succ_self _

/-- When nothing comes between them, the steps of the branch are a turn of the loop. -/
theorem send_steps (c : Connection) (finds : Finds) (hphase : c.phase = .send) (hrunning : c.actor.exited = none)
    {data : Bytes} {more : List Bytes} (hqueue : c.stream.send_tx.queue = data :: more) (hopen : c.actor.send_closed = false)
    (hroom : c.actor.engine.send_queue_len < c.actor.settings.send_high_water) :
    ∃ n, (Trace.run advance c (List.replicate n finds)).actor =
      c.actor.step (.write (some (finds.clk 0, data)) (more.map fun data => (finds.clk 0, data)) finds.readings) := by
  have hstep : c.advance finds = c.pass (finds.clk 0) data := by
    unfold advance
    rw [if_neg (by rw [hrunning]; decide), hphase]
    dsimp only
    rw [hqueue]
    exact if_pos ⟨hopen, hroom⟩
  obtain ⟨n, hn⟩ := absorb_steps (c.pass (finds.clk 0) data) finds rfl hrunning
  refine ⟨n + 1, ?_⟩
  rw [List.replicate_succ, Trace.run_cons, hstep, hn, pass_queue hqueue]
  have henabled : c.actor.Enabled (.write (some (finds.clk 0, data)) (more.map fun data => (finds.clk 0, data)) finds.readings) :=
    ⟨hopen, hroom⟩
  simp only [Actor.step, Actor.turn, hrunning, Option.isSome_none, henabled, not_true_eq_false, Bool.false_eq_true, or_self,
    if_false, Actor.branch, Actor.on_write, end_write, pass]
  split
  · rfl
  · simp only [Option.isSome_none, Bool.false_eq_true, if_false]

/-! ### The command of a flush -/

/-- At most one command asks for a flush, and the future that placed it waits for the reply. -/
structure Asked (cmd_tx : Channel EngineCmd) (pending_flush : Option PendingFlush) : Prop where
  once : cmd_tx.queue.count .Flush ≤ 1
  waited : .Flush ∈ cmd_tx.queue → ∃ flush, pending_flush = some flush ∧ flush.requested = true ∧ flush.reply = none
  unasked : ∀ flush ∈ pending_flush, flush.requested = false → flush.reply = none
  dropped : cmd_tx.receiver_open = false → cmd_tx.queue = []

section Asked

variable {cmd_tx : Channel EngineCmd} {pending_flush : Option PendingFlush}

/-- Nothing is left to answer once the receiver is gone. -/
theorem Asked.drop_receiver (h : Asked cmd_tx pending_flush) : Asked cmd_tx.drop_receiver pending_flush where
  once := Nat.zero_le 1
  waited := fun hmem => by cases hmem
  unasked := h.unasked
  dropped := fun _ => rfl

/-- A command that is no flush is placed in the channel. -/
theorem Asked.push (h : Asked cmd_tx pending_flush) (hroom : cmd_tx.HasRoom) {cmd : EngineCmd} (hcmd : cmd ≠ .Flush) :
    Asked (cmd_tx.push hroom cmd) pending_flush where
  once := by
    rw [Channel.push_queue, List.count_append, List.count_singleton, if_neg (by simpa using hcmd)]
    exact h.once
  waited := fun hmem => by
    rw [Channel.push_queue] at hmem
    rcases List.mem_append.mp hmem with hmem | hmem
    · exact h.waited hmem
    · exact absurd (List.mem_singleton.mp hmem).symm hcmd
  unasked := h.unasked
  dropped := fun hclosed => absurd (hroom.1.symm.trans hclosed) (by decide)

/-- Without a flush that waits there is no command for one. -/
theorem Asked.not_mem_of_none (h : Asked cmd_tx none) : .Flush ∉ cmd_tx.queue := by
  intro hmem
  obtain ⟨flush, hflush, _⟩ := h.waited hmem
  cases hflush

/-- Before a flush has placed its command there is none. -/
theorem Asked.not_mem_of_unasked {flush : PendingFlush} (h : Asked cmd_tx (some flush)) (hflush : flush.requested = false) :
    .Flush ∉ cmd_tx.queue := by
  intro hmem
  obtain ⟨other, hother, hrequested, _⟩ := h.waited hmem
  cases hother
  exact Bool.false_ne_true (hflush.symm.trans hrequested)

/-- After the reply to a flush there is no command left for it. -/
theorem Asked.not_mem_of_reply {flush : PendingFlush} (h : Asked cmd_tx (some flush)) (hreply : flush.reply ≠ none) :
    .Flush ∉ cmd_tx.queue := by
  intro hmem
  obtain ⟨other, hother, _, hnone⟩ := h.waited hmem
  cases hother
  exact hreply hnone

/-- Nobody waits for a flush, and none is asked for. -/
theorem Asked.idle (hdropped : cmd_tx.receiver_open = false → cmd_tx.queue = []) (hnot : .Flush ∉ cmd_tx.queue) :
    Asked cmd_tx none where
  once := by
    rw [List.count_eq_zero.mpr hnot]
    exact Nat.zero_le 1
  waited := fun hmem => absurd hmem hnot
  unasked := fun _ h => by cases h
  dropped := hdropped

theorem Asked.unsent (hdropped : cmd_tx.receiver_open = false → cmd_tx.queue = []) (hnot : .Flush ∉ cmd_tx.queue)
    {flush : PendingFlush} (hreply : flush.reply = none) : Asked cmd_tx (some flush) where
  once := by
    rw [List.count_eq_zero.mpr hnot]
    exact Nat.zero_le 1
  waited := fun hmem => absurd hmem hnot
  unasked := fun other hother _ => by
    cases hother
    exact hreply
  dropped := hdropped

/-- The future of a flush places its command. -/
theorem Asked.ask (hnot : .Flush ∉ cmd_tx.queue) (hroom : cmd_tx.HasRoom) {flush : PendingFlush}
    (hrequested : flush.requested = true) (hreply : flush.reply = none) : Asked (cmd_tx.push hroom .Flush) (some flush) where
  once := by
    rw [Channel.push_queue, List.count_append, List.count_eq_zero.mpr hnot]
    exact Nat.le_refl 1
  waited := fun _ => ⟨flush, rfl, hrequested, hreply⟩
  unasked := fun other hother _ => by
    cases hother
    exact hreply
  dropped := fun hclosed => absurd (hroom.1.symm.trans hclosed) (by decide)

/-- The task takes a command that is no flush. -/
theorem Asked.take (h : Asked cmd_tx pending_flush) : Asked (cmd_tx.take 1) pending_flush where
  once := ((List.drop_sublist ..).count_le _).trans h.once
  waited := fun hmem => h.waited ((List.drop_sublist ..).mem hmem)
  unasked := h.unasked
  dropped := fun hclosed => by rw [Channel.take_queue, h.dropped hclosed, List.drop_nil]

/-- The task takes the command of a flush and answers it. -/
theorem Asked.answer (h : Asked cmd_tx pending_flush) {rest : List EngineCmd} (hqueue : cmd_tx.queue = .Flush :: rest)
    (result : KcpCoreResult Unit) :
    Asked (cmd_tx.take 1) (pending_flush.map fun flush => { flush with reply := some result }) := by
  have honce := h.once
  rw [hqueue, List.count_cons_self] at honce
  have hnot : .Flush ∉ rest := List.count_eq_zero.mp (by omega)
  obtain ⟨flush, hflush, hrequested, _⟩ := h.waited (by rw [hqueue]; exact List.mem_cons_self)
  subst hflush
  refine ⟨h.take.once, fun hmem => ?_, fun other hother hnone => ?_, h.take.dropped⟩
  · rw [Channel.take_queue, hqueue] at hmem
    exact absurd hmem hnot
  · cases hother
    exact absurd (hnone.symm.trans hrequested) Bool.false_ne_true

end Asked

/-- To wait for the reply places no command. -/
theorem asked_poll_reply {flush : PendingFlush} (h : Asked c.cmd_tx (some flush)) (spent : Bool) :
    Asked (c.poll_reply flush spent).1.cmd_tx (c.poll_reply flush spent).1.pending_flush := by
  unfold poll_reply
  split
  · exact h
  · split
    · next hreply => exact .idle h.dropped (h.not_mem_of_reply (by rw [hreply]; exact Option.some_ne_none _))
    · split
      · exact h
      · next hclosed =>
        have hnil := h.dropped (Bool.eq_false_iff.mpr hclosed)
        exact .idle h.dropped (by rw [hnil]; exact List.not_mem_nil)

/-- A flush that waits places its command if it has not yet. -/
theorem asked_poll_pending_flush {flush : PendingFlush} (h : Asked c.cmd_tx (some flush)) (spent_send spent_reply : Bool) :
    Asked (c.poll_pending_flush flush spent_send spent_reply).1.cmd_tx
      (c.poll_pending_flush flush spent_send spent_reply).1.pending_flush := by
  unfold poll_pending_flush
  split
  · exact asked_poll_reply h spent_reply
  · next hrequested =>
    have hunasked := Bool.eq_false_iff.mpr hrequested
    have hnot := h.not_mem_of_unasked hunasked
    split
    · exact h
    · by_cases hroom : c.cmd_tx.HasRoom
      · rw [Channel.try_send_of_room hroom]
        have hasked : Asked (c.cmd_tx.push hroom .Flush) (some { flush with requested := true }) :=
          .ask hnot hroom rfl (h.unasked flush rfl hunasked)
        exact asked_poll_reply (c := { c with cmd_tx := c.cmd_tx.push hroom .Flush }) hasked spent_reply
      · rw [Channel.try_send_of_full hroom]
        by_cases hclosed : c.cmd_tx.receiver_open = false
        · rw [if_pos hclosed]
          exact .idle h.dropped hnot
        · rw [if_neg hclosed]
          exact h

/-- A poll places no second command for one flush. -/
theorem asked_poll_flush (h : Asked c.cmd_tx c.pending_flush) (spent_send spent_reply : Bool) :
    Asked (c.poll_flush spent_send spent_reply).1.cmd_tx (c.poll_flush spent_send spent_reply).1.pending_flush := by
  unfold poll_flush
  split
  · exact h
  · split
    · next flush hflush =>
      rw [hflush] at h
      exact asked_poll_pending_flush h spent_send spent_reply
    · next hnone =>
      rw [hnone] at h
      exact asked_poll_pending_flush (.unsent h.dropped h.not_mem_of_none rfl) spent_send spent_reply

/-- A call that asks for no flush. -/
theorem Asked.of_unasked {after : Connection} (h : Asked c.cmd_tx c.pending_flush) (hafter : Unasked c after) :
    Asked after.cmd_tx after.pending_flush := by
  obtain ⟨hflush, heq | ⟨hroom, cmd, hcmd, heq⟩⟩ := hafter
  · rw [hflush, heq]
    exact h
  · rw [hflush, heq]
    exact h.push hroom hcmd

/-- The end of a branch takes no command. -/
theorem asked_drive (h : Asked c.cmd_tx c.pending_flush) (actor : Actor) :
    Asked (c.drive actor).cmd_tx (c.drive actor).pending_flush := by
  unfold drive
  dsimp only
  split
  · exact h.drop_receiver
  · exact h

/-- The command that is taken is answered. -/
theorem asked_on_command (h : Asked c.cmd_tx c.pending_flush) {cmd : EngineCmd} {rest : List EngineCmd}
    (hqueue : c.cmd_tx.queue = cmd :: rest) (finds : Finds) :
    Asked (c.on_command cmd finds).cmd_tx (c.on_command cmd finds).pending_flush := by
  cases cmd with
  | Flush =>
    have hanswered := h.answer hqueue (c.actor.engine.flush finds.readings.flush).2
    exact asked_drive (c := reply { c with cmd_tx := c.cmd_tx.take 1 } _) hanswered _
  | Stats => exact asked_drive (c := { c with cmd_tx := c.cmd_tx.take 1 }) h.take _
  | IsAlive => exact asked_drive (c := { c with cmd_tx := c.cmd_tx.take 1 }) h.take _
  | Close => exact asked_drive (c := take_all { c with cmd_tx := c.cmd_tx.take 1 }) h.take _

theorem asked_flush_writes (h : Asked c.cmd_tx c.pending_flush) (r : Readings) :
    Asked (c.flush_writes r).cmd_tx (c.flush_writes r).pending_flush := by
  unfold flush_writes
  dsimp only
  split
  · exact asked_drive h _
  · exact asked_drive h _

/-- No step of the task takes a flush without an answer. -/
theorem asked_advance (h : Asked c.cmd_tx c.pending_flush) (finds : Finds) :
    Asked (c.advance finds).cmd_tx (c.advance finds).pending_flush := by
  unfold advance
  split
  · exact h
  split
  · split
    · exact asked_drive h _
    · exact h
  · split
    · next hqueue =>
      split
      · exact h
      · exact asked_on_command h hqueue finds
    · exact h
  · split
    · exact asked_drive h _
    · exact h
  · split
    · split
      · exact h
      · exact h
    · exact h
  · split
    · split
      · exact h
      · exact asked_flush_writes h _
    · exact asked_flush_writes h _

/-- In every state of every run. -/
theorem asked_run (config : config.KcpConfig) (actor : Actor) (events : List Event) :
    Asked (Trace.run step (new config actor) events).cmd_tx (Trace.run step (new config actor) events).pending_flush := by
  refine Trace.invariant (fun _ (c : Connection) => Asked c.cmd_tx c.pending_flush) ?_ (fun _ event h => ?_) events
  · exact .idle (fun _ => rfl) List.not_mem_nil
  · cases event with
    | poll_flush spent_send spent_reply => exact asked_poll_flush h spent_send spent_reply
    | advance finds => exact asked_advance h finds
    | _ => exact h.of_unasked (unasked_step _ trivial)

end Connection

end kcp_tokio.connection
