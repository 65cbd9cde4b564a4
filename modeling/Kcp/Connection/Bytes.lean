import Kcp.Stream.Send
import Kcp.Connection.Calls

/-! Where the bytes of a stream are: what is written goes through the send channel to the engine,
and what the engine returns goes through the data channel to the reader. -/

open Mpsc kcp_core.protocol kcp_core.error kcp_core.engine kcp_core.network kcp_tokio.stream kcp_tokio.actor

namespace kcp_tokio.actor

/-! ### The data channel -/

/-- No read comes between the reservations of a turn. -/
def Readings.Apart (self : Readings) : Prop := ∀ i, self.pace i = 0

/-- If no read comes between the reservations, the loop only places messages. -/
theorem taken_drain_recv {pace : Nat → Nat} (hpace : ∀ i, pace i = 0) (engine : KcpEngine) {data_tx : Channel Bytes}
    {taken : List Bytes} (h : data_tx.Taken taken) : (drain_recv pace engine data_tx).2.Taken taken := by
  apply drain_recv_rule (P := fun _ channel => channel.Taken taken)
  · intro i _ _ h
    rw [hpace i, Channel.take_zero]
    exact h
  · exact fun _ _ h _ => h
  · exact fun _ _ hroom msg h _ => h.push hroom msg
  · exact h

namespace Actor

variable {a : Actor} {taken : List Bytes}

theorem taken_finish_closing (h : a.data_tx.Taken taken) (r : Readings) : (a.finish_closing r).data_tx.Taken taken := by
  unfold finish_closing
  split_ifs <;> exact h

/-- A turn that forwards messages takes none out again. -/
theorem taken_forward (h : a.data_tx.Taken taken) {r : Readings} (hr : r.Apart) : (a.forward r).data_tx.Taken taken :=
  taken_drain_recv hr _ h

theorem taken_keep_alive (h : a.data_tx.Taken taken) (r : Readings) : (a.keep_alive r).data_tx.Taken taken := by
  unfold keep_alive
  split
  · exact h
  · dsimp only
    split_ifs <;> exact h

/-- The timer branch takes nothing out of the channel. -/
theorem taken_on_timer (h : a.data_tx.Taken taken) {r : Readings} (hr : r.Apart) : (a.on_timer r).data_tx.Taken taken := by
  unfold on_timer
  dsimp only
  split_ifs
  · exact h
  · exact taken_keep_alive (a := { a with engine := (a.engine.flush r.flush).1 }) h r
  · exact taken_forward (taken_keep_alive (a := { a with engine := (a.engine.flush r.flush).1 }) h r) hr

/-- The packet branch takes nothing out either. -/
theorem taken_on_packet (h : a.data_tx.Taken taken) (packet : Option Bytes) {r : Readings} (hr : r.Apart) :
    (a.on_packet packet r).data_tx.Taken taken := by
  cases packet with
  | none => exact h
  | some data =>
    unfold on_packet
    dsimp only
    split_ifs
    · exact h
    · exact taken_forward (a := { a with engine := ((a.engine.input r.input data).1.flush r.flush).1 }) h hr

theorem taken_on_command (h : a.data_tx.Taken taken) (cmd : Option EngineCmd) (buffered : List (Clock × Bytes)) (r : Readings) :
    (a.on_command cmd buffered r).data_tx.Taken taken := by
  cases cmd with
  | none => exact h
  | some cmd => cases cmd <;> exact h

/-- A turn after whose branch nothing has been taken. -/
theorem taken_turn (h : a.data_tx.Taken taken) (event : Event) (hbranch : (a.branch event).data_tx.Taken taken) (r : Readings) :
    (a.turn event r).data_tx.Taken taken := by
  unfold turn
  dsimp only
  split_ifs
  · exact h
  · exact hbranch
  · exact taken_finish_closing hbranch r

end Actor

end kcp_tokio.actor

namespace kcp_tokio.connection

/-- What the task of a stream reads before its loop. -/
structure Boot where
  keep_alive_ms : Option Nat
  last_probe : Nat
  now : Timestamp
  clk : Clock
  pace : Nat → Nat

/-- No read comes before the loop. -/
def Boot.Apart (self : Boot) : Prop := ∀ i, self.pace i = 0

/-- A task that starts at time zero. -/
def Boot.plain : Boot where
  keep_alive_ms := none
  last_probe := 0
  now := 0
  clk := .at 0
  pace := fun _ => 0

namespace Connection

variable {c : Connection}

/-! ### Steps of the task -/

/-- The task only moves messages from the send channel to the engine. What it has dropped with
its receiver is no longer in the channel. -/
structure Moves (c after : Connection) : Prop where
  limit : after.max_msg = c.max_msg
  size : after.stream.mss = c.stream.mss
  parked : after.stream.pending_write = c.stream.pending_write
  buffered : after.stream.read_buf = c.stream.read_buf
  sent : after.stream.send_tx.sent = c.stream.send_tx.sent
  moved : ∃ passed rest, c.stream.send_tx.queue = passed ++ rest ∧ after.passed = c.passed ++ passed ∧
    (after.actor.exited = none → after.stream.send_tx.queue = rest)

/-- The task may do nothing at all. -/
theorem Moves.refl (c : Connection) : Moves c c :=
  ⟨rfl, rfl, rfl, rfl, rfl, [], _, rfl, (List.append_nil _).symm, fun _ => rfl⟩

/-- The end of a branch moves no message. -/
theorem Moves.drive {mid : Connection} (h : Moves c mid) (hrunning : mid.actor.exited = none) (actor : Actor) :
    Moves c (mid.drive actor) := by
  obtain ⟨hlimit, hsize, hparked, hbuffered, hsent, passed, rest, hqueue, hpassed, hrest⟩ := h
  refine ⟨hlimit, hsize, hparked, hbuffered, (drive_sent mid actor).trans hsent, passed, rest, hqueue, hpassed, fun hnone => ?_⟩
  have hkept : (mid.drive actor).stream.send_tx = mid.stream.send_tx := if_neg (by
    rw [show actor.exited = none from hnone]
    decide)
  rw [hkept]
  exact hrest hrunning

/-- A close moves all messages to the engine. -/
theorem moves_take_all (c : Connection) : Moves c c.take_all where
  limit := rfl
  size := rfl
  parked := rfl
  buffered := rfl
  sent := rfl
  moved := ⟨c.stream.send_tx.queue, [], (List.append_nil _).symm, rfl, fun _ => List.drop_length⟩

/-- The loop moves the first message. -/
theorem moves_pass {data : Bytes} {rest : List Bytes} (hqueue : c.stream.send_tx.queue = data :: rest) (clk : Clock) :
    Moves c (c.pass clk data) where
  limit := rfl
  size := rfl
  parked := rfl
  buffered := rfl
  sent := rfl
  moved := ⟨[data], rest, hqueue, rfl, fun _ => pass_queue hqueue clk⟩

/-- A command moves all messages if it is a close, and else none. -/
theorem moves_on_command (hrunning : c.actor.exited = none) (cmd : EngineCmd) (finds : Finds) :
    Moves c (c.on_command cmd finds) := by
  have hsame : ∀ cmd_tx pending_flush, Moves c { c with cmd_tx, pending_flush } := fun _ _ =>
    ⟨rfl, rfl, rfl, rfl, rfl, (Moves.refl c).moved⟩
  have hall : Moves c (take_all { c with cmd_tx := c.cmd_tx.take 1 }) := ⟨rfl, rfl, rfl, rfl, rfl, (moves_take_all c).moved⟩
  have htaken := hsame (c.cmd_tx.take 1)
  cases cmd with
  | Flush =>
    have hreplied : ∀ result, Moves c (reply { c with cmd_tx := c.cmd_tx.take 1 } result) := fun _ => htaken _
    exact (hreplied _).drive hrunning _
  | Stats => exact (htaken c.pending_flush).drive hrunning _
  | IsAlive => exact (htaken c.pending_flush).drive hrunning _
  | Close => exact hall.drive hrunning _

/-- The flush after the loop moves none. -/
theorem moves_flush_writes (hrunning : c.actor.exited = none) (r : Readings) : Moves c (c.flush_writes r) := by
  unfold flush_writes
  dsimp only
  split <;> exact (Moves.refl c).drive hrunning _

/-- A step of the task takes messages from the front of the channel, and passes them on in order. -/
theorem moves_advance (c : Connection) (finds : Finds) : Moves c (c.advance finds) := by
  have hphase : ∀ phase, Moves c { c with phase } := fun _ => ⟨rfl, rfl, rfl, rfl, rfl, (Moves.refl c).moved⟩
  unfold advance
  by_cases hexited : c.actor.exited.isSome = true
  · rw [if_pos hexited]
    exact .refl c
  rw [if_neg hexited]
  have hrunning : c.actor.exited = none := Option.not_isSome_iff_eq_none.mp hexited
  split
  · split
    · exact (Moves.refl c).drive hrunning _
    · exact hphase .command
  · split
    · split
      · exact hphase .input
      · exact moves_on_command hrunning _ finds
    · exact hphase .input
  · split
    · exact (Moves.refl c).drive hrunning _
    · exact hphase .send
  · split
    · next hqueue =>
      split
      · exact moves_pass hqueue _
      · exact hphase .timer
    · exact hphase .timer
  · split
    · next hqueue =>
      split
      · exact moves_pass hqueue _
      · exact moves_flush_writes hrunning _
    · exact moves_flush_writes hrunning _

/-! ### What is written -/

/-- No message in the send channel is over the limit, and what has been passed to the engine are
the first of them: all but those in the channel, while the task runs. -/
structure Lined (mss limit : Nat) (c : Connection) : Prop where
  chunked : Chunked mss limit c.stream
  max_msg : c.max_msg = limit
  passed : c.passed <+: c.stream.send_tx.sent
  waiting : c.actor.exited = none → c.passed ++ c.stream.send_tx.queue = c.stream.send_tx.sent

variable {mss limit : Nat}

/-- Nothing is in the channel yet. -/
theorem lined_new (config : config.KcpConfig) (actor : Actor) :
    Lined (KcpStream.new config).mss (MessageStream.new config).max_msg (new config actor) where
  chunked := ⟨rfl, fun _ h => absurd h List.not_mem_nil, fun _ h => by cases h⟩
  max_msg := rfl
  passed := List.prefix_rfl
  waiting := fun _ => rfl

/-- What the task moves stays in line. -/
theorem Moves.lined {after : Connection} (h : Moves c after) (hrunning : after.actor.exited = none → c.actor.exited = none)
    (hlined : Lined mss limit c) (hcovers : c.actor.exited ≠ none → after.passed = c.passed) : Lined mss limit after := by
  obtain ⟨hlimit, hsize, hparked, _, hsent, passed, rest, hqueue, hpassed, hrest⟩ := h
  refine ⟨hlined.chunked.of_frame hsize hsent hparked, hlimit.trans hlined.max_msg, ?_, fun hnone => ?_⟩
  · rw [hsent]
    by_cases hexited : c.actor.exited = none
    · have hall := hlined.waiting hexited
      rw [hqueue, ← List.append_assoc, ← hpassed] at hall
      rw [← hall]
      exact List.prefix_append ..
    · rw [hcovers hexited]
      exact hlined.passed
  · rw [hsent, hrest hnone, hpassed, List.append_assoc, ← hqueue]
    exact hlined.waiting (hrunning hnone)

/-- A task that has exited moves nothing, and any other keeps the line. -/
theorem lined_advance (h : Lined mss limit c) (finds : Finds) : Lined mss limit (c.advance finds) := by
  by_cases hexited : c.actor.exited = none
  · exact (c.moves_advance finds).lined (fun _ => hexited) h fun hnot => absurd hexited hnot
  · have hsame : c.advance finds = c := by
      unfold advance
      exact if_pos (Option.isSome_iff_ne_none.mpr hexited)
    rw [hsame]
    exact h

/-- A call of the owner joins the line at its end. -/
theorem Owner.lined {after : Connection} {messages : List Bytes} (h : Owner c after messages) (hle : mss ≤ limit)
    (hlined : Lined mss limit c) : Lined mss limit after := by
  obtain ⟨hchunked, hmax, hpassed, hwaiting⟩ := hlined
  subst hmax
  refine ⟨h.limit ▸ h.chunked hle hchunked, h.limit, ?_, fun hrunning => ?_⟩
  · rw [h.passed, h.hands.sent]
    exact hpassed.trans (List.prefix_append ..)
  · rw [h.passed, h.hands.queue, h.hands.sent, ← List.append_assoc, hwaiting (h.exited ▸ hrunning)]

/-- The messages stay in line, whoever takes the step. -/
theorem lined_step (hle : mss ≤ limit) (h : Lined mss limit c) (event : Event) : Lined mss limit (c.step event) := by
  cases event with
  | advance finds => exact lined_advance h finds
  | _ => exact Owner.lined (c.owner_step trivial) hle h

/-- What a step passes to the engine are writes that have been placed in the channel. -/
theorem Lined.offered (hle : mss ≤ limit) (h : Lined mss limit c) (event : Event) :
    ∀ op ∈ c.calls event, ∀ clk data, op = .send clk data → data.length ≤ limit := by
  rintro op hmem clk data rfl
  have hnext := lined_step hle h event
  have hpassed := (c.makes_step event).passed
  have hoffered : data ∈ (c.step event).passed := by
    rw [hpassed]
    exact List.mem_append_right _ (List.mem_flatMap.mpr ⟨_, hmem, List.mem_singleton.mpr rfl⟩)
  exact hnext.chunked.sent data (hnext.passed.subset hoffered)

/-- The bytes that a call reports as written. -/
def written (self : Connection) : Event → List Bytes
  | .poll_write buf spent => self.stream.written (.poll_write buf (some 0) spent)
  | .send data spent => if_reported data (self.send data spent).2
  | _ => []

/-- A call that completes a parked write offers its bytes again. -/
def Continues (self : Connection) : Event → Prop
  | .poll_write buf spent => self.stream.Continues (.poll_write buf (some 0) spent)
  | _ => True

/-- Then what is placed in the channel is what is reported. -/
theorem sent_step (c : Connection) {event : Event} (h : c.Continues event) :
    (c.step event).stream.send_tx.sent.flatten = c.stream.send_tx.sent.flatten ++ (c.written event).flatten := by
  cases event with
  | poll_write buf spent =>
    obtain ⟨handed, hsent, _, hiff⟩ := c.stream.step_sent (.poll_write buf (some 0) spent)
    change (c.stream.step (.poll_write buf (some 0) spent)).send_tx.sent.flatten = _
    rw [hsent, List.flatten_append, (hiff.mpr h).2]
    rfl
  | advance finds => exact (congrArg List.flatten (c.moves_advance finds).sent).trans (List.append_nil _).symm
  | _ => exact (congrArg List.flatten (c.sent_of_call (by exact trivial))).trans List.flatten_append

/-- Nothing is taken back. -/
theorem sent_prefix_step (c : Connection) (event : Event) : c.stream.send_tx.sent <+: (c.step event).stream.send_tx.sent := by
  cases event with
  | advance finds => exact (c.moves_advance finds).sent ▸ List.prefix_rfl
  | _ => exact (c.owner_step (by exact trivial)).hands.sent_prefix

/-- The stream cuts what is written into the same pieces all along. -/
theorem mss_step (c : Connection) (event : Event) : (c.step event).stream.mss = c.stream.mss := by
  cases event with
  | advance finds => exact (c.moves_advance finds).size
  | _ => exact (c.owner_step (by exact trivial)).size

/-! ### What is read -/

/-- A new stream with this engine, and its task. -/
def launch (config : config.KcpConfig) (engine : KcpEngine) (boot : Boot) : Connection :=
  .new config (.start (.new config boot.keep_alive_ms) engine (.new Bytes DATA_CHANNEL_CAPACITY) boot.last_probe boot.now
    boot.clk boot.pace)

/-- The steps in which a read may fall between two reservations are left out. -/
def Apart : Event → Prop
  | .advance finds => finds.readings.Apart
  | _ => True

/-- What the reader has taken from the channel, it has been given or is about to be. -/
def ReadSoFar (read : Bytes) (c : Connection) : Prop := read ++ c.stream.unread = c.actor.data_tx.sent.flatten

/-- A step that touches neither the task nor the buffer reads nothing. -/
theorem ReadSoFar.of_same {read : Bytes} {after : Connection} (h : ReadSoFar read c) (hactor : after.actor = c.actor)
    (hbuf : after.stream.read_buf = c.stream.read_buf) : ReadSoFar read after := by
  have hsame : after.stream.data_rx = c.stream.data_rx :=
    after.one_channel.trans ((congrArg Actor.data_tx hactor).trans c.one_channel.symm)
  unfold ReadSoFar KcpStream.unread at h ⊢
  rw [hsame, hbuf, hactor]
  exact h

/-- The channel keeps what has been taken out of it: then what is placed there comes after. -/
theorem ReadSoFar.of_taken {read : Bytes} {after : Connection} (h : ReadSoFar read c) {taken : List Bytes}
    (hbefore : c.actor.data_tx.Taken taken) (hafter : after.actor.data_tx.Taken taken)
    (hbuf : after.stream.read_buf = c.stream.read_buf) : ReadSoFar read after := by
  unfold ReadSoFar KcpStream.unread at h ⊢
  unfold Channel.Taken at hbefore hafter
  rw [c.one_channel, hbefore, List.flatten_append, ← List.append_assoc, List.append_cancel_right_eq] at h
  rw [after.one_channel, hafter, List.flatten_append, hbuf, ← List.append_assoc, h]

theorem taken_flush_writes {taken : List Bytes} (h : c.actor.data_tx.Taken taken) (r : Readings) :
    (c.flush_writes r).actor.data_tx.Taken taken := by
  unfold flush_writes
  dsimp only
  split
  · exact h
  · exact Actor.taken_finish_closing (a := { c.actor with engine := flush_output (c.actor.engine.flush r.flush).1 }) h r

/-- In a step without a read in between nothing is taken. -/
theorem taken_advance {taken : List Bytes} (h : c.actor.data_tx.Taken taken) {finds : Finds} (hapart : finds.readings.Apart) :
    (c.advance finds).actor.data_tx.Taken taken := by
  have hturn : ∀ cmd buffered,
      (c.actor.step (.command (some cmd) buffered finds.readings)).data_tx.Taken taken := fun cmd buffered =>
    Actor.taken_turn h (.command (some cmd) buffered finds.readings)
      (Actor.taken_on_command h (some cmd) buffered finds.readings) finds.readings
  unfold advance
  split
  · exact h
  split
  · split
    · exact Actor.taken_turn h (.timer finds.readings) (Actor.taken_on_timer h hapart) finds.readings
    · exact h
  · split
    · next cmd _ _ =>
      split
      · exact h
      · cases cmd with
        | Flush => exact hturn .Flush []
        | Stats => exact hturn .Stats []
        | IsAlive => exact hturn .IsAlive []
        | Close => exact hturn .Close (c.waiting finds.clk)
    · exact h
  · split
    · next packet _ =>
      exact Actor.taken_turn h (.packet packet finds.readings) (Actor.taken_on_packet h packet hapart) finds.readings
    · exact h
  · split
    · split <;> exact h
    · exact h
  · split
    · split
      · exact h
      · exact taken_flush_writes h _
    · exact taken_flush_writes h _

/-- The bytes that a read returns. -/
def returned (self : Connection) : Event → List Bytes
  | .poll_read remaining spent => self.stream.returned (.poll_read remaining spent)
  | .recv spent => self.stream.received (.recv spent)
  | _ => []

/-- No `recv` overtakes what a read has left. -/
def InTurn (self : Connection) : Event → Prop
  | .recv spent => self.stream.InTurn (.recv spent)
  | _ => True

/-- What a read returns comes off what is unread. -/
theorem ReadSoFar.read {read returned : Bytes} {after : Connection} (h : ReadSoFar read c)
    (hunread : returned ++ after.stream.unread = c.stream.unread) (hplaced : after.actor.data_tx.sent = c.actor.data_tx.sent) :
    ReadSoFar (read ++ returned) after := by
  unfold ReadSoFar at h ⊢
  rw [List.append_assoc, hunread, hplaced]
  exact h

/-- What has been read and what is unread stay all that was placed. -/
theorem readSoFar_step {read : Bytes} (h : ReadSoFar read c) {event : Event} (hapart : Apart event) (hturn : c.InTurn event) :
    ReadSoFar (read ++ (c.returned event).flatten) (c.step event) := by
  have hquiet : ∀ {after : Connection}, ReadSoFar read after → ReadSoFar (read ++ ([] : List Bytes).flatten) after := by
    intro after h
    rw [List.flatten_nil, List.append_nil]
    exact h
  cases event with
  | poll_read remaining spent =>
    exact h.read (c.stream.poll_read_unread remaining spent).1 (c.owner_poll_read remaining spent).placed
  | recv spent => exact h.read ((c.stream.recv_unread_iff spent).mpr hturn) (c.owner_recv spent).placed
  | advance finds =>
    obtain ⟨taken, htaken⟩ := c.actor.data_tx.fifo
    exact hquiet (h.of_taken htaken.symm (taken_advance htaken.symm hapart) (c.moves_advance finds).buffered)
  | _ =>
    exact hquiet (h.of_same (c.actor_of_call (by exact trivial)).1 (c.actor_of_call (by exact trivial)).2)

/-- The reader of a new stream has taken nothing. -/
theorem readSoFar_launch (config : config.KcpConfig) (engine : KcpEngine) {boot : Boot} (hboot : boot.Apart) :
    ReadSoFar [] (launch config engine boot) := by
  have hnew : (Channel.new Bytes DATA_CHANNEL_CAPACITY).Taken [] := rfl
  exact congrArg List.flatten (taken_drain_recv hboot (flush_output (engine.update boot.now boot.clk).1) hnew).symm

end Connection

end kcp_tokio.connection
