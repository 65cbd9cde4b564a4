import Kcp.Actor.Messages
import Kcp.Connection.Flush

/-! The calls of the engine that a step of the task makes, and all that comes of them. -/

open Mpsc kcp_core.protocol kcp_core.error kcp_core.engine kcp_core.network kcp_tokio.stream kcp_tokio.actor

namespace kcp_tokio.actor.Actor

/-! ### What a turn hands to the engine -/

/-- The data that calls pass to `send`. -/
theorem offered_of_noSend {ops : List Op} (h : ∀ op ∈ ops, op.NoSend) : ops.flatMap offered = [] := by
  rw [List.flatMap_eq_nil_iff]
  intro op hmem
  cases op with
  | send clk data => exact (h _ hmem).elim
  | _ => rfl

/-- What is no call of the owner's own side is the input of this packet. -/
def Fed (packet : Option Bytes) (op : Op) : Prop :=
  is_local op = true ∨ ∃ now, ∃ data ∈ packet, op = .input now data

/-- Calls that need no datagram are fed by any. -/
theorem fed_of_forall {ops : List Op} (h : ∀ op ∈ ops, is_local op = true) {packet : Option Bytes} :
    ∀ op ∈ ops, Fed packet op := fun op hmem => .inl (h op hmem)

/-- Forwarding needs no datagram. -/
theorem is_local_forward_calls (self : Actor) (r : Readings) : ∀ op ∈ self.forward_calls r, is_local op = true := by
  intro op hmem
  rcases mem_forward_calls hmem with rfl | rfl <;> rfl

theorem is_local_keep_alive_calls (self : Actor) (r : Readings) : ∀ op ∈ self.keep_alive_calls r, is_local op = true := by
  unfold keep_alive_calls
  split
  · exact fun _ h => absurd h List.not_mem_nil
  · split_ifs <;> simp [is_local]

theorem is_local_finish_calls (self : Actor) (r : Readings) : ∀ op ∈ self.finish_calls r, is_local op = true := by
  unfold finish_calls
  split_ifs <;> simp [is_local]

/-- The timer branch needs none. -/
theorem is_local_timer_calls (self : Actor) (r : Readings) : ∀ op ∈ self.timer_calls r, is_local op = true := by
  intro op hmem
  rcases List.mem_cons.mp hmem with rfl | hmem
  · rfl
  · split_ifs at hmem
    · cases hmem
    · rw [List.append_nil] at hmem
      exact is_local_keep_alive_calls _ r op hmem
    · rcases List.mem_append.mp hmem with hmem | hmem
      · exact is_local_keep_alive_calls _ r op hmem
      · exact is_local_forward_calls _ r op hmem

/-- A command needs no datagram. -/
theorem is_local_command_calls (cmd : Option EngineCmd) (buffered : List (Clock × Bytes)) (r : Readings) :
    ∀ op ∈ command_calls cmd buffered r, is_local op = true := by
  have hclose : ∀ op ∈ buffered.map (fun write => Op.send write.1 write.2) ++ [.flush r.flush, .drain_output],
      is_local op = true := by
    intro op hmem
    rcases List.mem_append.mp hmem with hsend | hrest
    · obtain ⟨write, _, rfl⟩ := List.mem_map.mp hsend
      rfl
    · rcases List.mem_pair.mp hrest with rfl | rfl <;> rfl
  cases cmd with
  | none => exact hclose
  | some cmd =>
    cases cmd with
    | Close => exact hclose
    | _ => simp [command_calls, is_local]

/-- The packet branch takes the packet that waits, and no other. -/
theorem fed_packet_calls (self : Actor) (packet : Option Bytes) (r : Readings) :
    ∀ op ∈ self.packet_calls packet r, Fed packet op := by
  cases packet with
  | none => exact fun _ h => absurd h List.not_mem_nil
  | some data =>
    intro op hmem
    rcases List.mem_append.mp hmem with hmem | hmem
    · rcases List.mem_pair.mp hmem with rfl | rfl
      · exact .inr ⟨r.input, data, rfl, rfl⟩
      · exact .inl rfl
    · split_ifs at hmem
      · cases hmem
      · exact .inl (is_local_forward_calls _ r op hmem)

/-- The calls of a turn of this task are those of its branch and of the end of the turn. -/
theorem mem_turn_calls {self : Actor} {event : Event} {r : Readings} {op : Op} (h : op ∈ self.turn_calls event r) :
    op ∈ self.branch_calls event ∨ op ∈ (self.branch event).finish_calls r := by
  unfold turn_calls at h
  split_ifs at h
  · cases h
  · rw [List.append_nil] at h
    exact .inl h
  · exact List.mem_append.mp h

end kcp_tokio.actor.Actor

namespace kcp_tokio.connection

open Actor (Fed Places)

namespace Connection

variable {c : Connection}

/-! ### The calls of a step -/

/-- The calls at the end of the branch that takes writes. -/
def flush_writes_calls (actor : Actor) (r : Readings) : List Op :=
  .flush r.flush ::
    if fatal (actor.engine.flush r.flush).2 then []
    else .drain_output :: Actor.finish_calls { actor with engine := flush_output (actor.engine.flush r.flush).1 } r

def on_command_calls (self : Connection) (cmd : EngineCmd) (finds : Finds) : List Op :=
  match cmd with
  | .Flush => self.actor.calls (.command (some .Flush) [] finds.readings)
  | .Stats => self.actor.calls (.command (some .Stats) [] finds.readings)
  | .IsAlive => self.actor.calls (.command (some .IsAlive) [] finds.readings)
  | .Close => self.actor.calls (.command (some .Close) (self.waiting finds.clk) finds.readings)

def advance_calls (self : Connection) (finds : Finds) : List Op :=
  if self.actor.exited.isSome then []
  else
    match self.phase with
    | .timer => if finds.fired then self.actor.calls (.timer finds.readings) else []
    | .command =>
      match self.cmd_tx.queue with
      | cmd :: _ => if self.actor.closing then [] else self.on_command_calls cmd finds
      | [] => []
    | .input =>
      match finds.packet with
      | some packet => self.actor.calls (.packet packet finds.readings)
      | none => []
    | .send =>
      match self.stream.send_tx.queue with
      | data :: _ =>
        if self.actor.send_closed = false ∧ self.actor.engine.send_queue_len < self.actor.settings.send_high_water then
          [.send (finds.clk 0) data]
        else []
      | [] => []
    | .absorb =>
      match self.stream.send_tx.queue with
      | data :: _ =>
        if self.actor.engine.send_queue_len < self.actor.settings.send_high_water then [.send (finds.clk 0) data]
        else flush_writes_calls self.actor finds.readings
      | [] => flush_writes_calls self.actor finds.readings

/-- Only the task calls the engine. -/
def calls (self : Connection) : Event → List Op
  | .advance finds => self.advance_calls finds
  | _ => []

/-! ### What comes of them -/

/-- These calls make the engine of `c` that of `after`, place in the data channel what they
return, and pass to `send` what leaves the send channel. Any input among them is this packet. -/
structure Makes (c : Connection) (ops : List Op) (packet : Option Bytes) (after : Connection) : Prop where
  engine : Trace.run KcpEngine.step c.actor.engine ops = after.actor.engine
  placed : c.actor.Places ops after.actor
  passed : after.passed = c.passed ++ ops.flatMap offered
  fed : ∀ op ∈ ops, Fed packet op

/-- No call is made, and the engine, the messages placed and those passed are as before. -/
theorem Makes.none {packet : Option Bytes} {after : Connection} (hengine : after.actor.engine = c.actor.engine)
    (hplaced : after.actor.data_tx.sent = c.actor.data_tx.sent) (hpassed : after.passed = c.passed) :
    Makes c [] packet after where
  engine := hengine.symm
  placed := hplaced.trans (List.append_nil _).symm
  passed := hpassed.trans (List.append_nil _).symm
  fed := fun _ h => absurd h List.not_mem_nil

/-- A turn of the loop that sends nothing. -/
theorem makes_turn (c : Connection) (event : actor.Event) (packet : Option Bytes)
    (hquiet : ∀ op ∈ c.actor.calls event, op.NoSend) (hfed : ∀ op ∈ c.actor.calls event, Fed packet op) :
    Makes c (c.actor.calls event) packet (c.drive (c.actor.step event)) where
  engine := c.actor.run_calls event
  placed := c.actor.places_step event
  passed := by
    rw [Actor.offered_of_noSend hquiet, List.append_nil]
    rfl
  fed := hfed

/-- The timer branch passes on no message, and places what `recv` returns. -/
theorem makes_timer (c : Connection) (r : Readings) (packet : Option Bytes) :
    Makes c (c.actor.calls (.timer r)) packet (c.drive (c.actor.step (.timer r))) := by
  apply makes_turn
  · intro op hmem
    rcases Actor.mem_turn_calls hmem with hmem | hmem
    · exact Actor.noSend_timer_calls op hmem
    · exact Actor.noSend_finish_calls op hmem
  · intro op hmem
    rcases Actor.mem_turn_calls hmem with hmem | hmem
    · exact .inl (Actor.is_local_timer_calls _ r op hmem)
    · exact .inl (Actor.is_local_finish_calls _ r op hmem)

/-- The packet branch does the same with the packet taken in. -/
theorem makes_packet (c : Connection) (packet : Option Bytes) (r : Readings) :
    Makes c (c.actor.calls (.packet packet r)) packet (c.drive (c.actor.step (.packet packet r))) := by
  apply makes_turn
  · intro op hmem
    rcases Actor.mem_turn_calls hmem with hmem | hmem
    · exact Actor.noSend_packet_calls op hmem
    · exact Actor.noSend_finish_calls op hmem
  · intro op hmem
    rcases Actor.mem_turn_calls hmem with hmem | hmem
    · exact Actor.fed_packet_calls _ packet r op hmem
    · exact .inl (Actor.is_local_finish_calls _ r op hmem)

theorem fed_command (a : Actor) (cmd : EngineCmd) (buffered : List (Clock × Bytes)) (r : Readings) (packet : Option Bytes) :
    ∀ op ∈ a.calls (.command (some cmd) buffered r), Fed packet op := by
  intro op hmem
  rcases Actor.mem_turn_calls hmem with hmem | hmem
  · exact .inl (Actor.is_local_command_calls _ buffered r op hmem)
  · exact .inl (Actor.is_local_finish_calls _ r op hmem)

/-- A command that leaves the send channel alone. -/
theorem makes_command (c : Connection) {cmd : EngineCmd} (hcmd : cmd ≠ .Close) (r : Readings) (packet : Option Bytes) :
    Makes c (c.actor.calls (.command (some cmd) [] r)) packet (c.drive (c.actor.step (.command (some cmd) [] r))) := by
  refine makes_turn c _ packet ?_ (fed_command c.actor cmd [] r packet)
  intro op hmem
  rcases Actor.mem_turn_calls hmem with hmem | hmem
  · cases cmd with
    | Close => exact absurd rfl hcmd
    | Flush =>
      rcases List.mem_pair.mp hmem with rfl | rfl <;> trivial
    | Stats => cases hmem
    | IsAlive => cases hmem
  · exact Actor.noSend_finish_calls op hmem

/-- The messages that wait, without the clocks at which they are passed on. -/
theorem map_waiting (c : Connection) (clk : Nat → Clock) : (c.waiting clk).map Prod.snd = c.stream.send_tx.queue := by
  unfold waiting
  apply List.ext_getElem?
  intro i
  rw [List.getElem?_map, List.getElem?_mapIdx, Option.map_map]
  exact Option.map_id'

/-- A close passes everything that waits. -/
theorem makes_close (c : Connection) (hrunning : c.actor.exited = none) (hclosing : c.actor.closing = false)
    (finds : Finds) (packet : Option Bytes) :
    Makes c (c.actor.calls (.command (some .Close) (c.waiting finds.clk) finds.readings)) packet
      (c.take_all.drive (c.actor.step (.command (some .Close) (c.waiting finds.clk) finds.readings))) where
  engine := c.actor.run_calls _
  placed := c.actor.places_step _
  passed := by
    have henabled : c.actor.Enabled (.command (some .Close) (c.waiting finds.clk) finds.readings) := hclosing
    have hoffered : ∀ writes : List (Clock × Bytes),
        (writes.map fun write => Op.send write.1 write.2).flatMap offered = writes.map Prod.snd := by
      intro writes
      induction writes with
      | nil => rfl
      | cons write writes ih => exact congrArg (write.2 :: ·) ih
    change c.passed ++ c.stream.send_tx.queue = _
    unfold Actor.calls
    dsimp only
    unfold Actor.turn_calls
    rw [if_neg (by simp [hrunning, henabled]), List.flatMap_append]
    change _ = c.passed ++ (List.flatMap offered (_ ++ [Op.flush finds.readings.flush, Op.drain_output]) ++ _)
    rw [List.flatMap_append, hoffered, map_waiting]
    have hfinish : ∀ (a : Actor), List.flatMap offered (if a.exited.isSome then [] else a.finish_calls finds.readings) = [] := by
      intro a
      apply Actor.offered_of_noSend
      intro op hmem
      split at hmem
      · cases hmem
      · exact Actor.noSend_finish_calls op hmem
    rw [hfinish, List.append_nil]
    exact congrArg (c.passed ++ ·) (List.append_nil _).symm
  fed := fed_command c.actor .Close _ _ packet

/-- A command passes on all messages if it is a close, and else none. -/
theorem makes_on_command (c : Connection) (hrunning : c.actor.exited = none) (hclosing : c.actor.closing = false)
    (cmd : EngineCmd) (finds : Finds) (packet : Option Bytes) :
    Makes c (c.on_command_calls cmd finds) packet (c.on_command cmd finds) := by
  have hcommand : ∀ cmd : EngineCmd, cmd ≠ .Close → _ := fun cmd hcmd => makes_command c hcmd finds.readings packet
  have hclose := makes_close c hrunning hclosing finds packet
  cases cmd with
  | Flush =>
    have h := hcommand .Flush (by decide)
    exact ⟨h.engine, h.placed, h.passed, h.fed⟩
  | Stats =>
    have h := hcommand .Stats (by decide)
    exact ⟨h.engine, h.placed, h.passed, h.fed⟩
  | IsAlive =>
    have h := hcommand .IsAlive (by decide)
    exact ⟨h.engine, h.placed, h.passed, h.fed⟩
  | Close => exact ⟨hclose.engine, hclose.placed, hclose.passed, hclose.fed⟩

/-- The loop passes on one message. -/
theorem makes_pass (c : Connection) (clk : Clock) (data : Bytes) (packet : Option Bytes) :
    Makes c [.send clk data] packet (c.pass clk data) where
  engine := rfl
  placed := (List.append_nil _).symm
  passed := rfl
  fed := Actor.fed_of_forall (by simp [is_local])

/-- The flush after the loop passes on none. -/
theorem makes_flush_writes (c : Connection) (r : Readings) (packet : Option Bytes) :
    Makes c (flush_writes_calls c.actor r) packet (c.flush_writes r) := by
  obtain ⟨flushed, hflushed⟩ : ∃ flushed : Actor,
      flushed = { c.actor with engine := flush_output (c.actor.engine.flush r.flush).1 } := ⟨_, rfl⟩
  unfold flush_writes_calls flush_writes
  dsimp only
  rw [← hflushed]
  split_ifs with hfatal
  · exact ⟨rfl, Actor.places_of_no_recv (by simp) rfl, (List.append_nil _).symm, Actor.fed_of_forall (by simp [is_local])⟩
  · have hengine : Trace.run KcpEngine.step c.actor.engine [.flush r.flush, .drain_output] = flushed.engine := by
      rw [hflushed]
      rfl
    have hplaced : c.actor.Places [.flush r.flush, .drain_output] flushed := by
      rw [hflushed]
      exact Actor.places_of_no_recv (by simp) rfl
    constructor
    · change Trace.run _ _ ([Op.flush r.flush, Op.drain_output] ++ _) = _
      rw [Trace.run_append, hengine]
      exact flushed.run_finish_calls r
    · exact hplaced.trans hengine (flushed.places_finish_closing r)
    · rw [Actor.offered_of_noSend, List.append_nil]
      · rfl
      · simp only [List.mem_cons, forall_eq_or_imp]
        exact ⟨trivial, trivial, Actor.noSend_finish_calls⟩
    · simp only [List.mem_cons, forall_eq_or_imp]
      exact ⟨.inl rfl, .inl rfl, Actor.fed_of_forall (Actor.is_local_finish_calls flushed r)⟩

/-- Whatever a step of the task does to its engine are these calls. -/
theorem makes_advance (c : Connection) (finds : Finds) :
    Makes c (c.advance_calls finds) finds.packet.join (c.advance finds) := by
  unfold advance_calls advance
  by_cases hexited : c.actor.exited.isSome = true
  · rw [if_pos hexited, if_pos hexited]
    exact .none rfl rfl rfl
  rw [if_neg hexited, if_neg hexited]
  have hrunning : c.actor.exited = none := Option.not_isSome_iff_eq_none.mp hexited
  cases c.phase with
  | timer =>
    dsimp only
    split
    · exact makes_timer c _ _
    · exact .none rfl rfl rfl
  | command =>
    dsimp only
    cases c.cmd_tx.queue with
    | nil => exact .none rfl rfl rfl
    | cons cmd rest =>
      dsimp only
      split
      · exact .none rfl rfl rfl
      · next hclosing => exact makes_on_command c hrunning (Bool.eq_false_iff.mpr hclosing) cmd finds _
  | input =>
    dsimp only
    cases finds.packet with
    | none => exact .none rfl rfl rfl
    | some packet => exact makes_packet c packet _
  | send =>
    dsimp only
    cases c.stream.send_tx.queue with
    | nil => exact .none rfl rfl rfl
    | cons data rest =>
      dsimp only
      split
      · exact makes_pass ..
      · exact .none rfl rfl rfl
  | absorb =>
    dsimp only
    cases c.stream.send_tx.queue with
    | nil => exact makes_flush_writes ..
    | cons data rest =>
      dsimp only
      split
      · exact makes_pass ..
      · exact makes_flush_writes ..

/-- The packet that an event brings. -/
def arriving : Event → Option Bytes
  | .advance finds => finds.packet.join
  | _ => none

/-- A call of the owner comes to none. -/
theorem Makes.of_owner {packet : Option Bytes} {after : Connection} {messages : List Bytes} (h : Owner c after messages) :
    Makes c [] packet after := .none h.engine h.placed h.passed

/-- An event comes to the calls of the task in it. -/
theorem makes_step (c : Connection) (event : Event) : Makes c (c.calls event) (arriving event) (c.step event) := by
  cases event with
  | advance finds => exact c.makes_advance finds
  | _ => exact .of_owner (c.owner_step trivial)

end Connection

end kcp_tokio.connection
