import Kcp.Actor.Backpressure
import Kcp.Connection.Bytes

/-! A task that has begun to close has passed on everything that was written. -/

open Mpsc kcp_core.protocol kcp_core.error kcp_core.engine kcp_tokio.stream kcp_tokio.actor

namespace kcp_tokio.connection

namespace Connection

variable {c : Connection} {mss limit : Nat}

/-- Every write has been passed on, and somebody has asked the task to close. -/
structure Shut (c : Connection) : Prop where
  passed : c.passed = c.stream.send_tx.sent
  asked : .Close ∈ c.cmd_tx.sent

/-- A task that closes has nothing more to take. -/
def Emptied (c : Connection) : Prop := c.actor.closing = true → Shut c

/-- Nothing is written to an open stream once its task has been asked to close. -/
def Stops (self : Connection) : Event → Prop
  | .poll_write .. | .send .. => self.stream.closed = false → .Close ∉ self.cmd_tx.sent
  | _ => True

instance decidableStops (self : Connection) : (event : Event) → Decidable (self.Stops event)
  | .poll_write .. | .send .. => inferInstanceAs (Decidable (self.stream.closed = false → .Close ∉ self.cmd_tx.sent))
  | .poll_flush .. | .poll_read .. | .recv _ | .poll_shutdown .. | .close .. | .drop_close | .request _ | .advance _ =>
    .isTrue trivial

/-! ### Commands stay asked for -/

/-- What has been asked stays asked. -/
theorem Commands.asked {after : Connection} (h : Commands c after) : c.cmd_tx.sent <+: after.cmd_tx.sent := by
  rcases h with heq | ⟨hroom, cmd, heq⟩
  · rw [heq]
  · rw [heq]
    exact List.prefix_append ..

/-- The end of a branch asks for nothing. -/
theorem drive_cmd (c : Connection) (actor : Actor) : (c.drive actor).cmd_tx.sent = c.cmd_tx.sent := by
  unfold drive
  dsimp only
  split <;> rfl

/-! ### Steps -/

/-- A stream to which nothing is written stays shut. -/
theorem Shut.of_same {after : Connection} (h : Shut c) (hpassed : after.passed = c.passed)
    (hsent : after.stream.send_tx.sent = c.stream.send_tx.sent) (hcmd : c.cmd_tx.sent <+: after.cmd_tx.sent) : Shut after where
  passed := by rw [hpassed, hsent, h.passed]
  asked := hcmd.subset h.asked

/-- A branch that does not close leaves the task as open or closed as it was. -/
theorem Emptied.drive (h : Emptied c) {actor : Actor} (hclosing : actor.closing = true → c.actor.closing = true) :
    Emptied (c.drive actor) := fun hafter =>
  (h (hclosing hafter)).of_same rfl (drive_sent c actor) (drive_cmd c actor ▸ List.prefix_rfl)

/-- A turn without a close in it does not begin to close. -/
theorem closing_of_turn {a : Actor} (event : actor.Event) (hevent : ¬ event.Closes) {r : Readings}
    (h : (a.turn event r).closing = true) : a.closing = true := by
  rcases a.closing_turn event r with ⟨hsame, _⟩ | hflag
  · rwa [hsame] at h
  · rwa [hflag, decide_eq_false hevent, Bool.or_false] at h

/-- A command that closes takes all messages first. -/
theorem emptied_on_command (h : Emptied c) (hlined : Lined mss limit c) (hrunning : c.actor.exited = none) {cmd : EngineCmd}
    {rest : List EngineCmd} (hqueue : c.cmd_tx.queue = cmd :: rest) (finds : Finds) : Emptied (c.on_command cmd finds) := by
  have htaken : ∀ pending_flush, Emptied { c with cmd_tx := c.cmd_tx.take 1, pending_flush } := fun _ hclosing =>
    (h hclosing).of_same rfl rfl List.prefix_rfl
  cases cmd with
  | Flush => exact Emptied.drive (c := reply { c with cmd_tx := c.cmd_tx.take 1 } _) (htaken _) (closing_of_turn _ id)
  | Stats => exact (htaken c.pending_flush).drive (closing_of_turn _ id)
  | IsAlive => exact (htaken c.pending_flush).drive (closing_of_turn _ id)
  | Close =>
    intro _
    constructor
    · change c.passed ++ c.stream.send_tx.queue = (drive _ _).stream.send_tx.sent
      rw [drive_sent]
      exact hlined.waiting hrunning
    · change _ ∈ (drive _ _).cmd_tx.sent
      rw [drive_cmd]
      exact c.cmd_tx.fifo.subset (hqueue ▸ List.mem_cons_self)

/-- While it closes there is nothing to take. -/
theorem Emptied.queue (h : Emptied c) (hlined : Lined mss limit c) (hrunning : c.actor.exited = none)
    (hclosing : c.actor.closing = true) : c.stream.send_tx.queue = [] := by
  have hall := hlined.waiting hrunning
  rw [(h hclosing).passed] at hall
  exact List.append_right_eq_self.mp hall

/-- The loop finds no message while the task closes. -/
theorem emptied_pass (h : Emptied c) (hlined : Lined mss limit c) (hrunning : c.actor.exited = none) {data : Bytes}
    {rest : List Bytes} (hqueue : c.stream.send_tx.queue = data :: rest) (clk : Clock) : Emptied (c.pass clk data) := by
  intro hclosing
  have hnone := h.queue hlined hrunning hclosing
  rw [hqueue] at hnone
  cases hnone

theorem emptied_flush_writes (h : Emptied c) (r : Readings) : Emptied (c.flush_writes r) := by
  unfold flush_writes
  dsimp only
  split
  · exact h.drive id
  · refine h.drive fun hclosing => ?_
    unfold Actor.finish_closing at hclosing
    split at hclosing <;> exact hclosing

/-- No step of the task leaves a message behind in closing. -/
theorem emptied_advance (h : Emptied c) (hlined : Lined mss limit c) (finds : Finds) : Emptied (c.advance finds) := by
  have hphase : ∀ phase, Emptied { c with phase } := fun _ hclosing => (h hclosing).of_same rfl rfl List.prefix_rfl
  unfold advance
  by_cases hexited : c.actor.exited.isSome = true
  · rw [if_pos hexited]
    exact h
  rw [if_neg hexited]
  have hrunning : c.actor.exited = none := Option.not_isSome_iff_eq_none.mp hexited
  split
  · split
    · exact h.drive (closing_of_turn (.timer finds.readings) id)
    · exact hphase .command
  · split
    · next hqueue =>
      split
      · exact hphase .input
      · exact emptied_on_command h hlined hrunning hqueue finds
    · exact hphase .input
  · split
    · next packet _ => exact h.drive (closing_of_turn (.packet packet finds.readings) id)
    · exact hphase .send
  · split
    · next hqueue =>
      split
      · exact emptied_pass h hlined hrunning hqueue _
      · exact hphase .timer
    · exact hphase .timer
  · split
    · next hqueue =>
      split
      · exact emptied_pass h hlined hrunning hqueue _
      · exact emptied_flush_writes h _
    · exact emptied_flush_writes h _

/-- A call that writes nothing. -/
theorem Owner.emptied {after : Connection} (h : Owner c after []) (hemptied : Emptied c) : Emptied after := fun hclosing =>
  (hemptied (h.closing.symm.trans hclosing)).of_same h.passed (h.hands.sent.trans (List.append_nil _)) h.commands.asked

/-- A call that may write: a closed stream refuses it, and the task of an open one is not asked to close. -/
theorem Owner.emptied_of_stops {after : Connection} {messages : List Bytes} (h : Owner c after messages) (hemptied : Emptied c)
    (hstops : c.stream.closed = false → .Close ∉ c.cmd_tx.sent) : Emptied after := by
  by_cases hclosed : c.stream.closed = true
  · obtain ⟨_, rfl⟩ := h.hands.closed hclosed
    exact h.emptied hemptied
  · exact fun hclosing => absurd (hemptied (h.closing.symm.trans hclosing)).asked (hstops (Bool.eq_false_iff.mpr hclosed))

/-- If nothing is written any more, no call leaves a message behind in closing. -/
theorem emptied_step (h : Emptied c) (hlined : Lined mss limit c) {event : Event} (hstops : c.Stops event) :
    Emptied (c.step event) := by
  cases event with
  | poll_write buf spent => exact Owner.emptied_of_stops (c.owner_step trivial) h hstops
  | send data spent => exact Owner.emptied_of_stops (c.owner_step trivial) h hstops
  | advance finds => exact emptied_advance h hlined finds
  | _ => exact Owner.emptied (c.owner_step trivial) h

end Connection

end kcp_tokio.connection
