import Kcp.Engine.Check
import Kcp.Actor.Leftover

/-! How long the task sleeps. -/

open Mpsc kcp_core.protocol kcp_core.error kcp_core.engine

namespace kcp_tokio.actor

/-- The period of the engine, a millisecond at least. -/
def Settings.tick (self : Settings) : Nat := max 1 self.update_interval_ms

/-- The timers of the engine, or what it has to send, keep the sleep within a period. -/
def Ticks (self : Actor) (now : Timestamp) : Prop :=
  self.settings.idle_cap_ms ≤ self.settings.tick ∨
    (self.engine.ack_list ≠ [] ∨ self.engine.probe.flags ≠ 0) ∨
    (∃ d ∈ self.engine.deadlines, time_diff d now ≤ self.settings.tick) ∨
    (self.engine.deadlines = [] ∧ 30000 ≤ self.settings.tick)

theorem wait_le_tick_iff (self : Actor) (now : Timestamp) : self.wait now ≤ self.settings.tick ↔ Ticks self now := by
  have htick : 1 ≤ self.settings.tick := le_max_left ..
  have hcheck := self.engine.check_le_iff now (n := self.settings.tick)
  unfold Actor.wait Ticks
  rw [← hcheck]
  omega

/-- The channel is full and a message waits for a slot. -/
def Stuck (self : Actor) : Prop := Holds self.engine ∧ ¬ self.data_tx.HasRoom

open Actor

/-- In every state of every run of the task, whether or not a message waits in the engine for
a slot, the next sleep is within a period of the engine exactly if something other than that
message keeps it so. -/
theorem sleep_within_tick_iff (settings : Settings) (engine : KcpEngine) (data_tx : Channel Bytes) (last_probe : Nat)
    (first : Timestamp) (clk : Clock) (pace : Nat → Nat) (events : List Event) (now : Timestamp) :
    (Trace.run step (start settings engine data_tx last_probe first clk pace) events).wait now ≤ settings.tick ↔
      Ticks (Trace.run step (start settings engine data_tx last_probe first clk pace) events) now := by
  obtain ⟨hsettings, _⟩ := advances_run (start settings engine data_tx last_probe first clk pace) events
  have hiff := wait_le_tick_iff (Trace.run step (start settings engine data_tx last_probe first clk pace) events) now
  rwa [hsettings] at hiff

theorem Backlogged.wait {a : Actor} (h : Backlogged a) : a.wait 0 = 1000 := by
  have hidle : a.engine.check 0 = 30000 := by
    have hnone : a.engine.deadlines = [] := by
      unfold KcpEngine.deadlines
      rw [h.snd_buf, h.probe]
      simp
    unfold KcpEngine.check
    rw [if_neg (by simp [h.acks, h.probe])]
    dsimp only
    rw [if_pos (KcpEngine.next_deadline_eq_max_iff.mpr hnone)]
  unfold Actor.wait
  rw [hidle, h.settings]
  rfl

/-- A message waits in the engine, and the task sleeps for a second with a period of 40
milliseconds. -/
theorem stuck_oversleeps :
    slow_reader.settings.tick = 40 ∧ Stuck (Trace.run step slow_reader [.packet (some burst) (.at 0)]) ∧
      (Trace.run step slow_reader [.packet (some burst) (.at 0)]).wait 0 = 1000 := by
  have harrived : slow_reader.step (.packet (some burst) (.at 0)) = backlog := by rw [backlog]
  rw [Trace.run_cons, Trace.run_nil, harrived]
  have h := backlogged_backlog
  exact ⟨rfl, ⟨h.holds, h.full⟩, h.wait⟩

end kcp_tokio.actor
