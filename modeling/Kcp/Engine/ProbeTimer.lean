import Kcp.Engine.Configured

open kcp_core.protocol kcp_core.config kcp_core.error

namespace kcp_core.engine

namespace KcpEngine

/-- The probe timer while the remote window is closed: it is set, for 120 seconds at most,
either from this reading or, not having expired, from before. -/
theorem probe_timer_closed {self : KcpEngine} (hrmt : self.wnd.rmt = 0) (hwait : self.probe.wait.toNat ≤ 120000)
    (current : Timestamp) :
    (self.probe_timer current).wait ≠ 0 ∧ (self.probe_timer current).wait.toNat ≤ 120000 ∧
      ((self.probe.wait = 0 ∨ 0 ≤ time_diff current self.probe.ts) ∧
          (self.probe_timer current).ts = current + (self.probe_timer current).wait ∨
        self.probe_timer current = self.probe ∧ time_diff current self.probe.ts < 0) := by
  unfold probe_timer
  rw [if_pos hrmt]
  by_cases hzero : self.probe.wait = 0
  · rw [if_pos hzero]
    refine ⟨?_, ?_, .inl ⟨.inl hzero, rfl⟩⟩
    · change constants.IKCP_PROBE_INIT ≠ 0
      decide
    · change constants.IKCP_PROBE_INIT.toNat ≤ 120000
      decide
  · rw [if_neg hzero]
    by_cases hdue : 0 ≤ time_diff current self.probe.ts
    · rw [if_pos hdue]
      dsimp only
      obtain ⟨base, hbase, hlow, hhigh⟩ : ∃ base : U32,
          base = (if self.probe.wait < constants.IKCP_PROBE_INIT then constants.IKCP_PROBE_INIT
            else self.probe.wait) ∧ 7000 ≤ base.toNat ∧ base.toNat ≤ 120000 := by
        refine ⟨_, rfl, ?_⟩
        have hinit : constants.IKCP_PROBE_INIT.toNat = 7000 := rfl
        split
        · omega
        · rename_i hlong
          rw [BitVec.lt_def] at hlong
          omega
      rw [← hbase]
      have hsum : (base + base / 2).toNat = base.toNat + base.toNat / 2 := by
        rw [BitVec.toNat_add, BitVec.toNat_udiv]
        exact Nat.mod_eq_of_lt (by change base.toNat + base.toNat / 2 < 2 ^ 32; omega)
      have hlimit : constants.IKCP_PROBE_LIMIT.toNat = 120000 := rfl
      split
      · exact ⟨by decide, by decide, .inl ⟨.inr hdue, rfl⟩⟩
      · rename_i hshort
        rw [BitVec.lt_def] at hshort
        refine ⟨?_, by omega, .inl ⟨.inr hdue, rfl⟩⟩
        intro h0
        rw [h0] at hsum
        change 0 = _ at hsum
        omega
    · rw [if_neg hdue]
      exact ⟨hzero, hwait, .inr ⟨rfl, by omega⟩⟩

/-- An open window stops the timer. -/
theorem probe_timer_open {self : KcpEngine} (hrmt : self.wnd.rmt ≠ 0) (current : Timestamp) :
    self.probe_timer current = { self.probe with ts := 0, wait := 0 } := by
  unfold probe_timer
  rw [if_neg hrmt]

/-- Where a flush at this reading sets the probe timer, the addition does not wrap. -/
def TimerFits (e : KcpEngine) (now : Timestamp) : Prop :=
  e.wnd.rmt = 0 → (e.probe.wait = 0 ∨ 0 ≤ time_diff now e.probe.ts) →
    now.toNat + (e.probe_timer now).wait.toNat < 2 ^ 32

/-- The probe timer is off, or set for 120 seconds at most to a deadline that `check`
does not take for none. -/
structure TimerSet (e : KcpEngine) : Prop where
  wait_le : e.probe.wait.toNat ≤ 120000
  deadline : e.probe.wait ≠ 0 → e.probe.ts ≠ 0

/-- A closed window sets it, no further than two minutes ahead. -/
theorem timerSet_probe_timer {e : KcpEngine} (h : TimerSet e) {now : Timestamp} (hfits : TimerFits e now) :
    (e.probe_timer now).wait.toNat ≤ 120000 ∧ ((e.probe_timer now).wait ≠ 0 → (e.probe_timer now).ts ≠ 0) ∧
      (e.wnd.rmt = 0 → (e.probe_timer now).wait ≠ 0) := by
  by_cases hrmt : e.wnd.rmt = 0
  · obtain ⟨hpos, hle, ⟨hdue, hts⟩ | ⟨hsame, _⟩⟩ := probe_timer_closed hrmt h.wait_le now
    · refine ⟨hle, fun _ h0 => ?_, fun _ => hpos⟩
      have hsum := hfits hrmt hdue
      have hzero := congrArg BitVec.toNat (hts.symm.trans h0)
      rw [BitVec.toNat_add, Nat.mod_eq_of_lt hsum] at hzero
      apply hpos
      apply BitVec.eq_of_toNat_eq
      change _ = 0
      change _ = 0 at hzero
      omega
    · refine ⟨hle, fun hwait => ?_, fun _ => hpos⟩
      rw [hsame] at hwait ⊢
      exact h.deadline hwait
  · rw [probe_timer_open hrmt]
    exact ⟨Nat.zero_le _, fun h0 => absurd rfl h0, fun hzero => absurd hzero hrmt⟩

/-- What every flush leaves behind: no ACK and no probe is waiting to go out, and while
the remote window is closed the probe timer is armed. -/
structure Flushed (e : KcpEngine) : Prop where
  acks : e.ack_list = []
  flags : e.probe.flags = 0
  armed : e.wnd.rmt = 0 → e.probe.wait ≠ 0 ∧ e.probe.ts ≠ 0

/-- A flush leaves a timer that is set exactly while the window is closed. -/
theorem timerSet_flush {e : KcpEngine} (h : TimerSet e) {clk : Clock} (hfits : TimerFits e clk.now) :
    TimerSet (e.flush clk).1 ∧ Flushed (e.flush clk).1 := by
  obtain ⟨hle, hdeadline, harmed⟩ := timerSet_probe_timer h hfits
  obtain ⟨queue, buf, stats, heq⟩ := e.flush_shape clk
  obtain ⟨_, _, hrmt⟩ := e.flushed_wnd_frame clk.now
  rw [heq]
  refine ⟨⟨hle, hdeadline⟩, ⟨rfl, rfl, ?_⟩⟩
  intro hclosed
  have hzero : e.wnd.rmt = 0 := hrmt.symm.trans hclosed
  exact ⟨harmed hzero, hdeadline (harmed hzero)⟩

/-- A reading below `2 ^ 30` leaves room for any wait. -/
theorem timerFits_of_early {e : KcpEngine} (h : TimerSet e) {now : Timestamp} (hnow : now.toNat < 2 ^ 30) : TimerFits e now := by
  intro hrmt _
  obtain ⟨_, hwait, _⟩ := probe_timer_closed hrmt h.wait_le now
  omega

/-- The call runs no flush whose probe timer wraps. -/
def StepFits (e : KcpEngine) (op : Op) : Prop := ∀ clk, e.flush_of op = some clk → TimerFits e clk.now

theorem TimerFits.of_flags {e : KcpEngine} {now : Timestamp} (h : TimerFits e now) (last : Timestamp) (flags : U32) :
    TimerFits { e with last_update := last, probe := { e.probe with flags } } now := by
  have hwait : (probe_timer { e with last_update := last, probe := { e.probe with flags } } now).wait =
      (e.probe_timer now).wait := by
    unfold probe_timer
    dsimp only
    split_ifs <;> rfl
  intro hrmt hdue
  rw [hwait]
  exact h hrmt hdue

/-- Every call does. -/
theorem timerSet_step {self : KcpEngine} (h : TimerSet self) (op : Op) (hfits : StepFits self op) :
    TimerSet (self.step op) := by
  apply step_rule (P := TimerSet) op
  · intro clk data _
    obtain ⟨queue, sent, heq⟩ := self.send_shape clk data
    rw [heq]
    exact ⟨h.wait_le, h.deadline⟩
  · intro _
    obtain ⟨queue, buf, nxt, flags, received, heq⟩ := self.recv_shape
    rw [heq]
    exact ⟨h.wait_le, h.deadline⟩
  · intro now data _
    have hframe := self.inputFrame_input now data
    constructor
    · rw [hframe.wait]; exact h.wait_le
    · rw [hframe.wait, hframe.ts]; exact h.deadline
  · intro last flags clk hflush
    have hsame : TimerSet { self with last_update := last, probe := { self.probe with flags } } :=
      ⟨h.wait_le, h.deadline⟩
    exact (timerSet_flush hsame ((hfits clk hflush).of_flags last flags)).1
  · exact fun _ => ⟨h.wait_le, h.deadline⟩
  · exact ⟨h.wait_le, h.deadline⟩
  · exact fun _ => ⟨h.wait_le, h.deadline⟩

end KcpEngine

open KcpEngine

/-- In every run the timer is set exactly while it should be. -/
theorem Start.timerSet (start : Start) (ops : List Op)
    (h : Trace.Always KcpEngine.step StepFits start.fresh ops) : TimerSet (start.reached ops) := by
  apply Trace.invariant_of_always (P := fun _ e => TimerSet e) _ _ h
  · exact ⟨Nat.zero_le _, fun h0 => absurd rfl h0⟩
  · intro ops op hset hfits
    exact timerSet_step hset op hfits

end kcp_core.engine
