import Kcp.Engine.Check

open kcp_core.protocol kcp_core.config kcp_core.error

namespace kcp_core.engine

namespace KcpEngine

/-! ### A flush with nothing to do -/

/-- What a flush that goes through leaves behind. -/
structure Rested (e : KcpEngine) : Prop extends Flushed e where
  off : e.wnd.rmt ≠ 0 → e.probe.wait = 0 ∧ e.probe.ts = 0
  packed : e.out_buf = []
  open_wnd : ¬ e.wnd.cwnd < 1

theorem out_buf_flush_out_buf (self : KcpEngine) : self.flush_out_buf.out_buf = [] := by
  unfold flush_out_buf
  by_cases hempty : self.out_buf = []
  · rw [if_neg (not_not.mpr hempty)]
    exact hempty
  · rw [if_pos hempty]

theorem loss_wnd_quiet {mss inflight resend : U32} {wnd : WindowState} (h : ¬ wnd.cwnd < 1) :
    loss_wnd mss inflight false false resend wnd = wnd := if_neg h

theorem rested_flush {e : KcpEngine} (h : TimerSet e) {clk : Clock} (hfits : TimerFits e clk.now)
    (hok : (e.flush clk).2 = .ok ()) : Rested (e.flush clk).1 := by
  have hlives : ¬ e.flush_dies clk.now = true := by
    intro hdies
    rw [flush_result, if_pos hdies] at hok
    cases hok
  obtain ⟨queue, buf, stats, hshape⟩ := e.flush_shape clk
  obtain ⟨_, _, hrmt⟩ := e.flushed_wnd_frame clk.now
  refine { toFlushed := (timerSet_flush h hfits).2, off := ?_, packed := ?_, open_wnd := ?_ }
  · rw [hshape]
    dsimp only
    rw [hrmt]
    intro hopen
    rw [probe_timer_open hopen]
    exact ⟨rfl, rfl⟩
  · rw [flush_eq, if_neg hlives]
    exact out_buf_flush_out_buf _
  · rw [hshape]
    dsimp only
    unfold flushed_wnd
    rw [if_neg hlives]
    apply floor_wnd_pos

/-- The probe timer stands still until it expires. -/
theorem probe_timer_still {e : KcpEngine} {now : Timestamp} (hoff : e.wnd.rmt ≠ 0 → e.probe.wait = 0 ∧ e.probe.ts = 0)
    (hrunning : e.wnd.rmt = 0 → e.probe.wait ≠ 0 ∧ time_diff now e.probe.ts < 0) : e.probe_timer now = e.probe := by
  by_cases hrmt : e.wnd.rmt = 0
  · obtain ⟨hwait, hearly⟩ := hrunning hrmt
    unfold probe_timer
    rw [if_pos hrmt, if_neg hwait, if_neg (by omega)]
  · obtain ⟨hwait, hts⟩ := hoff hrmt
    rw [probe_timer_open hrmt]
    cases hstate : e.probe with
    | mk flags wait ts =>
      rw [hstate] at hwait hts
      dsimp only at hwait hts
      rw [hwait, hts]

theorem probe_timer_rested {e : KcpEngine} (h : Rested e) {now : Timestamp}
    (hprobe : e.wnd.rmt = 0 → time_diff now e.probe.ts < 0) : e.probe_timer now = e.probe :=
  probe_timer_still h.off fun hrmt => ⟨(h.armed hrmt).1, hprobe hrmt⟩

def with_stats (self : KcpEngine) (stats : KcpStats) : KcpEngine := { self with stats }

/-- The statistics as a flush leaves them. -/
def reported (self : KcpEngine) : KcpStats := self.update_congestion_control.stats

theorem reported_update_congestion_control (self : KcpEngine) :
    self.update_congestion_control.reported = self.update_congestion_control.stats := rfl

/-- A flush that has nothing to send, no timer to set and nothing to close. -/
theorem flush_nothing {e : KcpEngine} {clk : Clock} (hacks : e.ack_list = []) (hflags : e.probe.flags = 0)
    (htimer : e.probe_timer clk.now = e.probe) (hnone : NothingDue e clk.now) (hopen : ¬ e.wnd.cwnd < 1)
    (hpacked : e.out_buf = []) :
    e.emissions clk = [] ∧ e.flush clk = (e.with_stats e.reported, .ok ()) := by
  have hdue : (e.ready clk.now).due clk.now = [] := (e.due_ready_eq_nil_iff clk.now).mpr hnone
  have hemit : e.emissions clk = [] := by
    rw [emissions, hdue, acks_out, hacks, probes_out, htimer, hflags]
    rfl
  have hlives : ¬ e.flush_dies clk.now = true := by
    rw [flush_dies, hdue]
    exact Bool.false_ne_true
  have hready : e.ready clk.now = e := by
    have hprobe : ({ e.probe with flags := 0 } : ProbeState) = e.probe := by rw [← hflags]
    rw [ready_eq, htimer, hprobe, hnone.2, ← hacks]
    simp [numbered]
  have hcount : ∀ mark : Mark, mark ≠ .hold → (e.snd_buf.map (mark_of clk.now e.resend_threshold)).count mark = 0 := by
    intro mark hmark
    rw [List.count_eq_zero]
    intro hmem
    obtain ⟨segment, hsegment, heq⟩ := List.mem_map.mp hmem
    exact hmark (heq.symm.trans (hnone.1 segment hsegment))
  have htimeouts : e.timeouts clk.now = 0 := hcount .timeout (by decide)
  have hfasts : e.fasts clk.now = 0 := hcount .fast (by decide)
  have hmarks : e.snd_buf.map (e.mark_segment clk.now e.resend_threshold e.rto_margin) = e.snd_buf := by
    conv_rhs => rw [← List.map_id e.snd_buf]
    refine List.map_congr_left fun segment hmem => ?_
    unfold mark_segment
    rw [hnone.1 segment hmem]
    rfl
  have hscan : e.scanned clk.now = e := by
    unfold scanned mark_segments_for_send
    unfold timeouts at htimeouts
    unfold fasts at hfasts
    simp only [hmarks, htimeouts, hfasts, Nat.add_zero]
  have hlost : e.flush_lost clk = e := by rw [flush_lost, hemit, with_output_nil, hready, hscan]
  have hclosed : e.flush_out_buf = e := if_neg (not_not.mpr hpacked)
  refine ⟨hemit, ?_⟩
  rw [flush_eq, if_neg hlives, flush_done, hready, htimeouts, hfasts, hlost, update_congestion_on_loss_eq]
  simp only [lt_self_iff_false, decide_false]
  rw [loss_wnd_quiet hopen]
  change (e.flush_out_buf.update_congestion_control, _) = _
  rw [hclosed]
  rfl

end KcpEngine

open KcpEngine

/-- An engine with one of the named modes. -/
def in_mode (nodelay : NodeDelayConfig) (h : nodelay.interval ≠ 0) : Start where
  conv := 7
  config := { kcp_tokio.config.KcpConfig.default with
    nodelay
    accepted := by
      unfold kcp_tokio.config.KcpConfig.validate
      simpa [kcp_tokio.config.KcpConfig.default] using h }
  updated := 0
  active := 0

def fast : Start := in_mode .fast (by decide)

def turbo : Start := in_mode .turbo (by decide)

/-- The datagram of one ACK. -/
def one_ack (sn : SeqNum) (ts : Timestamp) : Bytes := (ack_segment 7 128 0 0 (sn, ts)).bytes

end kcp_core.engine
