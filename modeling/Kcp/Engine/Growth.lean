import Kcp.Engine.Congestion

open kcp_core.protocol kcp_core.config kcp_core.error

/-! How far the congestion window goes in one step. -/

namespace kcp_core.engine

namespace KcpEngine

variable {mss : U32}

/-! ### Growth -/

/-- The recurrence of congestion avoidance stays below two segments and a half on top of a
window of one, and gains at most half a segment from two segments on. -/
theorem avoidance_sum_le {m base n : Nat} (hlow : m ≤ base) (hhigh : base ≤ (n + 1) * m) (hn : 1 ≤ n) :
    2 * (base + m * m / base) ≤ 2 * ((n + 1) * m) + m := by
  rcases Nat.eq_zero_or_pos base with hzero | hpos
  · simp [hzero]
  have hquot : m * m / base * base ≤ m * m := Nat.div_mul_le_self ..
  by_cases htwo : 2 * m ≤ base
  · have hhalf : 2 * (m * m / base) ≤ m := by
      by_contra hlarge
      have hmore : (m + 1) * base ≤ 2 * (m * m / base) * base := Nat.mul_le_mul_right _ (by omega)
      nlinarith
    omega
  · have hsmall : 2 * (base + m * m / base) ≤ 5 * m := by
      by_contra hlarge
      have hmore : (5 * m + 1) * base ≤ 2 * (base + m * m / base) * base := Nat.mul_le_mul_right _ (by omega)
      nlinarith
    have hmost : 2 * m ≤ (n + 1) * m := Nat.mul_le_mul_right _ (by omega)
    omega

/-- Congestion avoidance adds at most two segments, and takes none away. -/
theorem grow_in_avoidance_step (hlow : 40 ≤ mss.toNat) (hhigh : mss.toNat ≤ 65511) {wnd : WindowState}
    (h : Congestion mss wnd) (hroom : wnd.cwnd.toNat < 65535) :
    wnd.cwnd.toNat ≤ (grow_in_avoidance mss wnd).cwnd.toNat ∧
      (grow_in_avoidance mss wnd).cwnd.toNat ≤ wnd.cwnd.toNat + 2 := by
  obtain ⟨hbase, hbelow⟩ := avoidance_base_bounds h
  obtain ⟨hstep, hquot⟩ := avoidance_step_le hlow hhigh hbase
  have hsum := avoidance_sum_le hbase (by omega) h.cwnd_pos
  have hbytes := window_bytes_lt hhigh (n := wnd.cwnd.toNat + 2) (by omega)
  have hsplit : (wnd.cwnd.toNat + 2) * mss.toNat = (wnd.cwnd.toNat + 1) * mss.toNat + mss.toNat := by ring
  have hcount : (wnd.cwnd + 1).toNat = wnd.cwnd.toNat + 1 :=
    Word.toNat_add_of_lt (by change wnd.cwnd.toNat + 1 < 2 ^ 32; omega)
  have hnext : ((wnd.cwnd + 1) * mss).toNat = (wnd.cwnd.toNat + 1) * mss.toNat := by
    rw [Word.toNat_mul_of_lt (by rw [hcount]; omega), hcount]
  have hincr : (avoidance_base mss wnd + avoidance_step mss (avoidance_base mss wnd)).toNat =
      (avoidance_base mss wnd).toNat + (avoidance_step mss (avoidance_base mss wnd)).toNat :=
    Word.toNat_add_of_lt (by omega)
  rw [grow_in_avoidance_eq]
  dsimp only
  split
  · next hgrow =>
    rw [BitVec.le_def, hnext, hincr] at hgrow
    have hmss : 0 < mss := by
      rw [BitVec.lt_def]
      change 0 < mss.toNat
      omega
    rw [if_pos hmss]
    obtain ⟨hcover, hless⟩ := Word.div_ceil_spec
      (a := avoidance_base mss wnd + avoidance_step mss (avoidance_base mss wnd)) (b := mss) (by omega)
    rw [hincr] at hcover hless
    refine ⟨?_, ?_⟩
    · have hfew : (wnd.cwnd.toNat + 1) * mss.toNat ≤ (Word.div_ceil (avoidance_base mss wnd +
          avoidance_step mss (avoidance_base mss wnd)) mss).toNat * mss.toNat := by omega
      have := Nat.le_of_mul_le_mul_right hfew (by omega)
      omega
    · have hmany : (Word.div_ceil (avoidance_base mss wnd + avoidance_step mss (avoidance_base mss wnd)) mss).toNat *
          mss.toNat < (wnd.cwnd.toNat + 3) * mss.toNat := by
        have hthree : (wnd.cwnd.toNat + 3) * mss.toNat = (wnd.cwnd.toNat + 2) * mss.toNat + mss.toNat := by ring
        omega
      have := Nat.lt_of_mul_lt_mul_right hmany
      omega
  · exact ⟨le_rfl, Nat.le_add_right _ _⟩

/-- One growth step: at most two segments more, and no more than the peer lets. -/
theorem grow_cwnd_step (hlow : 40 ≤ mss.toNat) (hhigh : mss.toNat ≤ 65511) {wnd : WindowState}
    (h : Congestion mss wnd) (hroom : wnd.cwnd < wnd.rmt) :
    wnd.cwnd.toNat ≤ (grow_cwnd mss wnd).cwnd.toNat ∧ (grow_cwnd mss wnd).cwnd.toNat ≤ wnd.cwnd.toNat + 2 ∧
      (grow_cwnd mss wnd).cwnd.toNat ≤ wnd.rmt.toNat ∧ (grow_cwnd mss wnd).rmt = wnd.rmt ∧
      (grow_cwnd mss wnd).ssthresh = wnd.ssthresh := by
  have hrmt := h.rmt_le
  rw [BitVec.lt_def] at hroom
  obtain ⟨grown, heq, hle, htwo, hsame, hthresh⟩ : ∃ grown,
      (if wnd.cwnd < wnd.ssthresh then slow_start mss wnd else grow_in_avoidance mss wnd) = grown ∧
        wnd.cwnd.toNat ≤ grown.cwnd.toNat ∧ grown.cwnd.toNat ≤ wnd.cwnd.toNat + 2 ∧ grown.rmt = wnd.rmt ∧
        grown.ssthresh = wnd.ssthresh := by
    refine ⟨_, rfl, ?_⟩
    split
    · have hcount : (wnd.cwnd + 1).toNat = wnd.cwnd.toNat + 1 :=
        Word.toNat_add_of_lt (by change wnd.cwnd.toNat + 1 < 2 ^ 32; omega)
      change wnd.cwnd.toNat ≤ (wnd.cwnd + 1).toNat ∧ (wnd.cwnd + 1).toNat ≤ _ ∧ _
      exact ⟨by omega, by omega, rfl, rfl⟩
    · obtain ⟨hle, htwo⟩ := grow_in_avoidance_step hlow hhigh h (by omega)
      exact ⟨hle, htwo, by rw [grow_in_avoidance_eq], by rw [grow_in_avoidance_eq]⟩
  rw [grow_cwnd_eq, heq]
  unfold cut_to_rmt
  split
  · next hcut =>
    rw [BitVec.lt_def, hsame] at hcut
    dsimp only
    rw [hsame]
    exact ⟨by omega, by omega, le_rfl, rfl, hthresh⟩
  · next hcut =>
    rw [BitVec.lt_def, hsame] at hcut
    exact ⟨hle, htwo, by omega, hsame, hthresh⟩

/-! ### The engine -/

/-- What one datagram does to the congestion window. -/
structure Disciplined (before after : KcpEngine) : Prop where
  held : seq_after after.snd_una before.snd_una = false → after.wnd.cwnd = before.wnd.cwnd
  kept : before.wnd.cwnd.toNat ≤ after.wnd.cwnd.toNat
  grown : after.wnd.cwnd.toNat ≤ before.wnd.cwnd.toNat + 2
  allowed : before.wnd.cwnd.toNat < after.wnd.cwnd.toNat → after.wnd.cwnd.toNat ≤ after.wnd.rmt.toNat

/-- A datagram opens the congestion window by the rules alone. -/
theorem disciplined_input {e : KcpEngine} (h : Congested e) (hlow : 40 ≤ e.mss.toNat) (hhigh : e.mss.toNat ≤ 65511)
    (current : Timestamp) (data : Bytes) : Disciplined e (e.input current data).1 := by
  have hsame : ∀ after : KcpEngine, after.wnd.cwnd = e.wnd.cwnd → Disciplined e after := by
    intro after heq
    exact ⟨fun _ => heq, by rw [heq], by rw [heq]; omega, fun hlt => by rw [heq] at hlt; omega⟩
  by_cases hshort : data.length < KcpHeader.SIZE
  · rw [input_short hshort]
    exact hsame _ rfl
  · rw [input_eq hshort]
    obtain ⟨hmss, hwnd⟩ := congested_input_loop h current data
    have hcwnd := (loopFrame_input_loop e current data).cwnd
    obtain heq | ⟨hafter, hroom, hgrow⟩ := input_finish_wnd (e.input_loop current data).1 e.snd_una (e.input_loop current data).2
    · exact hsame _ (by rw [heq, hcwnd])
    · rw [hmss] at hgrow
      obtain ⟨hkept, htwo, hallowed, hrmt, _⟩ := grow_cwnd_step hlow hhigh hwnd hroom
      rw [hcwnd] at hkept htwo
      refine ⟨fun hnot => ?_, by rw [hgrow]; exact hkept, by rw [hgrow]; exact htwo, fun _ => ?_⟩
      · exact absurd (hafter.symm.trans hnot) (by decide)
      · rw [hgrow, hrmt]
        exact hallowed

/-- The slow-start threshold is at least two segments. -/
def Thresholded (e : KcpEngine) : Prop := 2 ≤ e.wnd.ssthresh.toNat

/-- A flush keeps the threshold at two segments or more. -/
theorem thresholded_flush {e : KcpEngine} (h : Thresholded e) (clk : Clock) : Thresholded (e.flush clk).1 := by
  have hmin : constants.IKCP_THRESH_MIN.toNat = 2 := rfl
  obtain ⟨queue, buf, stats, heq⟩ := e.flush_shape clk
  rw [heq]
  change 2 ≤ (e.flushed_wnd clk.now).ssthresh.toNat
  unfold flushed_wnd
  split
  · exact h
  · apply loss_wnd_rule (P := fun w => 2 ≤ w.ssthresh.toNat)
    · intro w _
      unfold fast_wnd
      dsimp only
      split
      · exact hmin.ge
      · next hge =>
        rw [BitVec.lt_def, hmin] at hge
        omega
    · intro w _
      unfold lost_wnd
      dsimp only
      rw [Word.toNat_max, hmin]
      exact le_max_right _ _
    · intro w hw
      unfold floor_wnd
      split <;> exact hw
    · exact h

/-- Every call keeps the threshold at two segments or more. -/
theorem thresholded_step {e : KcpEngine} (h : Thresholded e) (op : Op) : Thresholded (e.step op) := by
  apply step_rule (P := Thresholded) op
  · intro clk data _
    obtain ⟨queue, sent, heq⟩ := e.send_shape clk data
    rw [heq]
    exact h
  · intro _
    obtain ⟨queue, buf, nxt, flags, received, heq⟩ := e.recv_shape
    rw [heq]
    exact h
  · intro now data _
    unfold Thresholded
    rw [(e.inputFrame_input now data).ssthresh]
    exact h
  · intro last flags clk _
    apply thresholded_flush
    exact h
  · exact fun _ => h
  · exact h
  · exact fun _ => h

end KcpEngine

open KcpEngine

/-- In every run the threshold is two segments or more. -/
theorem Start.thresholded (start : Start) (ops : List Op) : Thresholded (start.reached ops) := by
  apply Trace.invariant (P := fun _ e => Thresholded e)
  · exact (by decide : 2 ≤ constants.IKCP_THRESH_INIT.toNat)
  · exact fun _ op h => thresholded_step h op

/-- With one of the named modes, against an arbitrary peer: the congestion window is at least
one segment and the threshold at least two, and `incr` stays short of the byte count of a
larger window. A datagram leaves the window as it is unless it advances `snd_una`, and then
adds at most two segments, up to the remote window. -/
theorem congestion_discipline (start : Start) (hmode : start.config.nodelay.IsPreset) (ops : List Op) :
    1 ≤ (start.reached ops).wnd.cwnd.toNat ∧ 2 ≤ (start.reached ops).wnd.ssthresh.toNat ∧
      (start.reached ops).wnd.incr.toNat < ((start.reached ops).wnd.cwnd.toNat + 1) * (start.reached ops).mss.toNat ∧
      ∀ now data, Disciplined (start.reached ops) ((start.reached ops).input now data).1 := by
  have hcongested := start.congested hmode ops
  obtain ⟨hlow, hhigh⟩ := mss_bounds (start.configured ops) start.accepted
  refine ⟨hcongested.cwnd_pos, start.thresholded ops, hcongested.incr_lt, fun now data => ?_⟩
  exact disciplined_input hcongested hlow hhigh now data

/-- A segment is lost, and its retransmission acknowledged. -/
theorem congestion_discipline_lost :
    Disciplined (plain.reached [.send (.at 0) [1], .flush (.at 0), .flush (.at 400)])
      ((plain.reached [.send (.at 0) [1], .flush (.at 0), .flush (.at 400)]).input 500 (KcpSegment.ack 7 0 400 0).bytes).1 :=
  (congestion_discipline plain (.inl rfl) _).2.2.2 500 _

end kcp_core.engine
