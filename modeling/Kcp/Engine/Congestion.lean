import Kcp.Engine.SendWindow

open kcp_core.protocol kcp_core.config kcp_core.error

namespace kcp_core.engine

namespace KcpEngine

/-- The congestion window is at least one segment, and `incr` stays short of the byte
count at which the window would grow. -/
structure Congestion (mss : U32) (wnd : WindowState) : Prop where
  cwnd_pos : 0 < wnd.cwnd.toNat
  cwnd_le : wnd.cwnd.toNat ≤ 65535
  rmt_le : wnd.rmt.toNat ≤ 65535
  incr_lt : wnd.incr.toNat < (wnd.cwnd.toNat + 1) * mss.toNat

section

variable {mss : U32}

/-- The largest window in bytes, with one segment to spare, fits a word. -/
theorem window_bytes_lt (hhigh : mss.toNat ≤ 65511) {n : Nat} (h : n ≤ 65536) : n * mss.toNat < 2 ^ 32 := by
  have hle : n * mss.toNat ≤ 65536 * 65511 := Nat.mul_le_mul h hhigh
  omega

/-- `incr` before the increment of congestion avoidance. -/
def avoidance_base (mss : U32) (wnd : WindowState) : U32 := if wnd.incr < mss then mss else wnd.incr

/-- The increment of congestion avoidance. -/
def avoidance_step (mss base : U32) : U32 := mss * mss / base + mss / 16

/-- The increment is that of the base and one step. -/
theorem grow_in_avoidance_eq (mss : U32) (wnd : WindowState) :
    grow_in_avoidance mss wnd =
      let incr := avoidance_base mss wnd + avoidance_step mss (avoidance_base mss wnd)
      { wnd with
        incr
        cwnd := if (wnd.cwnd + 1) * mss ≤ incr then if 0 < mss then Word.div_ceil incr mss else 1 else wnd.cwnd } := by
  unfold grow_in_avoidance avoidance_step avoidance_base
  dsimp only
  split_ifs <;> rfl

/-- The base lies between one segment and the next. -/
theorem avoidance_base_bounds {wnd : WindowState} (h : Congestion mss wnd) :
    mss.toNat ≤ (avoidance_base mss wnd).toNat ∧
      (avoidance_base mss wnd).toNat < (wnd.cwnd.toNat + 1) * mss.toNat + 1 := by
  have hpos := h.cwnd_pos
  have hincr := h.incr_lt
  unfold avoidance_base
  split
  · refine ⟨le_rfl, ?_⟩
    have hone : 1 * mss.toNat ≤ (wnd.cwnd.toNat + 1) * mss.toNat := Nat.mul_le_mul_right _ (by omega)
    omega
  · rename_i hge
    rw [BitVec.lt_def] at hge
    exact ⟨by omega, by omega⟩

/-- The increment does not wrap, and is at most one segment and a sixteenth. -/
theorem avoidance_step_le (hlow : 40 ≤ mss.toNat) (hhigh : mss.toNat ≤ 65511) {base : U32} (hbase : mss.toNat ≤ base.toNat) :
    (avoidance_step mss base).toNat = mss.toNat * mss.toNat / base.toNat + mss.toNat / 16 ∧
      mss.toNat * mss.toNat / base.toNat ≤ mss.toNat := by
  have hsquare : mss.toNat * mss.toNat < 2 ^ 32 := window_bytes_lt hhigh (by omega)
  have hdiv : mss.toNat * mss.toNat / base.toNat ≤ mss.toNat :=
    Nat.div_le_of_le_mul (Nat.mul_le_mul_right _ hbase)
  refine ⟨?_, hdiv⟩
  have hquot : (mss * mss / base).toNat = mss.toNat * mss.toNat / base.toNat := by
    rw [BitVec.toNat_udiv, Word.toNat_mul_of_lt hsquare]
  have hsixteen : (mss / 16).toNat = mss.toNat / 16 := by rw [BitVec.toNat_udiv]; rfl
  unfold avoidance_step
  rw [Word.toNat_add_of_lt (by rw [hquot, hsixteen]; omega), hquot, hsixteen]

/-- One step of congestion avoidance, before the cut to the remote window. -/
theorem grow_in_avoidance_bounds (hlow : 40 ≤ mss.toNat) (hhigh : mss.toNat ≤ 65511) {wnd : WindowState}
    (h : Congestion mss wnd) (hroom : wnd.cwnd.toNat < 65535) :
    0 < (grow_in_avoidance mss wnd).cwnd.toNat ∧
      (grow_in_avoidance mss wnd).incr.toNat < ((grow_in_avoidance mss wnd).cwnd.toNat + 1) * mss.toNat := by
  obtain ⟨hbase, hbelow⟩ := avoidance_base_bounds h
  obtain ⟨hstep, hquot⟩ := avoidance_step_le hlow hhigh hbase
  have hbytes := window_bytes_lt hhigh (n := wnd.cwnd.toNat + 2) (by omega)
  have hsplit : (wnd.cwnd.toNat + 2) * mss.toNat = (wnd.cwnd.toNat + 1) * mss.toNat + mss.toNat := by ring
  have hcount : (wnd.cwnd + 1).toNat = wnd.cwnd.toNat + 1 :=
    Word.toNat_add_of_lt (by change wnd.cwnd.toNat + 1 < 2 ^ 32; omega)
  have hnext : ((wnd.cwnd + 1) * mss).toNat = (wnd.cwnd.toNat + 1) * mss.toNat := by
    rw [Word.toNat_mul_of_lt (by rw [hcount]; omega), hcount]
  have hone : 1 * mss.toNat ≤ (wnd.cwnd.toNat + 1) * mss.toNat := Nat.mul_le_mul_right _ (by omega)
  rw [grow_in_avoidance_eq]
  dsimp only
  split
  · rename_i hgrow
    rw [BitVec.le_def, hnext] at hgrow
    have hmss : 0 < mss := by
      rw [BitVec.lt_def]
      change 0 < mss.toNat
      omega
    rw [if_pos hmss]
    obtain ⟨hcover, _⟩ := Word.div_ceil_spec
      (a := avoidance_base mss wnd + avoidance_step mss (avoidance_base mss wnd)) (b := mss) (by omega)
    refine ⟨?_, ?_⟩
    · apply Nat.pos_of_ne_zero
      intro hzero
      rw [hzero] at hcover
      omega
    · rw [Nat.add_mul]
      omega
  · rename_i hstay
    rw [BitVec.le_def, hnext] at hstay
    exact ⟨h.cwnd_pos, by omega⟩

/-- The step of slow start. -/
def slow_start (mss : U32) (wnd : WindowState) : WindowState :=
  { wnd with cwnd := wnd.cwnd + 1, incr := wnd.incr + mss }

/-- The cut to the remote window. -/
def cut_to_rmt (mss : U32) (wnd : WindowState) : WindowState :=
  if wnd.rmt < wnd.cwnd then { wnd with cwnd := wnd.rmt, incr := wnd.rmt * mss } else wnd

theorem grow_cwnd_eq (mss : U32) (wnd : WindowState) :
    grow_cwnd mss wnd =
      cut_to_rmt mss (if wnd.cwnd < wnd.ssthresh then slow_start mss wnd else grow_in_avoidance mss wnd) := rfl

/-- To cut the window to the peer's keeps the bounds. -/
theorem congestion_cut (hhigh : mss.toNat ≤ 65511) {wnd : WindowState} (hrmt : wnd.rmt.toNat ≤ 65535)
    (hopen : 0 < wnd.rmt.toNat) (hpos : 0 < wnd.cwnd.toNat)
    (hincr : wnd.incr.toNat < (wnd.cwnd.toNat + 1) * mss.toNat) : Congestion mss (cut_to_rmt mss wnd) := by
  unfold cut_to_rmt
  split
  · rename_i hcut
    have hbytes : wnd.rmt.toNat * mss.toNat < 2 ^ 32 := window_bytes_lt hhigh (by omega)
    have hmss : 0 < mss.toNat := by
      apply Nat.pos_of_ne_zero
      intro hzero
      rw [hzero] at hincr
      omega
    refine ⟨hopen, hrmt, hrmt, ?_⟩
    dsimp only
    rw [Word.toNat_mul_of_lt hbytes, Nat.add_mul]
    omega
  · rename_i hle
    rw [BitVec.lt_def] at hle
    exact ⟨hpos, by omega, hrmt, hincr⟩

/-- Growth keeps the bounds. -/
theorem Congestion.grow {wnd : WindowState} (h : Congestion mss wnd) (hlow : 40 ≤ mss.toNat)
    (hhigh : mss.toNat ≤ 65511) (hroom : wnd.cwnd < wnd.rmt) : Congestion mss (grow_cwnd mss wnd) := by
  have hrmt := h.rmt_le
  rw [BitVec.lt_def] at hroom
  rw [grow_cwnd_eq]
  by_cases hslow : wnd.cwnd < wnd.ssthresh
  · rw [if_pos hslow]
    have hincr := h.incr_lt
    have hbytes := window_bytes_lt hhigh (n := wnd.cwnd.toNat + 2) (by omega)
    have hsplit : (wnd.cwnd.toNat + 2) * mss.toNat = (wnd.cwnd.toNat + 1) * mss.toNat + mss.toNat := by ring
    have hcount : (wnd.cwnd + 1).toNat = wnd.cwnd.toNat + 1 :=
      Word.toNat_add_of_lt (by change wnd.cwnd.toNat + 1 < 2 ^ 32; omega)
    apply congestion_cut hhigh
    · exact hrmt
    · change 0 < wnd.rmt.toNat
      omega
    · change 0 < (wnd.cwnd + 1).toNat
      omega
    · change (wnd.incr + mss).toNat < ((wnd.cwnd + 1).toNat + 1) * mss.toNat
      rw [hcount, Word.toNat_add_of_lt (by omega)]
      change _ < (wnd.cwnd.toNat + 2) * mss.toNat
      omega
  · rw [if_neg hslow]
    obtain ⟨hpos, hincr⟩ := grow_in_avoidance_bounds hlow hhigh h (by omega)
    have hsame : (grow_in_avoidance mss wnd).rmt = wnd.rmt := by rw [grow_in_avoidance_eq]
    exact congestion_cut hhigh (by rw [hsame]; exact hrmt) (by rw [hsame]; omega) hpos hincr

/-- A window reset to one segment. -/
theorem congestion_one {wnd : WindowState} (hlow : 40 ≤ mss.toNat) (hrmt : wnd.rmt.toNat ≤ 65535)
    (hcwnd : wnd.cwnd = 1) (hincr : wnd.incr = mss) : Congestion mss wnd := by
  constructor
  · rw [hcwnd]; decide
  · rw [hcwnd]; decide
  · exact hrmt
  · rw [hcwnd, hincr]
    change mss.toNat < 2 * mss.toNat
    omega

/-- A loss keeps the bounds. -/
theorem Congestion.loss {wnd : WindowState} (h : Congestion mss wnd) (hlow : 40 ≤ mss.toNat)
    (hhigh : mss.toNat ≤ 65511) {inflight resend : U32} (lost change : Bool) (hinflight : inflight.toNat ≤ 65535) (hresend : resend.toNat ≤ 2 ∨ resend = 0xFFFFFFFF) :
    Congestion mss (loss_wnd mss inflight lost change resend wnd) := by
  apply loss_wnd_rule
  · intro w hw
    unfold fast_wnd
    dsimp only
    obtain ⟨ssthresh, hssthresh, htwo, hle⟩ : ∃ ssthresh : U32,
        ssthresh = (if inflight / 2 < constants.IKCP_THRESH_MIN then constants.IKCP_THRESH_MIN else inflight / 2) ∧
          2 ≤ ssthresh.toNat ∧ ssthresh.toNat ≤ 32767 := by
      refine ⟨_, rfl, ?_⟩
      have hmin : constants.IKCP_THRESH_MIN.toNat = 2 := rfl
      have hhalf : (inflight / 2).toNat = inflight.toNat / 2 := by rw [BitVec.toNat_udiv]; rfl
      split
      · omega
      · rename_i hge
        rw [BitVec.lt_def] at hge
        omega
    rw [← hssthresh]
    have hcwnd : 0 < (ssthresh + resend).toNat ∧ (ssthresh + resend).toNat ≤ 32769 := by
      rcases hresend with hsmall | hmax
      · rw [Word.toNat_add_of_lt (by omega)]
        omega
      · have hvalue : (0xFFFFFFFF : U32).toNat = 4294967295 := rfl
        rw [hmax, BitVec.toNat_add, hvalue]
        omega
    have hbytes := window_bytes_lt hhigh (n := (ssthresh + resend).toNat) (by omega)
    constructor
    · exact hcwnd.1
    · dsimp only; omega
    · exact hw.rmt_le
    · dsimp only
      rw [Word.toNat_mul_of_lt hbytes, Nat.add_mul]
      omega
  · exact fun w hw => congestion_one hlow hw.rmt_le rfl rfl
  · intro w hw
    unfold floor_wnd
    split
    · exact congestion_one hlow hw.rmt_le rfl rfl
    · exact hw
  · exact h

end

/-! ### The engine -/

/-- The end of `input` grows the window only if `snd_una` has advanced and the peer lets it. -/
theorem input_finish_wnd (self : KcpEngine) (prev_una : SeqNum) (track : AckTrack) :
    (self.input_finish prev_una track).wnd = self.wnd ∨
      seq_after (self.input_finish prev_una track).snd_una prev_una = true ∧ self.wnd.cwnd < self.wnd.rmt ∧
        (self.input_finish prev_una track).wnd = grow_cwnd self.mss self.wnd := by
  have hgrow : ∀ e : KcpEngine, e.wnd = self.wnd → e.config = self.config →
      (e.update_cwnd prev_una).wnd = self.wnd ∨
        seq_after (e.update_cwnd prev_una).snd_una prev_una = true ∧ self.wnd.cwnd < self.wnd.rmt ∧
          (e.update_cwnd prev_una).wnd = grow_cwnd self.mss self.wnd := by
    intro e hwnd hconfig
    have hmss : e.mss = self.mss := by unfold mss; rw [hconfig]
    unfold update_cwnd
    split
    · rename_i hgrows
      rw [hwnd] at hgrows
      right
      exact ⟨hgrows.1, hgrows.2, by rw [hmss, hwnd]⟩
    · exact .inl hwnd
  unfold input_finish
  dsimp only
  rw [shrink_buf_eq]
  split
  · obtain ⟨buf, hfast, _⟩ := counted_parse_fastack
      { self with snd_una := (self.snd_buf.map fun s => s.header.sn).headD self.snd_nxt } track.max_ack track.latest_ts
    rw [hfast]
    apply hgrow <;> rfl
  · apply hgrow <;> rfl

/-- The congestion window of the engine is in order. -/
def Congested (e : KcpEngine) : Prop := Congestion e.mss e.wnd

/-- The segment loop changes only the remote window, to another 16-bit number. -/
theorem congested_input_loop {e : KcpEngine} (h : Congested e) (current : Timestamp) (data : Bytes) :
    (e.input_loop current data).1.mss = e.mss ∧ Congestion e.mss (e.input_loop current data).1.wnd := by
  apply input_loop_rule (P := fun e' => e'.mss = e.mss ∧ Congestion e.mss e'.wnd)
  · intro segment _ acc hacc
    apply input_segment_rule (P := fun e' => e'.mss = e.mss ∧ Congestion e.mss e'.wnd)
    · rintro e' wnd ⟨hmss, hwnd⟩
      refine ⟨hmss, hwnd.cwnd_pos, hwnd.cwnd_le, ?_, hwnd.incr_lt⟩
      have hlt := wnd.isLt
      change (wnd.setWidth 32).toNat ≤ 65535
      rw [BitVec.toNat_setWidth]
      omega
    · exact fun _ h => h
    · intro _ e' h
      obtain ⟨avg, var, rto, stats, buf, heq, _⟩ := input_ack_shape e' current segment
      rw [heq]
      exact h
    · intro _ e' h
      obtain ⟨queue, buf, nxt, acks, heq⟩ := input_push_shape e' segment
      rw [heq]
      exact h
    · exact fun _ h => h
    · exact hacc
  · exact ⟨rfl, h⟩

/-- A datagram opens the window by the rules. -/
theorem congested_input {e : KcpEngine} (h : Congested e) (hlow : 40 ≤ e.mss.toNat) (hhigh : e.mss.toNat ≤ 65511)
    (current : Timestamp) (data : Bytes) : Congested (e.input current data).1 := by
  by_cases hshort : data.length < KcpHeader.SIZE
  · rw [input_short hshort]
    exact h
  · rw [input_eq hshort]
    obtain ⟨hmss, hwnd⟩ := congested_input_loop h current data
    have hconfig : ((e.input_loop current data).1.input_finish e.snd_una (e.input_loop current data).2).mss = e.mss := by
      rw [← hmss]
      obtain ⟨buf, cwnd, incr, received, hfinish, _⟩ := input_finish_shape
        (e.input_loop current data).1 e.snd_una (e.input_loop current data).2
      rw [hfinish]
      rfl
    unfold Congested
    rw [hconfig]
    obtain hsame | ⟨_, hroom, hgrow⟩ := input_finish_wnd (e.input_loop current data).1 e.snd_una (e.input_loop current data).2
    · rw [hsame]
      exact hwnd
    · rw [hgrow, hmss]
      exact hwnd.grow hlow hhigh hroom

/-- The fast-retransmit threshold of a named mode. -/
theorem resend_threshold_of_preset {e : KcpEngine} (h : e.config.nodelay.IsPreset) :
    e.resend_threshold.toNat ≤ 2 ∨ e.resend_threshold = 0xFFFFFFFF := by
  unfold resend_threshold
  rcases h with h | h | h | h <;> rw [h]
  · exact .inr rfl
  · exact .inl (by decide)
  · exact .inl (by decide)
  · exact .inl (by decide)

/-- A flush closes it by them. -/
theorem congested_flush {e : KcpEngine} (h : Congested e) (hlow : 40 ≤ e.mss.toNat) (hhigh : e.mss.toNat ≤ 65511)
    (hwin : SendWindow e) (hsnd : e.wnd.snd.toNat ≤ 65535) (hmode : e.config.nodelay.IsPreset) (clk : Clock) :
    Congested (e.flush clk).1 := by
  have hspan := (sendWindow_flush hwin hsnd clk).1.span
  obtain ⟨queue, buf, stats, heq⟩ := e.flush_shape clk
  obtain ⟨hsame, _, _⟩ := e.flushed_wnd_frame clk.now
  rw [heq] at hspan ⊢
  dsimp only at hspan
  rw [hsame] at hspan
  change Congestion e.mss (e.flushed_wnd clk.now)
  unfold flushed_wnd
  split
  · exact h
  · apply Congestion.loss h hlow hhigh
    · rw [ready_eq]
      exact le_trans hspan hsnd
    · exact resend_threshold_of_preset hmode

/-- Every call keeps the bounds of the congestion window. -/
theorem congested_step {c : KcpCoreConfig} {self : KcpEngine} (hset : Configured c self)
    (hc : kcp_tokio.config.Accepted c) (hmode : c.nodelay.IsPreset) (hwin : SendWindow self)
    (h : Congested self) (op : Op) : Congested (self.step op) := by
  obtain ⟨hlow, hhigh⟩ := mss_bounds hset hc
  apply step_rule (P := Congested) op
  · intro clk data _
    obtain ⟨queue, sent, heq⟩ := self.send_shape clk data
    rw [heq]
    exact h
  · intro _
    obtain ⟨queue, buf, nxt, flags, received, heq⟩ := self.recv_shape
    rw [heq]
    exact h
  · intro now data _
    exact congested_input h hlow hhigh now data
  · intro last flags clk _
    apply congested_flush
    · exact h
    · exact hlow
    · exact hhigh
    · exact hwin.congr rfl rfl rfl rfl
    · change self.wnd.snd.toNat ≤ 65535
      rw [hset.snd]
      exact hc.snd_le
    · change self.config.nodelay.IsPreset
      rw [hset.config]
      exact hmode
  · exact fun _ => h
  · exact h
  · exact fun _ => h

end KcpEngine

open KcpEngine

/-- The congestion window keeps its bounds in every run. -/
theorem Start.congested (start : Start) (hmode : start.config.nodelay.IsPreset) (ops : List Op) :
    Congested (start.reached ops) := by
  apply Trace.invariant (P := fun _ e => Congested e)
  · have hc := start.accepted
    have hset := start.configured []
    obtain ⟨hlow, _⟩ := mss_bounds hset hc
    constructor
    · exact hc.snd_pos
    · exact hc.snd_le
    · change constants.IKCP_WND_RCV.toNat ≤ 65535
      decide
    · change 0 < _
      exact Nat.mul_pos (Nat.succ_pos _) (by change 0 < (start.reached []).mss.toNat; omega)
  · intro ops op h
    exact congested_step (start.configured ops) start.accepted hmode (start.sendWindow ops) h op

end kcp_core.engine
