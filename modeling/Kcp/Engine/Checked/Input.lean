import Kcp.Engine.Checked.SendRecv
import Kcp.Engine.Estimator
import Kcp.Engine.Pacing

open kcp_core.protocol kcp_core.config kcp_core.error

namespace kcp_core.engine.checked

open KcpEngine (AckTrack)

/-! ### Splitting a datagram -/

theorem next_segment_eq (buf : Bytes) : next_segment buf = some (KcpEngine.next_segment buf) := by
  unfold next_segment KcpEngine.next_segment
  cases KcpHeader.decode buf with
  | none => rfl
  | some out =>
    have hlen := out.1.len.isLt
    have hsize : KcpHeader.SIZE = 24 := rfl
    have hneed : Checked.add64 KcpHeader.SIZE out.1.len.toNat = some (KcpHeader.SIZE + out.1.len.toNat) :=
      Checked.add64_eq (by omega)
    simp only [hneed, Option.bind_eq_bind, Option.bind_some]
    split
    · rfl
    · rename_i hlong
      rw [Checked.slice_eq (Nat.zero_le _) (not_lt.mp hlong), Checked.slice_eq (not_lt.mp hlong) le_rfl]
      simp only [Option.bind_some, List.drop_zero, List.take_length]
      cases KcpSegment.decode (buf.take (KcpHeader.SIZE + out.1.len.toNat)) with
      | none => rfl
      | some segment => rfl

/-- No slice is out of range. -/
theorem split_segments_eq (buf : Bytes) : split_segments buf = some (KcpEngine.split_segments buf) := by
  have hloop : ∀ fuel buf, split_loop fuel buf = some (KcpEngine.split_loop fuel buf) := by
    intro fuel
    induction fuel with
    | zero => exact fun _ => rfl
    | succ fuel ih =>
      intro buf
      unfold split_loop KcpEngine.split_loop
      simp only [next_segment_eq, Option.bind_eq_bind, Option.bind_some]
      cases KcpEngine.next_segment buf with
      | none => rfl
      | some out =>
        simp only [ih, Option.bind_some]
        rfl
  exact hloop _ buf

/-! ### Round-trip times -/

/-- The smoothed time and its variance are no longer than the longest sample. -/
structure Smoothed (rtt : RttState) : Prop where
  avg_le : rtt.avg.toNat ≤ 60000
  var_le : rtt.var.toNat ≤ 60000

/-- The smoothing of samples up to a minute does not overflow. -/
theorem smooth_eq {avg var : U32} (havg : avg.toNat ≤ 60000) (hvar : var.toNat ≤ 60000) {rtt : Int}
    (hpos : 0 ≤ rtt) (hle : rtt ≤ 60000) : ∃ next : U32 × U32,
      smooth avg var rtt = some next ∧
      (if avg = 0 then (BitVec.ofInt 32 rtt, BitVec.ofInt 32 rtt / 2)
        else
          let delta := if avg.toInt < rtt then rtt - avg.toInt else avg.toInt - rtt
          let var := (3 * var + BitVec.ofInt 32 delta) / 4
          let avg := (7 * avg + BitVec.ofInt 32 rtt) / 8
          (if avg < 1 then 1 else avg, var)) = next := by
  have hrtt := Word.toNat_ofInt (w := 32) hpos (by omega)
  have hsigned : avg.toInt = avg.toNat := by rw [BitVec.toInt_eq_toNat_cond, if_pos (by omega)]
  unfold smooth
  by_cases hzero : avg = 0
  · rw [if_pos hzero, if_pos hzero]
    exact ⟨_, rfl, rfl⟩
  · obtain ⟨delta, hdelta, hlow, hhigh, hsame⟩ : ∃ delta : Int,
        (if avg.toInt < rtt then Checked.sub_i32 rtt avg.toInt else Checked.sub_i32 avg.toInt rtt) = some delta ∧
          0 ≤ delta ∧ delta ≤ 60000 ∧ (if avg.toInt < rtt then rtt - avg.toInt else avg.toInt - rtt) = delta := by
      refine ⟨_, ?_, ?_, ?_, rfl⟩
      · split
        · exact Checked.sub_i32_eq (by omega) (by omega)
        · exact Checked.sub_i32_eq (by omega) (by omega)
      · split <;> omega
      · split <;> omega
    have hnum := Word.toNat_ofInt (w := 32) hlow (by omega)
    have hthree : (3 * var).toNat = 3 * var.toNat := Word.toNat_mul_of_lt (by change 3 * var.toNat < _; omega)
    have hseven : (7 * avg).toNat = 7 * avg.toNat := Word.toNat_mul_of_lt (by change 7 * avg.toNat < _; omega)
    have hvarsum : (3 * var).toNat + (BitVec.ofInt 32 delta).toNat < 2 ^ 32 := by omega
    have havgsum : (7 * avg).toNat + (BitVec.ofInt 32 rtt).toNat < 2 ^ 32 := by omega
    simp only [if_neg hzero, hdelta, hsame, Option.bind_eq_bind, Option.bind_some, Option.pure_def,
      Checked.mul_eq (show (3 : U32).toNat * var.toNat < 2 ^ 32 by change 3 * var.toNat < _; omega),
      Checked.mul_eq (show (7 : U32).toNat * avg.toNat < 2 ^ 32 by change 7 * avg.toNat < _; omega),
      Checked.add_eq hvarsum, Checked.add_eq havgsum]
    exact ⟨_, rfl, rfl⟩

/-- A sample up to a minute does not overflow the estimate or the timeout. -/
theorem update_ack_eq {e : KcpEngine} (h : Smoothed e.rtt) (hinterval : e.config.nodelay.interval.toNat ≤ 40)
    (sample : Int) : update_ack e sample = some (e.update_ack sample) ∧ Smoothed (e.update_ack sample).rtt := by
  have hmax : constants.IKCP_RTO_MAX.toInt = 60000 := by decide
  have hpos : 0 ≤ max 0 (min sample constants.IKCP_RTO_MAX.toInt) := le_max_left _ _
  obtain ⟨next, hnext, hsame⟩ := smooth_eq h.avg_le h.var_le hpos (by omega)
  have hbefore : KcpEngine.Estimate 0 60000 e.rtt := ⟨h.avg_le, h.var_le, .inr (Nat.zero_le _)⟩
  obtain ⟨⟨havg, hvar, _⟩, _⟩ := hbefore.update_ack le_rfl (Nat.zero_le _) (KcpEngine.clamped_le sample)
  have hafter : (e.update_ack sample).rtt.avg = next.1 ∧ (e.update_ack sample).rtt.var = next.2 := by
    unfold KcpEngine.update_ack
    dsimp only
    rw [hsame]
    exact ⟨rfl, rfl⟩
  rw [hafter.1] at havg
  rw [hafter.2] at hvar
  have hfour : (4 : U32).toNat * next.2.toNat < 2 ^ 32 := by change 4 * next.2.toNat < _; omega
  have hsum : next.1.toNat + (max e.config.nodelay.interval (4 * next.2)).toNat < 2 ^ 32 := by
    rw [Word.toNat_max, Word.toNat_mul_of_lt hfour]
    change _ + max _ (4 * next.2.toNat) < _
    omega
  unfold update_ack KcpEngine.update_ack
  simp only [hnext, hsame, Option.bind_eq_bind, Option.bind_some, Checked.mul_eq hfour, Checked.add_eq hsum]
  exact ⟨rfl, havg, hvar⟩

/-! ### The congestion window -/

section

variable {mss : U32} {wnd : WindowState}

/-- Slow start below the largest window does not overflow. -/
theorem slow_start_eq (h : KcpEngine.Congestion mss wnd) (hhigh : mss.toNat ≤ 65511) (hroom : wnd.cwnd.toNat < 65535) :
    slow_start mss wnd = some (KcpEngine.slow_start mss wnd) := by
  have hincr := h.incr_lt
  have hbytes := KcpEngine.window_bytes_lt hhigh (show wnd.cwnd.toNat + 2 ≤ 65536 by omega)
  have hsplit : (wnd.cwnd.toNat + 2) * mss.toNat = (wnd.cwnd.toNat + 1) * mss.toNat + mss.toNat := by ring
  have hcount : wnd.cwnd.toNat + (1 : U32).toNat < 2 ^ 32 := by change wnd.cwnd.toNat + 1 < _; omega
  unfold slow_start
  simp only [Checked.add_eq hcount, Checked.add_eq (show wnd.incr.toNat + mss.toNat < 2 ^ 32 by omega),
    Option.bind_eq_bind, Option.bind_some]
  rfl

/-- The square of the segment size, the window in bytes and the sum of `incr` and its
increment all fit a word. -/
theorem grow_in_avoidance_eq (h : KcpEngine.Congestion mss wnd) (hlow : 40 ≤ mss.toNat) (hhigh : mss.toNat ≤ 65511)
    (hroom : wnd.cwnd.toNat < 65535) : grow_in_avoidance mss wnd = some (KcpEngine.grow_in_avoidance mss wnd) := by
  obtain ⟨hbase, hbelow⟩ := KcpEngine.avoidance_base_bounds h
  obtain ⟨hstep, hquot⟩ := KcpEngine.avoidance_step_le hlow hhigh hbase
  have hbytes := KcpEngine.window_bytes_lt hhigh (show wnd.cwnd.toNat + 2 ≤ 65536 by omega)
  have hsplit : (wnd.cwnd.toNat + 2) * mss.toNat = (wnd.cwnd.toNat + 1) * mss.toNat + mss.toNat := by ring
  have hsquare : mss.toNat * mss.toNat < 2 ^ 32 := KcpEngine.window_bytes_lt hhigh (by omega)
  have hcount : wnd.cwnd.toNat + (1 : U32).toNat < 2 ^ 32 := by change wnd.cwnd.toNat + 1 < _; omega
  have hnext : (wnd.cwnd + 1).toNat * mss.toNat < 2 ^ 32 := by
    rw [Word.toNat_add_of_lt hcount]
    change (wnd.cwnd.toNat + 1) * mss.toNat < _
    omega
  have hsum : (mss * mss / KcpEngine.avoidance_base mss wnd).toNat + (mss / 16).toNat < 2 ^ 32 := by
    rw [BitVec.toNat_udiv, BitVec.toNat_udiv, Word.toNat_mul_of_lt hsquare]
    change _ + mss.toNat / 16 < _
    omega
  have hbig : (wnd.cwnd.toNat + 2) * mss.toNat ≤ 65536 * 65511 := Nat.mul_le_mul (by omega) hhigh
  have hincr : (KcpEngine.avoidance_base mss wnd).toNat +
      (mss * mss / KcpEngine.avoidance_base mss wnd + mss / 16).toNat < 2 ^ 32 := by
    change _ + (KcpEngine.avoidance_step mss (KcpEngine.avoidance_base mss wnd)).toNat < _
    omega
  have hsame : (if wnd.incr < mss then mss else wnd.incr) = KcpEngine.avoidance_base mss wnd := rfl
  have hmss : 0 < mss := by
    rw [BitVec.lt_def]
    change 0 < mss.toNat
    omega
  unfold grow_in_avoidance KcpEngine.grow_in_avoidance
  simp only [hsame, Checked.mul_eq hsquare, Checked.div_eq (lt_of_lt_of_le (by omega) hbase), Checked.add_eq hsum,
    Checked.add_eq hincr, Checked.add_eq hcount, Checked.mul_eq hnext, Checked.div_ceil_eq (show 0 < mss.toNat by omega),
    if_pos hmss, Option.bind_eq_bind, Option.bind_some, Option.pure_def]
  split <;> rfl

/-- `cwnd` stays below the remote window, so the cut is to a window that fits. -/
theorem grow_cwnd_eq (h : KcpEngine.Congestion mss wnd) (hlow : 40 ≤ mss.toNat) (hhigh : mss.toNat ≤ 65511)
    (hroom : wnd.cwnd < wnd.rmt) : grow_cwnd mss wnd = some (KcpEngine.grow_cwnd mss wnd) := by
  have hrmt := h.rmt_le
  rw [BitVec.lt_def] at hroom
  obtain ⟨grown, hgrown, hsame, hrmt'⟩ : ∃ grown : WindowState,
      (if wnd.cwnd < wnd.ssthresh then slow_start mss wnd else grow_in_avoidance mss wnd) = some grown ∧
        (if wnd.cwnd < wnd.ssthresh then KcpEngine.slow_start mss wnd else KcpEngine.grow_in_avoidance mss wnd) =
          grown ∧ grown.rmt = wnd.rmt := by
    split
    · exact ⟨_, slow_start_eq h hhigh (by omega), rfl, rfl⟩
    · exact ⟨_, grow_in_avoidance_eq h hlow hhigh (by omega), rfl, by rw [KcpEngine.grow_in_avoidance_eq]⟩
  have hcut : wnd.rmt.toNat * mss.toNat < 2 ^ 32 := KcpEngine.window_bytes_lt hhigh (by omega)
  rw [KcpEngine.grow_cwnd_eq, hsame]
  unfold grow_cwnd KcpEngine.cut_to_rmt
  simp only [hgrown, hrmt', Checked.mul_eq hcut, Option.bind_eq_bind, Option.bind_some]
  split <;> rfl

end

/-- The growth of the window does not overflow. -/
theorem update_cwnd_eq {e : KcpEngine} (hmtu : 24 ≤ e.config.mtu.toNat) (h : KcpEngine.Congested e)
    (hlow : 40 ≤ e.mss.toNat) (hhigh : e.mss.toNat ≤ 65511) (prev_una : SeqNum) :
    update_cwnd e prev_una = some (e.update_cwnd prev_una) := by
  unfold update_cwnd KcpEngine.update_cwnd
  by_cases hgrows : seq_after e.snd_una prev_una = true ∧ e.wnd.cwnd < e.wnd.rmt
  · rw [if_pos hgrows, if_pos hgrows, mss_eq hmtu]
    simp only [grow_cwnd_eq h hlow hhigh hgrows.2, Option.bind_eq_bind, Option.bind_some]
    rfl
  · rw [if_neg hgrows, if_neg hgrows]

/-! ### Skipped ACKs -/

theorem parse_fastack_loop_eq (sn : SeqNum) (ts : Timestamp) {buf : List KcpSegment}
    (hcount : ∀ s ∈ buf, s.fastack.toNat + 1 < 2 ^ 32) :
    parse_fastack_loop sn ts buf = some (KcpEngine.parse_fastack_loop sn ts buf) := by
  induction buf with
  | nil => rfl
  | cons segment rest ih =>
    have hone : segment.fastack.toNat + (1 : U32).toNat < 2 ^ 32 := hcount segment List.mem_cons_self
    have hrest := ih fun s hs => hcount s (List.mem_cons_of_mem _ hs)
    unfold parse_fastack_loop KcpEngine.parse_fastack_loop
    split
    · rfl
    · simp only [Checked.add_eq hone, hrest]
      split <;> rfl

/-- Counting a duplicate ACK does not overflow while the counts have room. -/
theorem parse_fastack_eq {e : KcpEngine} (hcount : ∀ s ∈ e.snd_buf, s.fastack.toNat + 1 < 2 ^ 32) (sn : SeqNum)
    (ts : Timestamp) : parse_fastack e sn ts = some (e.parse_fastack sn ts) := by
  unfold parse_fastack KcpEngine.parse_fastack
  split
  · rfl
  · rw [parse_fastack_loop_eq sn ts hcount]
    rfl

/-! ### The segment loop -/

/-- An ACK does not fail, whatever it says. -/
theorem input_ack_eq {e : KcpEngine} (h : Smoothed e.rtt) (hinterval : e.config.nodelay.interval.toNat ≤ 40)
    (current : Timestamp) (segment : KcpSegment) :
    input_ack e current segment = some (e.input_ack current segment) ∧ Smoothed (e.input_ack current segment).rtt := by
  have hparse : ∀ e' : KcpEngine, Smoothed e'.rtt → Smoothed (e'.parse_ack segment.header.sn).rtt := by
    intro e' h'
    obtain ⟨buf, heq, _⟩ := e'.parse_ack_shape segment.header.sn
    rw [heq]
    exact h'
  obtain ⟨hack, hsmooth⟩ := update_ack_eq h hinterval (time_diff current segment.header.ts)
  unfold input_ack KcpEngine.input_ack
  split
  · rw [hack]
    exact ⟨rfl, hparse _ hsmooth⟩
  · exact ⟨rfl, hparse _ h⟩

/-- A PUSH does not fail a window before the last number. -/
theorem input_push_eq {e : KcpEngine} (hnxt : e.rcv_nxt.toNat + e.wnd.rcv.toNat < 2 ^ 32) (segment : KcpSegment) :
    input_push e segment = some (e.input_push segment) := by
  have hdata := parse_data_eq (show (e.ack_push segment.header.sn segment.header.ts).rcv_nxt.toNat +
    (e.ack_push segment.header.sn segment.header.ts).wnd.rcv.toNat < 2 ^ 32 from hnxt) segment
  unfold input_push KcpEngine.input_push
  simp only [Checked.add_eq hnxt, Option.bind_eq_bind, Option.bind_some]
  split
  · split
    · exact hdata
    · rfl
  · rfl

/-- What the segment loop keeps in range: the smoothed round-trip times, and the next
number, which moves on only as far as the queue has room. -/
structure LoopRange (limit : Nat) (e : KcpEngine) : Prop where
  rtt : Smoothed e.rtt
  interval : e.config.nodelay.interval.toNat ≤ 40
  capped : e.rcv_queue.length ≤ e.wnd.rcv.toNat
  room : e.rcv_nxt.toNat + (e.wnd.rcv.toNat - e.rcv_queue.length) ≤ limit
  fits : limit + e.wnd.rcv.toNat < 2 ^ 32

theorem LoopRange.move_to_recv_queue {limit : Nat} {e : KcpEngine} (h : LoopRange limit e) :
    LoopRange limit e.move_to_recv_queue := by
  apply KcpEngine.move_to_recv_queue_rule (P := LoopRange limit)
  · intro e' segment h' _ hroom
    have hcap := h'.capped
    have hlimit := h'.room
    have hfits := h'.fits
    have hone : (e'.rcv_nxt + 1).toNat = e'.rcv_nxt.toNat + 1 :=
      Word.toNat_add_of_lt (by change e'.rcv_nxt.toNat + 1 < 2 ^ 32; omega)
    refine ⟨h'.rtt, h'.interval, ?_, ?_, h'.fits⟩
    · simp only [KcpEngine.refill, List.length_append, List.length_singleton]
      omega
    · simp only [KcpEngine.refill, List.length_append, List.length_singleton, hone]
      omega
  · exact h

theorem LoopRange.input_push {limit : Nat} {e : KcpEngine} (h : LoopRange limit e) (segment : KcpSegment) :
    LoopRange limit (e.input_push segment) := by
  have hpush : LoopRange limit (e.ack_push segment.header.sn segment.header.ts) :=
    ⟨h.rtt, h.interval, h.capped, h.room, h.fits⟩
  unfold KcpEngine.input_push
  split
  · dsimp only
    split
    · unfold KcpEngine.parse_data
      dsimp only
      split
      · exact hpush
      · apply LoopRange.move_to_recv_queue
        exact ⟨h.rtt, h.interval, h.capped, h.room, h.fits⟩
    · exact hpush
  · exact h

/-- No segment fails while the engine is in range, and it stays in range. -/
theorem input_segment_eq {limit : Nat} (current : Timestamp) (segment : KcpSegment) {acc : KcpEngine × AckTrack}
    (h : LoopRange limit acc.1) :
    input_segment current acc segment = some (KcpEngine.input_segment current acc segment) ∧
      LoopRange limit (KcpEngine.input_segment current acc segment).1 := by
  obtain ⟨e, track⟩ := acc
  constructor
  · have hopen : LoopRange limit (KcpEngine.parse_una
        { e with wnd := { e.wnd with rmt := segment.header.wnd.setWidth 32 } } segment.header.una) :=
      ⟨h.rtt, h.interval, h.capped, h.room, h.fits⟩
    have hack := (input_ack_eq hopen.rtt hopen.interval current segment).1
    have hnext := lt_of_le_of_lt (Nat.add_le_add_right (le_trans (Nat.le_add_right _ _) hopen.room) _) hopen.fits
    have hpush := input_push_eq hnext segment
    unfold input_segment KcpEngine.input_segment
    dsimp only
    split
    · rfl
    · split
      · rw [hack]
        rfl
      · split
        · rw [hpush]
          rfl
        · split <;> rfl
  · apply KcpEngine.input_segment_rule (P := LoopRange limit)
    · intro e' wnd h'
      exact ⟨h'.rtt, h'.interval, h'.capped, h'.room, h'.fits⟩
    · intro e' h'
      exact ⟨h'.rtt, h'.interval, h'.capped, h'.room, h'.fits⟩
    · intro _ e' h'
      obtain ⟨avg, var, rto, stats, buf, heq, _⟩ := e'.input_ack_shape current segment
      have hsmooth := (input_ack_eq h'.rtt h'.interval current segment).2
      rw [heq] at hsmooth ⊢
      exact ⟨hsmooth, h'.interval, h'.capped, h'.room, h'.fits⟩
    · exact fun _ e' h' => h'.input_push segment
    · intro e' h'
      exact ⟨h'.rtt, h'.interval, h'.capped, h'.room, h'.fits⟩
    · exact h

theorem input_loop_eq {limit : Nat} {e : KcpEngine} {current : Timestamp} (data : Bytes)
    (h : LoopRange limit { e with last_activity := current }) :
    (KcpEngine.split_segments data).foldlM (input_segment current)
        ({ e with last_activity := current }, { flag := false, max_ack := 0, latest_ts := 0 }) =
      some (e.input_loop current data) ∧ LoopRange limit (e.input_loop current data).1 :=
  Checked.foldlM_eq (fun acc : KcpEngine × AckTrack => LoopRange limit acc.1)
    (fun _ segment _ hacc => input_segment_eq current segment hacc) h

/-- The end of a datagram: nothing but the skipped ACKs and the window is left to count up. -/
theorem input_finish_eq {e : KcpEngine} (hmtu : 24 ≤ e.config.mtu.toNat) (hcong : KcpEngine.Congested e)
    (hlow : 40 ≤ e.mss.toNat) (hhigh : e.mss.toNat ≤ 65511) (hcount : ∀ s ∈ e.snd_buf, s.fastack.toNat + 1 < 2 ^ 32)
    (prev_una : SeqNum) (track : AckTrack)
    (hreceived : (e.input_finish prev_una track).stats.packets_received < 2 ^ 64) :
    input_finish e prev_una track = some (e.input_finish prev_una track) := by
  obtain ⟨shrunk, hshrink, hbuf, hwnd', hconfig'⟩ : ∃ shrunk : KcpEngine, e.shrink_buf = shrunk ∧
      shrunk.snd_buf = e.snd_buf ∧ shrunk.wnd = e.wnd ∧ shrunk.config = e.config :=
    ⟨_, e.shrink_buf_eq, rfl, rfl, rfl⟩
  obtain ⟨counted, hfast, hsame, hwnd, hconfig⟩ : ∃ counted : KcpEngine,
      (if track.flag then parse_fastack shrunk track.max_ack track.latest_ts else some shrunk) = some counted ∧
        (if track.flag then shrunk.parse_fastack track.max_ack track.latest_ts else shrunk) = counted ∧
        counted.wnd = e.wnd ∧ counted.config = e.config := by
    split
    · obtain ⟨buf, heq, _⟩ := shrunk.counted_parse_fastack track.max_ack track.latest_ts
      have hcounted := parse_fastack_eq (e := shrunk) (by rw [hbuf]; exact hcount) track.max_ack track.latest_ts
      refine ⟨_, hcounted, rfl, ?_, ?_⟩
      · rw [heq]
        exact hwnd'
      · rw [heq]
        exact hconfig'
    · exact ⟨_, rfl, rfl, hwnd', hconfig'⟩
  have hmss : counted.mss = e.mss := by
    unfold KcpEngine.mss
    rw [hconfig]
  have hcong' : KcpEngine.Congested counted := by
    unfold KcpEngine.Congested
    rw [hmss, hwnd]
    exact hcong
  have hcwnd := update_cwnd_eq (by rw [hconfig]; exact hmtu) hcong' (by rw [hmss]; exact hlow)
    (by rw [hmss]; exact hhigh) prev_una
  have hfinish : e.input_finish prev_una track =
      { counted.update_cwnd prev_una with
        stats := { (counted.update_cwnd prev_una).stats with
          packets_received := (counted.update_cwnd prev_una).stats.packets_received + 1 } } := by
    rw [← hsame, ← hshrink]
    rfl
  rw [hfinish] at hreceived ⊢
  unfold input_finish
  simp only [hshrink, hfast, Option.bind_eq_bind, Option.bind_some, hcwnd, Checked.add64_eq hreceived]
  rfl

/-- A datagram, in a state whose window and estimators are in order, with one more skipped
ACK and one more datagram to count. -/
theorem input_eq {e : KcpEngine} (hrtt : Smoothed e.rtt) (hinterval : e.config.nodelay.interval.toNat ≤ 40)
    (hcapped : e.rcv_queue.length ≤ e.wnd.rcv.toNat) (hnxt : e.rcv_nxt.toNat + 2 * e.wnd.rcv.toNat < 2 ^ 32)
    (hmtu : 24 ≤ e.config.mtu.toNat) (hcong : KcpEngine.Congested e) (hlow : 40 ≤ e.mss.toNat)
    (hhigh : e.mss.toNat ≤ 65511) (hcount : ∀ s ∈ e.snd_buf, s.fastack.toNat + 1 < 2 ^ 32) (current : Timestamp)
    (data : Bytes) (hreceived : (e.input current data).1.stats.packets_received < 2 ^ 64) :
    input e current data = some (e.input current data) ∧ Smoothed (e.input current data).1.rtt := by
  by_cases hshort : data.length < KcpHeader.SIZE
  · rw [KcpEngine.input_short hshort]
    unfold input
    rw [if_pos hshort]
    exact ⟨rfl, hrtt⟩
  · rw [KcpEngine.input_eq hshort] at hreceived ⊢
    have hopen : LoopRange (e.rcv_nxt.toNat + e.wnd.rcv.toNat) { e with last_activity := current } :=
      ⟨hrtt, hinterval, hcapped, by dsimp only; omega, by dsimp only; omega⟩
    obtain ⟨hloop, hrange⟩ := input_loop_eq data hopen
    obtain ⟨hmss, hwnd⟩ := KcpEngine.congested_input_loop hcong current data
    have hframe := e.loopFrame_input_loop current data
    have hfinish := input_finish_eq (by rw [hframe.config]; exact hmtu) (by unfold KcpEngine.Congested; rwa [hmss])
      (by rw [hmss]; exact hlow) (by rw [hmss]; exact hhigh) (fun s hs => hcount s (hframe.snd_buf.subset hs))
      e.snd_una (e.input_loop current data).2 hreceived
    constructor
    · unfold input
      simp only [if_neg hshort, split_segments_eq, Option.bind_eq_bind, Option.bind_some, hloop, hfinish]
      rfl
    · obtain ⟨buf, cwnd, incr, received, heq, _⟩ := (e.input_loop current data).1.input_finish_shape e.snd_una
        (e.input_loop current data).2
      rw [heq]
      exact hrange.rtt

end kcp_core.engine.checked
