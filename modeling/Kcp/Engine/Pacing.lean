import Kcp.Engine.Check
import Kcp.Engine.Congestion

open kcp_core.protocol kcp_core.config kcp_core.error

namespace kcp_core.engine

namespace KcpEngine

/-- A segment that was last sent at a reading `sent`, not after `limit`, to be sent again
`wait` later: the wait covers its retransmission timeout and is at most twice the clock,
and no more transmissions were made than milliseconds have passed, a few aside. -/
def Paced (limit : Nat) (segment : KcpSegment) : Prop :=
  ∃ sent wait : Nat, sent ≤ limit ∧ segment.resendts.toNat = sent + wait ∧
    30 ≤ segment.rto.toNat ∧ segment.rto.toNat ≤ wait ∧ wait ≤ max 67500 (2 * sent) ∧
    0 < segment.xmit.toNat ∧ segment.xmit.toNat ≤ 6 + sent

/-- A later limit is a limit. -/
theorem Paced.mono {n m : Nat} {segment : KcpSegment} (h : Paced n segment) (hle : n ≤ m) : Paced m segment := by
  obtain ⟨sent, wait, hsent, hrest⟩ := h
  exact ⟨sent, wait, hsent.trans hle, hrest⟩

/-- The smoothed timeout stays between the two limits. -/
structure RttBounds (rtt : RttState) : Prop where
  rto_ge : 30 ≤ rtt.rto.toNat
  rto_le : rtt.rto.toNat ≤ 60000
  min_ge : 30 ≤ rtt.min_rto.toNat
  min_le : rtt.min_rto.toNat ≤ 100

/-- A sample keeps the timeout within its bounds. -/
theorem rttBounds_update_ack {e : KcpEngine} (h : RttBounds e.rtt) (sample : Int) :
    RttBounds (e.update_ack sample).rtt := by
  have hmin := h.min_ge
  have hmax := h.min_le
  obtain ⟨avg, var, raw, heq⟩ : ∃ avg var raw, (e.update_ack sample).rtt =
      { e.rtt with avg, var, rto := Word.clamp raw e.rtt.min_rto constants.IKCP_RTO_MAX } := ⟨_, _, _, rfl⟩
  obtain ⟨hlow, hhigh⟩ := Word.clamp_toNat_bounds raw e.rtt.min_rto constants.IKCP_RTO_MAX
    (by change e.rtt.min_rto.toNat ≤ 60000; omega)
  rw [heq]
  exact ⟨hmin.trans hlow, hhigh, hmin, hmax⟩

/-- An ACK keeps the timeout within its bounds, whatever it says. -/
theorem rttBounds_input_ack {e : KcpEngine} (h : RttBounds e.rtt) (current : Timestamp) (segment : KcpSegment) :
    RttBounds (e.input_ack current segment).rtt := by
  have hparse : ∀ e' : KcpEngine, RttBounds e'.rtt → RttBounds (e'.parse_ack segment.header.sn).rtt := by
    intro e' h'
    obtain ⟨buf, heq, _⟩ := parse_ack_shape e' segment.header.sn
    rw [heq]
    exact h'
  unfold input_ack
  split
  · exact hparse _ (rttBounds_update_ack h _)
  · exact hparse _ h

/-! ### The scan -/

/-- The timeout after one more loss: at most twice the clock, once the last one has run out. -/
theorem timeout_rto_bounds {e : KcpEngine} (hrtt : RttBounds e.rtt) (hinterval : e.config.nodelay.interval.toNat ≤ 40)
    {segment : KcpSegment} {now : Nat} (hlow : 30 ≤ segment.rto.toNat) (hhigh : segment.rto.toNat ≤ now)
    (hnow : now < 2 ^ 30) :
    30 ≤ (e.timeout_rto segment).toNat ∧ (e.timeout_rto segment).toNat ≤ max 67500 (2 * now) := by
  have hrto := hrtt.rto_le
  have htwo : (2 : U32).toNat = 2 := rfl
  unfold timeout_rto
  split
  · dsimp only
    split
    · rw [Word.toNat_add_of_lt (by rw [BitVec.toNat_udiv, htwo]; omega), BitVec.toNat_udiv, htwo]
      omega
    · rw [Word.toNat_add_of_lt (by rw [BitVec.toNat_udiv, htwo]; omega), BitVec.toNat_udiv, htwo]
      omega
  · rw [Word.toNat_add_of_lt (by rw [Word.toNat_max]; omega), Word.toNat_max]
    omega

/-- A segment just stamped at `now` is due later. -/
theorem time_diff_stamped {now resendts : Timestamp} {wait : Nat} (hts : resendts.toNat = now.toNat + wait)
    (hpos : 0 < wait) (hwait : wait < 2 ^ 31) : 0 < time_diff resendts now := by
  rw [time_diff_eq (by omega) (by omega)]
  omega

/-- Before `2 ^ 30` the distance to a deadline is a difference. -/
theorem Paced.time_diff {limit : Nat} {now : Timestamp} {segment : KcpSegment} (h : Paced limit segment)
    (hle : limit ≤ now.toNat) (hnow : now.toNat < 2 ^ 30) :
    time_diff now segment.resendts = (now.toNat : Int) - segment.resendts.toNat := by
  obtain ⟨sent, wait, hsent, hts, _, _, hwait, _⟩ := h
  exact time_diff_eq (by omega) (by omega)

/-- The scan leaves every segment sent, and due again only later. -/
theorem paced_mark_segment {e : KcpEngine} (hrtt : RttBounds e.rtt)
    (hinterval : e.config.nodelay.interval.toNat ≤ 40) {limit : Nat} {now : Timestamp} (hle : limit ≤ now.toNat)
    (hnow : now.toNat < 2 ^ 30) {segment : KcpSegment} (h : Paced limit segment ∨ segment.xmit = 0) :
    Paced now.toNat (e.mark_segment now e.resend_threshold e.rto_margin segment) ∧
      0 < time_diff (e.mark_segment now e.resend_threshold e.rto_margin segment).resendts now := by
  have hrto := hrtt.rto_le
  have hrto' := hrtt.rto_ge
  unfold mark_segment
  by_cases hnew : segment.xmit = 0
  · -- the first transmission
    have hmark : mark_of now e.resend_threshold segment = .first := by
      unfold mark_of
      rw [if_pos hnew]
    have hmargin : e.rto_margin.toNat ≤ 7500 := by
      unfold rto_margin
      split
      · exact Nat.zero_le _
      · rw [BitVec.toNat_udiv]
        change e.rtt.rto.toNat / 8 ≤ 7500
        omega
    have hsum : (now + e.rtt.rto + e.rto_margin).toNat = now.toNat + (e.rtt.rto.toNat + e.rto_margin.toNat) := by
      rw [Word.toNat_add_of_lt (by rw [Word.toNat_add_of_lt (by omega)]; omega), Word.toNat_add_of_lt (by omega)]
      omega
    simp only [hmark]
    refine ⟨⟨now.toNat, e.rtt.rto.toNat + e.rto_margin.toNat, le_rfl, hsum, hrto', Nat.le_add_right _ _, by omega,
      ?_, ?_⟩, time_diff_stamped hsum (by omega) (by omega)⟩
    · change 0 < (1 : U32).toNat
      decide
    · change 1 ≤ 6 + now.toNat
      omega
  · have hpaced := h.resolve_right hnew
    have hearly := hpaced.time_diff hle hnow
    obtain ⟨sent, wait, hsent, hts, hlow, hcover, hwait, hpos, hcount⟩ := hpaced
    by_cases htimeout : 0 ≤ time_diff now segment.resendts
    · -- a timeout: the last wait has run out
      have hmark : mark_of now e.resend_threshold segment = .timeout := by
        unfold mark_of
        rw [if_neg hnew, if_pos htimeout]
      have hover : sent + wait ≤ now.toNat := by omega
      obtain ⟨hge, hbound⟩ := timeout_rto_bounds (e := e) hrtt hinterval hlow (by omega) hnow
      have hsum : (now + e.timeout_rto segment).toNat = now.toNat + (e.timeout_rto segment).toNat :=
        Word.toNat_add_of_lt (by omega)
      have hnext : (segment.xmit + 1).toNat = segment.xmit.toNat + 1 :=
        Word.toNat_add_of_lt (by change segment.xmit.toNat + 1 < 2 ^ 32; omega)
      simp only [hmark]
      exact ⟨⟨now.toNat, (e.timeout_rto segment).toNat, le_rfl, hsum, hge, le_rfl, hbound,
        by rw [hnext]; omega, by rw [hnext]; omega⟩, time_diff_stamped hsum (by omega) (by omega)⟩
    · by_cases hfast : e.resend_threshold ≤ segment.fastack ∧
        (segment.xmit ≤ constants.IKCP_FASTACK_LIMIT ∨ constants.IKCP_FASTACK_LIMIT = 0)
      · -- a fast retransmission: at most five of them per segment
        have hmark : mark_of now e.resend_threshold segment = .fast := by
          unfold mark_of
          rw [if_neg hnew, if_neg htimeout, if_pos hfast]
        have hfew : segment.xmit.toNat ≤ 5 := by
          rcases hfast.2 with hfew | habsurd
          · rw [BitVec.le_def] at hfew
            exact hfew
          · exact absurd habsurd (by decide)
        have hsum : (now + segment.rto).toNat = now.toNat + segment.rto.toNat := Word.toNat_add_of_lt (by omega)
        have hnext : (segment.xmit + 1).toNat = segment.xmit.toNat + 1 :=
          Word.toNat_add_of_lt (by change segment.xmit.toNat + 1 < 2 ^ 32; omega)
        simp only [hmark]
        exact ⟨⟨now.toNat, segment.rto.toNat, le_rfl, hsum, hlow, le_rfl, by omega,
          by rw [hnext]; omega, by rw [hnext]; omega⟩, time_diff_stamped hsum (by omega) (by omega)⟩
      · have hmark : mark_of now e.resend_threshold segment = .hold := by
          unfold mark_of
          rw [if_neg hnew, if_neg htimeout, if_neg hfast]
        simp only [hmark]
        refine ⟨⟨sent, wait, hsent.trans hle, hts, hlow, hcover, hwait, hpos, hcount⟩, ?_⟩
        rw [time_diff_eq (by omega) (by omega)]
        omega

/-! ### The engine -/

/-- Every timer of the engine is set from a reading not after `limit`. -/
structure Timed (limit : Nat) (e : KcpEngine) : Prop where
  rtt : RttBounds e.rtt
  paced : ∀ segment ∈ e.snd_buf, Paced limit segment
  timer : TimerSet e
  probe_le : e.probe.wait ≠ 0 → e.probe.ts.toNat ≤ limit + 120000

theorem Timed.mono {n m : Nat} {e : KcpEngine} (h : Timed n e) (hle : n ≤ m) : Timed m e where
  rtt := h.rtt
  paced := fun segment hmem => (h.paced segment hmem).mono hle
  timer := h.timer
  probe_le := fun hwait => by
    have := h.probe_le hwait
    omega

/-- The probe deadline of a closed window, after a flush: ahead, by two minutes at most. -/
theorem Timed.probe_deadline {limit : Nat} {e : KcpEngine} (h : Timed limit e) {now : Timestamp}
    (hle : limit ≤ now.toNat) (hnow : now.toNat < 2 ^ 30) (hrmt : e.wnd.rmt = 0) :
    0 < time_diff (e.probe_timer now).ts now ∧ time_diff (e.probe_timer now).ts now ≤ 120000 ∧
      (e.probe_timer now).ts.toNat ≤ now.toNat + 120000 := by
  obtain ⟨hpos, hwait, ⟨_, hts⟩ | ⟨hsame, hearly⟩⟩ := probe_timer_closed hrmt h.timer.wait_le now
  · have hsum : (e.probe_timer now).ts.toNat = now.toNat + (e.probe_timer now).wait.toNat := by
      rw [hts]
      exact Word.toNat_add_of_lt (by omega)
    have hwaitpos : 0 < (e.probe_timer now).wait.toNat := kcp_tokio.config.toNat_pos_of_ne_zero hpos
    rw [time_diff_eq (by omega) (by omega)]
    omega
  · rw [hsame] at hpos ⊢
    have hts := h.probe_le hpos
    rw [time_diff_eq (by omega) (by omega)] at hearly
    rw [time_diff_eq (by omega) (by omega)]
    omega

/-- A flush sets its timers from its own clock. -/
theorem timed_flush {limit : Nat} {e : KcpEngine} (h : Timed limit e)
    (hinterval : e.config.nodelay.interval.toNat ≤ 40) {clk : Clock} (hle : limit ≤ clk.now.toNat)
    (hnow : clk.now.toNat < 2 ^ 30) :
    Timed clk.now.toNat (e.flush clk).1 ∧
      ∀ segment ∈ (e.flush clk).1.snd_buf, 0 < time_diff segment.resendts clk.now := by
  have hset := (timerSet_flush h.timer (timerFits_of_early h.timer hnow)).1
  have hmarked : ∀ segment ∈ e.flushed_buf clk.now,
      Paced clk.now.toNat segment ∧ 0 < time_diff segment.resendts clk.now := by
    intro segment hmem
    obtain ⟨before, hbefore, rfl⟩ := List.mem_map.mp hmem
    apply paced_mark_segment h.rtt hinterval hle hnow
    rcases List.mem_append.mp hbefore with hold | hnew
    · exact .inl (h.paced before hold)
    · exact .inr (e.xmit_numbered _ _ _ before hnew)
  obtain ⟨queue, buf, stats, heq⟩ := e.flush_shape clk
  rw [heq] at hset ⊢
  refine ⟨⟨h.rtt, fun segment hmem => (hmarked segment hmem).1, hset, ?_⟩, fun segment hmem => (hmarked segment hmem).2⟩
  intro hwait
  by_cases hrmt : e.wnd.rmt = 0
  · exact (h.probe_deadline hle hnow hrmt).2.2
  · change (e.probe_timer clk.now).wait ≠ 0 at hwait
    rw [probe_timer_open hrmt] at hwait
    exact absurd rfl hwait

/-- A datagram sets no timer. -/
theorem timed_input {limit : Nat} {e : KcpEngine} (h : Timed limit e) (current : Timestamp) (data : Bytes) :
    Timed limit (e.input current data).1 := by
  have hframe := e.inputFrame_input current data
  obtain ⟨kept, hsub, hcounted, _⟩ := e.input_snd_buf current data
  have hrtt : RttBounds (e.input current data).1.rtt := by
    by_cases hshort : data.length < KcpHeader.SIZE
    · rw [input_short hshort]
      exact h.rtt
    · rw [input_eq hshort]
      have hloop : RttBounds (e.input_loop current data).1.rtt := by
        apply input_loop_rule (P := fun e' => RttBounds e'.rtt)
        · intro segment _ acc hacc
          apply input_segment_rule (P := fun e' => RttBounds e'.rtt)
          · exact fun _ _ h => h
          · exact fun _ h => h
          · exact fun _ _ h => rttBounds_input_ack h current segment
          · intro _ e' h
            obtain ⟨queue, buf, nxt, acks, heq⟩ := input_push_shape e' segment
            rw [heq]
            exact h
          · exact fun _ h => h
          · exact hacc
        · exact h.rtt
      obtain ⟨buf, cwnd, incr, received, hfinish, _⟩ := input_finish_shape
        (e.input_loop current data).1 e.snd_una (e.input_loop current data).2
      rw [hfinish]
      exact hloop
  refine ⟨hrtt, ?_, ⟨?_, ?_⟩, ?_⟩
  · intro segment hmem
    obtain ⟨before, hbefore, hcount⟩ := exists_counted hcounted segment hmem
    have hpaced := h.paced before (hsub.subset hbefore)
    rcases hcount with heq | heq
    · rw [heq]; exact hpaced
    · rw [heq]; exact hpaced
  · rw [hframe.wait]; exact h.timer.wait_le
  · rw [hframe.wait, hframe.ts]; exact h.timer.deadline
  · rw [hframe.wait, hframe.ts]; exact h.probe_le

/-- Every call keeps to the clock. -/
theorem timed_step {limit : Nat} {self : KcpEngine} (h : Timed limit self)
    (hinterval : self.config.nodelay.interval.toNat ≤ 40) (op : Op) {latest : Nat} (hle : limit ≤ latest)
    (hclk : ∀ clk, self.flush_of op = some clk → limit ≤ clk.now.toNat ∧ clk.now.toNat ≤ latest ∧
      clk.now.toNat < 2 ^ 30) : Timed latest (self.step op) := by
  apply step_rule (P := Timed latest) op
  · intro clk data _
    obtain ⟨queue, sent, heq⟩ := self.send_shape clk data
    rw [heq]
    have := h.mono hle
    exact ⟨this.rtt, this.paced, ⟨this.timer.wait_le, this.timer.deadline⟩, this.probe_le⟩
  · intro _
    obtain ⟨queue, buf, nxt, flags, received, heq⟩ := self.recv_shape
    rw [heq]
    have := h.mono hle
    exact ⟨this.rtt, this.paced, ⟨this.timer.wait_le, this.timer.deadline⟩, this.probe_le⟩
  · intro now data _
    exact (timed_input h now data).mono hle
  · intro last flags clk hflush
    obtain ⟨hfrom, hto, hlt⟩ := hclk clk hflush
    have hsame : Timed limit { self with last_update := last, probe := { self.probe with flags } } :=
      ⟨h.rtt, h.paced, ⟨h.timer.wait_le, h.timer.deadline⟩, h.probe_le⟩
    exact (timed_flush hsame hinterval hfrom hlt).1.mono hto
  all_goals
    intros
    have := h.mono hle
    exact ⟨this.rtt, this.paced, ⟨this.timer.wait_le, this.timer.deadline⟩, this.probe_le⟩

/-- With data in the queue but none in flight, a flush leaves the data only if the
remote window is closed. -/
theorem closed_of_nothing_sent {e : KcpEngine} (hwin : SendWindow e) (hcong : Congested e)
    (hsnd : 0 < e.wnd.snd.toNat) (hle : e.wnd.snd.toNat ≤ 65535) (clk : Clock)
    (hqueue : (e.flush clk).1.snd_queue ≠ []) (hbuf : (e.flush clk).1.snd_buf = []) : e.wnd.rmt = 0 := by
  obtain ⟨queue, buf, stats, heq⟩ := e.flush_shape clk
  rw [heq] at hqueue hbuf
  dsimp only at hqueue hbuf
  rw [flushed_buf, List.map_eq_nil_iff, List.append_eq_nil_iff, numbered_eq_nil_iff] at hbuf
  obtain ⟨hempty, hnone⟩ := hbuf
  have hspan : Serial.offset e.snd_una e.snd_nxt = 0 := by
    have hfront := hwin.front
    unfold snd_sns at hfront
    rw [hempty] at hfront
    rw [hfront]
    exact Serial.offset_self _
  have heff := e.effective_wnd_le
  rw [hnone, List.drop_zero] at hqueue
  -- nothing was let in, so the effective window is zero
  have hzero : e.effective_wnd.toNat = 0 := by
    by_contra hopen
    rcases admitted_eq_zero_iff.mp hnone with hnil | hfull
    · exact hqueue hnil
    · have hroom : time_diff e.snd_nxt e.window_end < 0 :=
        (window_test (by omega) (by omega)).mpr (by omega)
      omega
  have hcwnd := hcong.cwnd_pos
  apply BitVec.eq_of_toNat_eq
  change e.wnd.rmt.toNat = 0
  unfold effective_wnd at hzero
  split at hzero <;> simp only [Word.toNat_min] at hzero <;> omega

end KcpEngine

open KcpEngine

/-! ### Runs -/

/-- The clock readings a call takes, in order, apart from those that only stamp headers. -/
def Op.readings : Op → List Timestamp
  | .send clk _ => [clk.now]
  | .input now _ => [now]
  | .flush clk => [clk.now]
  | .update now clk => [now, clk.now]
  | .keep_alive_probe clk => [clk.now]
  | _ => []

/-- The clock never goes back, and stays below `2 ^ 30`. -/
structure Ordered (ops : List Op) : Prop where
  sorted : (ops.flatMap Op.readings).Pairwise fun a b => a.toNat ≤ b.toNat
  early : ∀ t ∈ ops.flatMap Op.readings, t.toNat < 2 ^ 30

/-- The clock of a flush is one of the readings of the call. -/
theorem mem_readings_of_flush {e : KcpEngine} {op : Op} {clk : Clock} (h : e.flush_of op = some clk) :
    clk.now ∈ op.readings := by
  cases op with
  | flush c => simp only [flush_of, Option.some.injEq] at h; simp [Op.readings, h]
  | keep_alive_probe c => simp only [flush_of, Option.some.injEq] at h; simp [Op.readings, h]
  | update now c =>
    simp only [flush_of, Option.ite_none_right_eq_some, Option.some.injEq] at h
    simp [Op.readings, h.2]
  | _ => simp [flush_of] at h

/-- While the clock stays below `2 ^ 30`, the probe timer never wraps. -/
theorem Start.stepFits (start : Start) {ops : List Op} (h : ∀ t ∈ ops.flatMap Op.readings, t.toNat < 2 ^ 30) :
    Trace.Always KcpEngine.step StepFits start.fresh ops := by
  induction ops using List.reverseRecOn with
  | nil => trivial
  | append_singleton ops op ih =>
    rw [List.flatMap_append, List.flatMap_singleton] at h
    have hbefore := ih fun t ht => h t (List.mem_append_left _ ht)
    rw [Trace.always_concat]
    refine ⟨hbefore, fun clk hclk => ?_⟩
    exact timerFits_of_early (start.timerSet ops hbefore) (h _ (List.mem_append_right _ (mem_readings_of_flush hclk)))

/-- The presets flush every 40 ms at the latest. -/
theorem interval_of_preset {nodelay : NodeDelayConfig} (h : nodelay.IsPreset) : nodelay.interval.toNat ≤ 40 := by
  rcases h with h | h | h | h <;> rw [h] <;> decide

/-- The readings before the last call are not after its own. -/
theorem Ordered.concat {ops : List Op} {op : Op} (h : Ordered (ops ++ [op])) :
    Ordered ops ∧ ∀ a ∈ ops.flatMap Op.readings, ∀ b ∈ op.readings, a.toNat ≤ b.toNat := by
  have hsorted := h.sorted
  rw [List.flatMap_append, List.pairwise_append] at hsorted
  refine ⟨⟨hsorted.1, fun t ht => h.early t ?_⟩, fun a ha b hb => hsorted.2.2 a ha b (by simpa using hb)⟩
  rw [List.flatMap_append]
  exact List.mem_append_left _ ht

/-- In a run with an ordered clock, every timer is set from the latest reading or before. -/
theorem Start.timed (start : Start) (hmode : start.config.nodelay.IsPreset) (ops : List Op) (h : Ordered ops)
    (latest : Nat) (hlatest : ∀ t ∈ ops.flatMap Op.readings, t.toNat ≤ latest) : Timed latest (start.reached ops) := by
  revert h latest
  apply Trace.invariant (P := fun (ops : List Op) e => Ordered ops →
    ∀ latest, (∀ t ∈ ops.flatMap Op.readings, t.toNat ≤ latest) → Timed latest e)
  · intro _ latest _
    refine ⟨⟨?_, ?_, ?_, ?_⟩, by simp [Start.fresh, new], ⟨Nat.zero_le _, fun h0 => absurd rfl h0⟩,
      fun h0 => absurd rfl h0⟩
    · change 30 ≤ constants.IKCP_RTO_DEF.toNat
      decide
    · change constants.IKCP_RTO_DEF.toNat ≤ 60000
      decide
    · change 30 ≤ (if start.config.nodelay.nodelay then constants.IKCP_RTO_NDL else constants.IKCP_RTO_MIN).toNat
      split <;> decide
    · change (if start.config.nodelay.nodelay then constants.IKCP_RTO_NDL else constants.IKCP_RTO_MIN).toNat ≤ 100
      split <;> decide
  · intro ops op ih h latest hlatest
    obtain ⟨hbefore, hcross⟩ := h.concat
    have hinterval : (start.reached ops).config.nodelay.interval.toNat ≤ 40 := by
      rw [(start.configured ops).config]
      exact interval_of_preset hmode
    have hops : ∀ t ∈ ops.flatMap Op.readings, t.toNat ≤ latest := fun t ht =>
      hlatest t (by rw [List.flatMap_append]; exact List.mem_append_left _ ht)
    have hop : ∀ t ∈ op.readings, t.toNat ≤ latest ∧ t.toNat < 2 ^ 30 := by
      intro t ht
      have hmem : t ∈ (ops ++ [op]).flatMap Op.readings := by
        rw [List.flatMap_append]
        exact List.mem_append_right _ (by simpa using ht)
      exact ⟨hlatest t hmem, h.early t hmem⟩
    cases hflush : (start.reached ops).flush_of op with
    | none =>
      refine timed_step (ih hbefore latest hops) hinterval op le_rfl fun clk hclk => ?_
      have hnone : none = some clk := hflush.symm.trans hclk
      cases hnone
    | some clk =>
      have hmem := mem_readings_of_flush hflush
      have hprev := ih hbefore clk.now.toNat fun t ht => hcross t ht _ hmem
      refine timed_step hprev hinterval op (hop _ hmem).1 fun c hc => ?_
      have hsame : some clk = some c := hflush.symm.trans hc
      rw [Option.some.injEq] at hsame
      subst hsame
      exact ⟨le_rfl, hop _ hmem⟩

/-- What is waiting to be sent has a deadline: every segment in flight was sent and is due
later; and data that is not in flight waits behind a closed remote window, whose probe is
due within two minutes. So `check` finds a deadline while there is data. -/
structure Scheduled (e : KcpEngine) (now : Timestamp) : Prop where
  sent : ∀ segment ∈ e.snd_buf, 1 ≤ segment.xmit.toNat ∧ 0 < time_diff segment.resendts now
  waiting : e.has_unsent_data = true → e.snd_buf ≠ [] ∨
    e.wnd.rmt = 0 ∧ 0 < e.probe.wait.toNat ∧ 0 < time_diff e.probe.ts now ∧ time_diff e.probe.ts now ≤ 120000
  awake : e.has_unsent_data = true → e.next_deadline now ≠ 0xFFFFFFFF

/-- Where there is a deadline the wait ends. -/
theorem next_deadline_ne_max {e : KcpEngine} {now d : Timestamp} (h : d ∈ e.deadlines) :
    e.next_deadline now ≠ 0xFFFFFFFF := by
  intro hmax
  have hlt := time_diff_lt d now
  have hlarge : 2 ^ 31 < (e.next_deadline now).toNat := by rw [hmax]; decide
  have hwait := (lt_next_deadline_iff.mp hlarge).2 d h
  omega

/-- After a flush every segment that waits has its time. -/
theorem scheduled_flush {e : KcpEngine} {limit : Nat} (h : Timed limit e)
    (hinterval : e.config.nodelay.interval.toNat ≤ 40) (hwin : SendWindow e) (hcong : Congested e)
    (hsnd : 0 < e.wnd.snd.toNat) (hsndle : e.wnd.snd.toNat ≤ 65535) {clk : Clock} (hle : limit ≤ clk.now.toNat)
    (hnow : clk.now.toNat < 2 ^ 30) : Scheduled (e.flush clk).1 clk.now := by
  obtain ⟨htimed, hlater⟩ := timed_flush h hinterval hle hnow
  have hwaiting : (e.flush clk).1.has_unsent_data = true → (e.flush clk).1.snd_buf ≠ [] ∨
      (e.flush clk).1.wnd.rmt = 0 ∧ 0 < (e.flush clk).1.probe.wait.toNat ∧
        0 < time_diff (e.flush clk).1.probe.ts clk.now ∧ time_diff (e.flush clk).1.probe.ts clk.now ≤ 120000 := by
    intro hdata
    by_cases hbuf : (e.flush clk).1.snd_buf = []
    · right
      have hqueue : (e.flush clk).1.snd_queue ≠ [] := by
        intro hqueue
        simp [has_unsent_data, hbuf, hqueue] at hdata
      have hrmt := closed_of_nothing_sent hwin hcong hsnd hsndle clk hqueue hbuf
      obtain ⟨hpos, hwait, _⟩ := probe_timer_closed hrmt h.timer.wait_le clk.now
      obtain ⟨hahead, hnear, _⟩ := h.probe_deadline hle hnow hrmt
      obtain ⟨queue, buf, stats, heq⟩ := e.flush_shape clk
      rw [heq]
      exact ⟨(e.flushed_wnd_frame clk.now).2.2.trans hrmt, kcp_tokio.config.toNat_pos_of_ne_zero hpos, hahead, hnear⟩
    · exact .inl hbuf
  refine ⟨fun segment hmem => ⟨?_, hlater segment hmem⟩, hwaiting, ?_⟩
  · obtain ⟨_, _, _, _, _, _, _, hpos, _⟩ := htimed.paced segment hmem
    exact hpos
  · intro hdata
    rcases hwaiting hdata with hbuf | ⟨hrmt, hwait, _⟩
    · obtain ⟨segment, hmem⟩ := List.exists_mem_of_ne_nil _ hbuf
      exact next_deadline_ne_max (List.mem_append_left _ (List.mem_map_of_mem hmem))
    · have hts : (e.flush clk).1.probe.ts ≠ 0 := by
        apply htimed.timer.deadline
        intro hzero
        rw [hzero] at hwait
        exact absurd hwait (by decide)
      refine next_deadline_ne_max (d := (e.flush clk).1.probe.ts) ?_
      unfold deadlines
      rw [if_pos ⟨hrmt, hts⟩]
      exact List.mem_append_right _ (List.mem_singleton_self _)

/-- In a named mode and under a clock that never goes back, every flush, whoever the peer
is, leaves everything that is waiting to be sent with a deadline. -/
theorem scheduled_after_flush (start : Start) (hmode : start.config.nodelay.IsPreset) (ops : List Op) (op : Op)
    (hclock : Ordered (ops ++ [op])) (clk : Clock) (hflush : (start.reached ops).flush_of op = some clk) :
    Scheduled (start.reached (ops ++ [op])) clk.now := by
  obtain ⟨hbefore, hcross⟩ := hclock.concat
  have hmem := mem_readings_of_flush hflush
  have htimed := start.timed hmode ops hbefore clk.now.toNat fun t ht => hcross t ht _ hmem
  have hearly : clk.now.toNat < 2 ^ 30 := by
    apply hclock.early
    rw [List.flatMap_append]
    exact List.mem_append_right _ (by simpa using hmem)
  have hset := start.configured ops
  have hwin := start.sendWindow ops
  obtain ⟨last, flags, hstep, _⟩ := step_of_flush_of hflush
  rw [Start.reached_concat, hstep]
  apply scheduled_flush
  · exact ⟨htimed.rtt, htimed.paced, ⟨htimed.timer.wait_le, htimed.timer.deadline⟩, htimed.probe_le⟩
  · change (start.reached ops).config.nodelay.interval.toNat ≤ 40
    rw [hset.config]
    exact interval_of_preset hmode
  · exact hwin.congr rfl rfl rfl rfl
  · exact start.congested hmode ops
  · change 0 < (start.reached ops).wnd.snd.toNat
    rw [hset.snd]
    exact start.accepted.snd_pos
  · exact start.snd_le ops
  · exact le_rfl
  · exact hearly

/-- A message queued on a new engine and flushed has a deadline. -/
theorem scheduled_one_message : Scheduled (plain.reached ([.send (.at 5) [1]] ++ [.flush (.at 6)])) 6 :=
  scheduled_after_flush plain (.inl rfl) [.send (.at 5) [1]] (.flush (.at 6))
    ⟨by simp [Op.readings], by simp [Op.readings]⟩ (.at 6) rfl

end kcp_core.engine
