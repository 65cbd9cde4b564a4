import Kcp.Engine.FlushShape

open kcp_core.protocol kcp_core.config kcp_core.error

namespace kcp_core.engine.KcpEngine

/-- The window after a fast retransmission, from the segments in flight. -/
def fast_wnd (mss inflight resend : U32) (wnd : WindowState) : WindowState :=
  let ssthresh := if inflight / 2 < constants.IKCP_THRESH_MIN then constants.IKCP_THRESH_MIN else inflight / 2
  { wnd with ssthresh, cwnd := ssthresh + resend, incr := (ssthresh + resend) * mss }

/-- The window after a timeout. -/
def lost_wnd (mss : U32) (wnd : WindowState) : WindowState :=
  { wnd with ssthresh := max (wnd.cwnd / 2) constants.IKCP_THRESH_MIN, cwnd := 1, incr := mss }

def floor_wnd (mss : U32) (wnd : WindowState) : WindowState :=
  if wnd.cwnd < 1 then { wnd with cwnd := 1, incr := mss } else wnd

/-- The window after `update_congestion_on_loss`. -/
def loss_wnd (mss inflight : U32) (lost change : Bool) (resend : U32) (wnd : WindowState) : WindowState :=
  let wnd := if change then fast_wnd mss inflight resend wnd else wnd
  floor_wnd mss (if lost then lost_wnd mss wnd else wnd)

/-- A loss changes the congestion window alone. -/
theorem update_congestion_on_loss_eq (self : KcpEngine) (lost change : Bool) (resend : U32) :
    self.update_congestion_on_loss lost change resend =
      { self with wnd := loss_wnd self.mss (self.snd_nxt - self.snd_una) lost change resend self.wnd } := by
  unfold update_congestion_on_loss loss_wnd floor_wnd lost_wnd fast_wnd reset_cwnd mss
  dsimp only
  split_ifs <;> rfl

/-- A property of windows that each of the three changes keeps holds after a loss. -/
theorem loss_wnd_rule {P : WindowState → Prop} {mss inflight resend : U32} {lost change : Bool} {wnd : WindowState}
    (hfast : ∀ w, P w → P (fast_wnd mss inflight resend w)) (hlost : ∀ w, P w → P (lost_wnd mss w))
    (hfloor : ∀ w, P w → P (floor_wnd mss w)) (h : P wnd) : P (loss_wnd mss inflight lost change resend wnd) := by
  unfold loss_wnd
  apply hfloor
  cases lost with
  | false =>
    cases change with
    | false => exact h
    | true => exact hfast _ h
  | true =>
    apply hlost
    cases change with
    | false => exact h
    | true => exact hfast _ h

/-- A loss leaves the other windows as they are. -/
theorem loss_wnd_frame (mss inflight : U32) (lost change : Bool) (resend : U32) (wnd : WindowState) :
    (loss_wnd mss inflight lost change resend wnd).snd = wnd.snd ∧
      (loss_wnd mss inflight lost change resend wnd).rcv = wnd.rcv ∧
      (loss_wnd mss inflight lost change resend wnd).rmt = wnd.rmt := by
  apply loss_wnd_rule (P := fun w => w.snd = wnd.snd ∧ w.rcv = wnd.rcv ∧ w.rmt = wnd.rmt)
  · exact fun _ h => h
  · exact fun _ h => h
  · intro w h
    unfold floor_wnd
    split <;> exact h
  · exact ⟨rfl, rfl, rfl⟩

/-- The congestion window is never closed. -/
theorem floor_wnd_pos (mss : U32) (wnd : WindowState) : ¬ (floor_wnd mss wnd).cwnd < 1 := by
  unfold floor_wnd
  split
  · change ¬ (1 : U32) < 1
    decide
  · assumption

/-- To hand over the open buffer touches the output alone. -/
theorem flush_out_buf_shape (self : KcpEngine) : ∃ queue buf,
    self.flush_out_buf = { self with output_queue := queue, out_buf := buf } := by
  unfold flush_out_buf
  split <;> exact ⟨_, _, rfl⟩

/-- The send buffer a flush leaves: what was in flight and what the window let in,
each segment as the scan leaves it. -/
def flushed_buf (self : KcpEngine) (current : Timestamp) : List KcpSegment :=
  (self.snd_buf ++ self.numbered current self.snd_nxt (self.snd_queue.take self.admitted)).map
    (self.mark_segment current self.resend_threshold self.rto_margin)

/-- What a flush has done before it scans the segments. -/
theorem ready_eq (self : KcpEngine) (current : Timestamp) :
    self.ready current =
      { self with
        ack_list := []
        probe := { self.probe_timer current with flags := 0 }
        snd_queue := self.snd_queue.drop self.admitted
        snd_buf := self.snd_buf ++ self.numbered current self.snd_nxt (self.snd_queue.take self.admitted)
        snd_nxt := self.snd_nxt + BitVec.ofNat 32 self.admitted } := by
  have hnumbered : ∀ queue sn, (self.opened current).numbered current sn queue =
      self.numbered current sn queue := by
    intro queue sn
    apply numbered_congr <;> rfl
  rw [ready, move_to_send_buf_eq, hnumbered]
  rfl

theorem scanned_ready_eq (self : KcpEngine) (current : Timestamp) : ∃ stats,
    (self.ready current).scanned current =
      { self with
        ack_list := []
        probe := { self.probe_timer current with flags := 0 }
        snd_queue := self.snd_queue.drop self.admitted
        snd_buf := self.flushed_buf current
        snd_nxt := self.snd_nxt + BitVec.ofNat 32 self.admitted
        stats } := by
  rw [ready_eq]
  exact ⟨_, rfl⟩

/-- The window a flush leaves. -/
def flushed_wnd (self : KcpEngine) (current : Timestamp) : WindowState :=
  if self.flush_dies current then self.wnd
  else
    let ready := self.ready current
    loss_wnd self.mss (ready.snd_nxt - self.snd_una) (decide (0 < ready.timeouts current))
      (decide (0 < ready.fasts current)) self.resend_threshold self.wnd

/-- A flush moves no window but the one for congestion. -/
theorem flushed_wnd_frame (self : KcpEngine) (current : Timestamp) :
    (self.flushed_wnd current).snd = self.wnd.snd ∧ (self.flushed_wnd current).rcv = self.wnd.rcv ∧
      (self.flushed_wnd current).rmt = self.wnd.rmt := by
  unfold flushed_wnd
  split
  · exact ⟨rfl, rfl, rfl⟩
  · exact loss_wnd_frame ..

/-- What a flush does to the engine, the output and the statistics left open. -/
theorem flush_shape (self : KcpEngine) (clk : Clock) : ∃ queue buf stats,
    (self.flush clk).1 =
      { self with
        ack_list := []
        probe := { self.probe_timer clk.now with flags := 0 }
        snd_queue := self.snd_queue.drop self.admitted
        snd_buf := self.flushed_buf clk.now
        snd_nxt := self.snd_nxt + BitVec.ofNat 32 self.admitted
        wnd := self.flushed_wnd clk.now
        output_queue := queue
        out_buf := buf
        stats } := by
  obtain ⟨stats, hscan⟩ := self.scanned_ready_eq clk.now
  rw [flush_eq]
  unfold flushed_wnd
  by_cases hdies : self.flush_dies clk.now = true
  · rw [if_pos hdies, if_pos hdies]
    simp only [flush_lost, hscan]
    exact ⟨_, _, _, rfl⟩
  · rw [if_neg hdies, if_neg hdies]
    simp only [flush_done, flush_lost, hscan, update_congestion_on_loss_eq]
    obtain ⟨queue, buf, hout⟩ := flush_out_buf_shape _
    rw [hout]
    simp only [ready_eq]
    exact ⟨_, _, _, rfl⟩

/-- A flush fails exactly if it meets a dead segment. -/
theorem flush_result (self : KcpEngine) (clk : Clock) :
    (self.flush clk).2 = if self.flush_dies clk.now then .error .ConnectionLost else .ok () := by
  rw [flush_eq]
  split <;> rfl

/-- What a flush adds to the counters. -/
structure FlushCounters (before after : KcpStats) (sent timeouts fasts : Nat) : Prop where
  bytes_sent : after.bytes_sent = before.bytes_sent
  bytes_received : after.bytes_received = before.bytes_received
  packets_sent : after.packets_sent = before.packets_sent + sent
  packets_received : after.packets_received = before.packets_received
  retransmissions : after.retransmissions = before.retransmissions + timeouts
  fast_retransmissions : after.fast_retransmissions = before.fast_retransmissions + fasts

/-- The counters that a flush raises. -/
theorem flush_counters (self : KcpEngine) (clk : Clock) :
    FlushCounters self.stats (self.flush clk).1.stats (self.emissions clk).length
      ((self.ready clk.now).timeouts clk.now) ((self.ready clk.now).fasts clk.now) := by
  have hlost : FlushCounters self.stats (self.flush_lost clk).stats (self.emissions clk).length
      ((self.ready clk.now).timeouts clk.now) ((self.ready clk.now).fasts clk.now) := by
    have hstats : (self.ready clk.now).stats = self.stats := by rw [ready_eq]
    rw [← hstats]
    constructor <;> rfl
  rw [flush_eq]
  split
  · exact hlost
  · unfold flush_done
    dsimp only
    obtain ⟨queue, buf, hout⟩ := flush_out_buf_shape ((self.flush_lost clk).update_congestion_on_loss
      (decide (0 < (self.ready clk.now).timeouts clk.now)) (decide (0 < (self.ready clk.now).fasts clk.now))
      (self.ready clk.now).resend_threshold)
    rw [hout, update_congestion_on_loss_eq]
    exact ⟨hlost.bytes_sent, hlost.bytes_received, hlost.packets_sent, hlost.packets_received,
      hlost.retransmissions, hlost.fast_retransmissions⟩

/-! ### The scan -/

/-- A segment is counted each time it is sent. -/
theorem xmit_mark_segment (self : KcpEngine) (current : Timestamp) (resend rtomin : U32) (segment : KcpSegment) :
    (self.mark_segment current resend rtomin segment).xmit =
      if mark_of current resend segment = .hold then segment.xmit else segment.xmit + 1 := by
  unfold mark_segment
  cases hmark : mark_of current resend segment with
  | hold => rfl
  | timeout => rfl
  | fast => rfl
  | first =>
    have hzero : segment.xmit = 0 := by
      unfold mark_of at hmark
      split at hmark
      · assumption
      · split at hmark
        · cases hmark
        · split at hmark <;> cases hmark
    simp [hzero]

/-- A segment that has just been numbered has not been sent. -/
theorem xmit_numbered (self : KcpEngine) (current : Timestamp) (sn : SeqNum) (queue : List KcpSegment) :
    ∀ segment ∈ self.numbered current sn queue, segment.xmit = 0 := by
  induction queue generalizing sn with
  | nil => intro segment h; cases h
  | cons head queue ih =>
    intro segment h
    rcases List.mem_cons.mp h with rfl | h
    · rfl
    · exact ih _ segment h

/-- No more is admitted than there is. -/
theorem admitted_le (self : KcpEngine) : self.admitted ≤ self.snd_queue.length := by
  have hcount : ∀ (queue : List KcpSegment) (limit sn : SeqNum), admit_count limit sn queue ≤ queue.length := by
    intro queue limit
    induction queue with
    | nil => exact fun _ => le_rfl
    | cons segment queue ih =>
      intro sn
      unfold admit_count
      have := ih (sn + 1)
      split <;> simp only [List.length_cons] <;> omega
  exact hcount _ _ _

theorem length_numbered (self : KcpEngine) (current : Timestamp) (sn : SeqNum) (queue : List KcpSegment) :
    (self.numbered current sn queue).length = queue.length := by
  induction queue generalizing sn with
  | nil => rfl
  | cons segment queue ih => simp [numbered, ih]

/-- The segments a flush scans: those in flight and those the window lets in. -/
theorem mem_ready {self : KcpEngine} {current : Timestamp} {segment : KcpSegment} :
    segment ∈ (self.ready current).snd_buf ↔ segment ∈ self.snd_buf ∨
      segment ∈ self.numbered current self.snd_nxt (self.snd_queue.take self.admitted) := by
  rw [ready_eq]
  exact List.mem_append

/-- A segment on its way into the buffer is due whatever the clock shows. -/
theorem mark_numbered (self : KcpEngine) (current later : Timestamp) (resend : U32) (sn : SeqNum)
    (queue : List KcpSegment) : ∀ segment ∈ self.numbered current sn queue, mark_of later resend segment = .first := by
  intro segment hmem
  unfold mark_of
  rw [if_pos (self.xmit_numbered current sn queue segment hmem)]

theorem numbered_eq_nil_iff (self : KcpEngine) (current : Timestamp) :
    self.numbered current self.snd_nxt (self.snd_queue.take self.admitted) = [] ↔ self.admitted = 0 := by
  have hlen := self.length_numbered current self.snd_nxt (self.snd_queue.take self.admitted)
  have hle := self.admitted_le
  rw [List.length_take] at hlen
  rw [← List.length_eq_zero_iff]
  omega

/-! ### What a flush emits -/

/-- A flush emits its segments behind what has been emitted. -/
theorem emitted_flush (self : KcpEngine) (clk : Clock) :
    (self.flush clk).1.emitted = self.emitted ++ (self.emissions clk).flatMap KcpSegment.bytes := by
  have hlost : (self.flush_lost clk).emitted = self.emitted ++ (self.emissions clk).flatMap KcpSegment.bytes := by
    obtain ⟨stats, hscan⟩ := self.scanned_ready_eq clk.now
    rw [flush_lost, emitted_with_output, hscan]
    rfl
  rw [flush_eq]
  split
  · exact hlost
  · have hreport : ∀ e : KcpEngine, e.update_congestion_control.emitted = e.emitted := fun _ => rfl
    unfold flush_done
    dsimp only
    rw [hreport, emitted_flush_out_buf, update_congestion_on_loss_eq, ← hlost]
    rfl

theorem upto_dead_eq_nil_iff (dead_link : U32) {segments : List KcpSegment} :
    upto_dead dead_link segments = [] ↔ segments = [] := by
  cases segments with
  | nil => simp [upto_dead]
  | cons segment rest =>
    unfold upto_dead
    split <;> simp

/-- A flush puts no data on the wire exactly when nothing in the buffer is due and the
window admits nothing from the queue. -/
theorem due_ready_eq_nil_iff (self : KcpEngine) (current : Timestamp) :
    (self.ready current).due current = [] ↔
      (∀ segment ∈ self.snd_buf, mark_of current self.resend_threshold segment = .hold) ∧ self.admitted = 0 := by
  have hresend : (self.ready current).resend_threshold = self.resend_threshold := by rw [ready_eq]; rfl
  unfold due picked
  rw [hresend, List.map_eq_nil_iff, List.filter_eq_nil_iff]
  simp only [decide_eq_true_eq, not_not]
  constructor
  · intro h
    refine ⟨fun segment hmem => h segment (mem_ready.mpr (.inl hmem)), ?_⟩
    rw [← self.numbered_eq_nil_iff current, List.eq_nil_iff_forall_not_mem]
    intro segment hmem
    have hhold := h segment (mem_ready.mpr (.inr hmem))
    rw [self.mark_numbered current current _ _ _ segment hmem] at hhold
    cases hhold
  · rintro ⟨hbuf, hadmitted⟩ segment hmem
    rcases mem_ready.mp hmem with hmem | hmem
    · exact hbuf segment hmem
    · rw [(self.numbered_eq_nil_iff current).mpr hadmitted] at hmem
      cases hmem

end kcp_core.engine.KcpEngine
