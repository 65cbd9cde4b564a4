import Kcp.Engine.Pacing
import Kcp.Engine.Sender

/-! The counters of the statistics that the peer and the clock keep low, however often the engine is called. -/

open kcp_core.protocol kcp_core.config kcp_core.error

namespace kcp_core.engine

/-- How many segments a run numbers. -/
def Start.numbers (start : Start) (ops : List Op) : Nat :=
  Trace.total KcpEngine.step KcpEngine.numbers start.fresh ops

def Op.is_input : Op → Bool
  | .input _ _ => true
  | _ => false

namespace KcpEngine

/-! ### Input -/

/-- What `input` adds to the counters. -/
structure InputCounters (before after : KcpStats) : Prop where
  bytes_sent : after.bytes_sent = before.bytes_sent
  bytes_received : after.bytes_received = before.bytes_received
  packets_sent : after.packets_sent = before.packets_sent
  packets_received : after.packets_received ≤ before.packets_received + 1
  retransmissions : after.retransmissions = before.retransmissions
  fast_retransmissions : after.fast_retransmissions = before.fast_retransmissions

/-- An ACK touches the round-trip times in the statistics, not the counters. -/
theorem input_ack_counters (e : KcpEngine) (current : Timestamp) (segment : KcpSegment) : ∃ rtt rtt_var rto,
    (e.input_ack current segment).stats = { e.stats with rtt, rtt_var, rto } := by
  unfold input_ack
  dsimp only
  split
  · obtain ⟨avg, var, rto, hrtt⟩ := update_ack_shape e (time_diff current segment.header.ts)
    obtain ⟨buf, hack, _⟩ := parse_ack_shape (e.update_ack (time_diff current segment.header.ts)) segment.header.sn
    rw [hack, hrtt]
    exact ⟨_, _, _, rfl⟩
  · obtain ⟨buf, hack, _⟩ := parse_ack_shape e segment.header.sn
    rw [hack]
    exact ⟨_, _, _, rfl⟩

/-- The loop over the segments counts nothing. -/
theorem input_loop_counters (e : KcpEngine) (current : Timestamp) (data : Bytes) : ∃ rtt rtt_var rto,
    (e.input_loop current data).1.stats = { e.stats with rtt, rtt_var, rto } := by
  apply input_loop_rule (P := fun after => ∃ rtt rtt_var rto, after.stats = { e.stats with rtt, rtt_var, rto })
  · intro segment _ acc hacc
    refine input_segment_rule (P := fun after => ∃ rtt rtt_var rto, after.stats = { e.stats with rtt, rtt_var, rto })
      ?_ ?_ ?_ ?_ ?_ acc hacc
    · exact fun _ _ h => h
    · exact fun _ h => h
    · rintro _ inner ⟨_, _, _, h⟩
      obtain ⟨rtt, rtt_var, rto, heq⟩ := inner.input_ack_counters current segment
      rw [heq, h]
      exact ⟨rtt, rtt_var, rto, rfl⟩
    · intro _ inner h
      obtain ⟨queue, buf, nxt, acks, heq⟩ := input_push_shape inner segment
      rw [heq]
      exact h
    · exact fun _ h => h
  · exact ⟨_, _, _, rfl⟩

/-- A datagram counts as one packet at most, and raises no other counter. -/
theorem input_counters (e : KcpEngine) (current : Timestamp) (data : Bytes) :
    InputCounters e.stats (e.input current data).1.stats := by
  by_cases hshort : data.length < KcpHeader.SIZE
  · rw [input_short hshort]
    exact ⟨rfl, rfl, rfl, Nat.le_succ _, rfl, rfl⟩
  · obtain ⟨rtt, rtt_var, rto, hloop⟩ := e.input_loop_counters current data
    have hcount : (e.input current data).1.stats =
        { e.stats with rtt, rtt_var, rto, packets_received := e.stats.packets_received + 1 } := by
      rw [input_eq hshort]
      unfold input_finish
      dsimp only
      obtain ⟨cwnd, incr, hcwnd⟩ := update_cwnd_shape (if (e.input_loop current data).2.flag then
        (e.input_loop current data).1.shrink_buf.parse_fastack (e.input_loop current data).2.max_ack
          (e.input_loop current data).2.latest_ts
        else (e.input_loop current data).1.shrink_buf) e.snd_una
      rw [hcwnd, shrink_buf_eq]
      dsimp only
      split
      · obtain ⟨buf, hfast, _⟩ := counted_parse_fastack { (e.input_loop current data).1 with
          snd_una := ((e.input_loop current data).1.snd_buf.map fun s => s.header.sn).headD
            (e.input_loop current data).1.snd_nxt } (e.input_loop current data).2.max_ack
          (e.input_loop current data).2.latest_ts
        rw [hfast]
        dsimp only
        rw [hloop]
      · rw [hloop]
    rw [hcount]
    exact ⟨rfl, rfl, rfl, le_rfl, rfl, rfl⟩

/-- Datagrams are counted one by one. -/
theorem packets_received_step (e : KcpEngine) (op : Op) :
    (e.step op).stats.packets_received ≤ e.stats.packets_received + if op.is_input then 1 else 0 := by
  have hkeep : e.stats.packets_received ≤ e.stats.packets_received + if op.is_input then 1 else 0 := Nat.le_add_right _ _
  apply step_rule (P := fun after => after.stats.packets_received ≤ _) op
  · intro clk data _
    obtain ⟨queue, sent, heq⟩ := e.send_shape clk data
    rw [heq]
    exact hkeep
  · intro _
    obtain ⟨queue, buf, nxt, flags, received, heq⟩ := e.recv_shape
    rw [heq]
    exact hkeep
  · intro now data hop
    rw [hop]
    exact (e.input_counters now data).packets_received
  · intro last flags clk _
    have hcount := flush_counters { e with last_update := last, probe := { e.probe with flags } } clk
    rw [hcount.packets_received]
    exact hkeep
  · exact fun _ => hkeep
  · exact hkeep
  · exact fun _ => hkeep

/-! ### Bytes received -/

/-- A queue of short segments bounds the bytes in it. -/
theorem length_payload_le {queue : List KcpSegment} (h : ∀ s ∈ queue, Short s) :
    (payload queue).length ≤ 65511 * queue.length := by
  induction queue with
  | nil => exact Nat.zero_le _
  | cons segment rest ih =>
    have hfirst : segment.data.length ≤ 65511 := h segment List.mem_cons_self
    have hrest := ih fun s hs => h s (List.mem_cons_of_mem _ hs)
    rw [payload_cons, List.length_append, List.length_cons, Nat.mul_succ]
    omega

/-- Only `recv` counts bytes received. -/
theorem bytes_received_other (e : KcpEngine) {op : Op} (h : op ≠ .recv) :
    (e.step op).stats.bytes_received = e.stats.bytes_received := by
  apply step_rule (P := fun after => after.stats.bytes_received = e.stats.bytes_received) op
  · intro clk data _
    obtain ⟨queue, sent, heq⟩ := e.send_shape clk data
    rw [heq]
  · exact fun hop => absurd hop h
  · exact fun now data _ => (e.input_counters now data).bytes_received
  · exact fun last flags clk _ =>
      (flush_counters { e with last_update := last, probe := { e.probe with flags } } clk).bytes_received
  · exact fun _ => rfl
  · rfl
  · exact fun _ => rfl

/-- The bytes received, with those that the queue may still hold, come with the segments accepted. -/
theorem bytes_received_le_step {e : KcpEngine} {n : Nat} (h : RecvCount n e) (hwnd : e.wnd.rcv.toNat ≤ 65535)
    (hpos : 0 < e.wnd.rcv.toNat) (hshort : ∀ s ∈ e.rcv_queue, Short s) (op : Op)
    (hbytes : e.stats.bytes_received + 65511 * e.rcv_queue.length ≤ 65511 * n) :
    (e.step op).stats.bytes_received + 65511 * (e.step op).rcv_queue.length ≤ 65511 * (n + e.accepts op) := by
  unfold accepts
  by_cases hrecv : op = .recv
  · subst hrecv
    obtain ⟨k, m, hmoved, hcount⟩ := moved_recv h hwnd
    have htake : ∀ s ∈ e.rcv_queue.take k, Short s := fun s hs => hshort s (List.mem_of_mem_take hs)
    have hlen := length_payload_le htake
    have htaken := hmoved.taken
    have hgrown := hmoved.grown
    rw [List.length_take_of_le htaken] at hlen
    change e.recv.1.stats.bytes_received + 65511 * e.recv.1.rcv_queue.length ≤
      65511 * (n + Serial.offset e.rcv_nxt e.recv.1.rcv_nxt)
    rw [hmoved.accepted h.nxt, hcount]
    omega
  · obtain ⟨k, m, hmoved, hzero⟩ := moved_step h hwnd hpos op
    have hgrown := hmoved.grown
    rw [hmoved.accepted h.nxt, e.bytes_received_other hrecv]
    have hnone := hzero hrecv
    omega

/-! ### Retransmissions -/

/-- How often the segments in flight may still be sent, were none sent more than `limit` times. -/
def spare (limit : Nat) (buf : List KcpSegment) : Nat := (buf.map fun s => limit - s.xmit.toNat).sum

/-- The retransmissions counted. -/
def resent (e : KcpEngine) : Nat := e.stats.retransmissions + e.stats.fast_retransmissions

/-- The tries left in two buffers. -/
theorem spare_append (limit : Nat) (first second : List KcpSegment) :
    spare limit (first ++ second) = spare limit first + spare limit second := by
  unfold spare
  rw [List.map_append, List.sum_append]

/-- A segment that is removed takes its tries with it. -/
theorem spare_sublist {limit : Nat} {kept buf : List KcpSegment} (h : kept.Sublist buf) :
    spare limit kept ≤ spare limit buf := by
  induction h with
  | slnil => exact le_rfl
  | cons segment _ ih => exact ih.trans (Nat.le_add_left _ _)
  | cons_cons segment _ ih => exact Nat.add_le_add_left ih _

/-- A segment not yet sent has all its tries. -/
theorem spare_fresh {limit : Nat} {buf : List KcpSegment} (h : ∀ s ∈ buf, s.xmit = 0) : spare limit buf = limit * buf.length := by
  have hfull : ∀ s ∈ buf, limit - s.xmit.toNat = limit := by
    intro s hs
    rw [h s hs]
    rfl
  unfold spare
  rw [List.map_congr_left hfull, List.map_const', List.sum_replicate_nat, Nat.mul_comm]

/-- A retransmission takes one of the tries to spare. -/
theorem spare_mark_segment {limit : Nat} (e : KcpEngine) (current : Timestamp) (resend rtomin : U32) (hlimit : limit + 1 < 2 ^ 32)
    (buf : List KcpSegment) (hbefore : ∀ s ∈ buf, s.xmit.toNat ≤ limit)
    (hafter : ∀ s ∈ buf, (e.mark_segment current resend rtomin s).xmit.toNat ≤ limit) :
    (buf.map (mark_of current resend)).count .timeout + (buf.map (mark_of current resend)).count .fast +
      spare limit (buf.map (e.mark_segment current resend rtomin)) ≤ spare limit buf := by
  induction buf with
  | nil => exact le_rfl
  | cons s rest ih =>
    have hrest := ih (fun s hs => hbefore s (List.mem_cons_of_mem _ hs)) fun s hs => hafter s (List.mem_cons_of_mem _ hs)
    have hlow := hbefore s List.mem_cons_self
    have hhigh := hafter s List.mem_cons_self
    have hmark := e.xmit_mark_segment current resend rtomin s
    have hsum : ((s.xmit + 1 : U32)).toNat = s.xmit.toNat + 1 := Word.toNat_add_of_lt (by change s.xmit.toNat + 1 < 2 ^ 32; omega)
    unfold spare at hrest ⊢
    rw [List.map_cons, List.map_cons, List.map_cons, List.map_cons, List.sum_cons, List.sum_cons, List.count_cons, List.count_cons]
    cases hcase : mark_of current resend s with
    | hold =>
      rw [if_pos hcase] at hmark
      rw [hmark]
      simp only [reduceCtorEq, beq_iff_eq, if_false]
      omega
    | first =>
      rw [if_neg (by rw [hcase]; decide)] at hmark
      rw [hmark, hsum] at hhigh ⊢
      simp only [reduceCtorEq, beq_iff_eq, if_false]
      omega
    | timeout =>
      rw [if_neg (by rw [hcase]; decide)] at hmark
      rw [hmark, hsum] at hhigh ⊢
      simp only [reduceCtorEq, beq_iff_eq, if_false, if_true]
      omega
    | fast =>
      rw [if_neg (by rw [hcase]; decide)] at hmark
      rw [hmark, hsum] at hhigh ⊢
      simp only [reduceCtorEq, beq_iff_eq, if_false, if_true]
      omega

/-- Each retransmission of a flush uses a try, and each new segment brings its own. -/
theorem resent_flush {limit : Nat} {e : KcpEngine} (hlimit : limit + 1 < 2 ^ 32) (hwindow : SendWindow e)
    (hsnd : e.wnd.snd.toNat ≤ 65535) (clk : Clock) (hbefore : ∀ s ∈ e.snd_buf, s.xmit.toNat ≤ limit)
    (hafter : ∀ s ∈ (e.flush clk).1.snd_buf, s.xmit.toNat ≤ limit) :
    (e.flush clk).1.resent + spare limit (e.flush clk).1.snd_buf ≤
      e.resent + spare limit e.snd_buf + limit * Serial.offset e.snd_nxt (e.flush clk).1.snd_nxt := by
  have hcount := e.flush_counters clk
  have hfew := admitted_lt hwindow hsnd
  have hnew := e.xmit_numbered clk.now e.snd_nxt (e.snd_queue.take e.admitted)
  have hready : (e.ready clk.now).snd_buf =
      e.snd_buf ++ e.numbered clk.now e.snd_nxt (e.snd_queue.take e.admitted) := by rw [ready_eq]
  have hresend : (e.ready clk.now).resend_threshold = e.resend_threshold := by
    rw [ready_eq]
    rfl
  have hbuf : (e.flush clk).1.snd_buf = e.flushed_buf clk.now := by
    obtain ⟨queue, buf, stats, heq⟩ := e.flush_shape clk
    rw [heq]
  have hnxt : Serial.offset e.snd_nxt (e.flush clk).1.snd_nxt = e.admitted := by
    obtain ⟨queue, buf, stats, heq⟩ := e.flush_shape clk
    rw [heq]
    dsimp only
    rw [Serial.offset_add (by rw [Serial.offset_self]; omega), Serial.offset_self, Nat.zero_add]
  -- the segments just numbered bring all their tries with them
  have hscan := e.spare_mark_segment clk.now e.resend_threshold e.rto_margin hlimit
    (e.snd_buf ++ e.numbered clk.now e.snd_nxt (e.snd_queue.take e.admitted))
    (fun s hs => by
      rcases List.mem_append.mp hs with hs | hs
      · exact hbefore s hs
      · rw [hnew s hs]
        exact Nat.zero_le _)
    (fun s hs => hafter _ (by rw [hbuf]; exact List.mem_map_of_mem hs))
  rw [spare_append, spare_fresh hnew, length_numbered, List.length_take_of_le e.admitted_le] at hscan
  unfold resent
  rw [hnxt, hbuf, hcount.retransmissions, hcount.fast_retransmissions]
  unfold timeouts fasts
  rw [hready, hresend]
  unfold flushed_buf
  omega

/-- No call retransmits for nothing. -/
theorem resent_step {limit : Nat} {e : KcpEngine} (hlimit : limit + 1 < 2 ^ 32) (hwindow : SendWindow e)
    (hsnd : e.wnd.snd.toNat ≤ 65535) (op : Op) (hbefore : ∀ s ∈ e.snd_buf, s.xmit.toNat ≤ limit)
    (hafter : ∀ s ∈ (e.step op).snd_buf, s.xmit.toNat ≤ limit) :
    (e.step op).resent + spare limit (e.step op).snd_buf ≤ e.resent + spare limit e.snd_buf + limit * e.numbers op := by
  revert hafter
  unfold numbers
  apply step_rule (P := fun after => (∀ s ∈ after.snd_buf, s.xmit.toNat ≤ limit) → after.resent + spare limit after.snd_buf ≤
    e.resent + spare limit e.snd_buf + limit * Serial.offset e.snd_nxt after.snd_nxt) op
  · intro clk data _ _
    obtain ⟨queue, sent, heq⟩ := e.send_shape clk data
    rw [heq]
    exact Nat.le_add_right _ _
  · intro _ _
    obtain ⟨queue, buf, nxt, flags, received, heq⟩ := e.recv_shape
    rw [heq]
    exact Nat.le_add_right _ _
  · intro now data _ _
    have hcount := e.input_counters now data
    obtain ⟨kept, hsub, hcounted, _⟩ := e.input_snd_buf now data
    have hsame : spare limit (e.input now data).1.snd_buf = spare limit kept :=
      congrArg List.sum (forall₂_counted_map (fun _ _ => rfl) hcounted)
    have hle : spare limit kept ≤ spare limit e.snd_buf := spare_sublist hsub
    unfold resent
    rw [hcount.retransmissions, hcount.fast_retransmissions, hsame]
    omega
  · intro last flags clk _ hafter
    have hwin : SendWindow { e with last_update := last, probe := { e.probe with flags } } := hwindow.congr rfl rfl rfl rfl
    exact resent_flush hlimit hwin hsnd clk hbefore hafter
  · exact fun _ _ => Nat.le_add_right _ _
  · exact fun _ => Nat.le_add_right _ _
  · exact fun _ _ => Nat.le_add_right _ _

end KcpEngine

/-! ### Runs -/

/-- Over a run no more datagrams are counted than came in. -/
theorem Start.packets_received_le (start : Start) (ops : List Op) :
    (start.reached ops).stats.packets_received ≤ ops.countP Op.is_input := by
  apply Trace.invariant (P := fun ops (e : KcpEngine) => e.stats.packets_received ≤ ops.countP Op.is_input)
  · exact le_rfl
  · intro ops op h
    have hstep := KcpEngine.packets_received_step (Trace.run KcpEngine.step start.fresh ops) op
    rw [List.countP_append, List.countP_singleton]
    exact hstep.trans (Nat.add_le_add_right h _)

/-- Nor more bytes than the segments accepted can carry. -/
theorem Start.bytes_received_le (start : Start) (ops : List Op) (h : ∀ op ∈ ops, op.Datagram) :
    (start.reached ops).stats.bytes_received + 65511 * (start.reached ops).rcv_queue.length ≤ 65511 * start.accepts ops := by
  revert h
  apply Trace.invariant (P := fun (ops : List Op) (e : KcpEngine) => (∀ op ∈ ops, op.Datagram) →
    e.stats.bytes_received + 65511 * e.rcv_queue.length ≤ 65511 * start.accepts ops)
  · exact fun _ => le_rfl
  · intro ops op ih h
    have hbefore : ∀ op ∈ ops, op.Datagram := fun o ho => h o (List.mem_append_left _ ho)
    have hstep := KcpEngine.bytes_received_le_step (start.recvCount ops) (start.rcv_le ops) (start.rcv_pos ops)
      (start.settled ops hbefore).1.queue op (ih hbefore)
    simpa [Start.accepts, Start.reached] using hstep

/-- And no more retransmissions than each segment numbered can have had by the clock. -/
theorem Start.resent_le (start : Start) (hmode : start.config.nodelay.IsPreset) (ops : List Op) (h : Ordered ops) :
    (start.reached ops).resent + KcpEngine.spare (2 ^ 30 + 6) (start.reached ops).snd_buf ≤
      (2 ^ 30 + 6) * start.numbers ops := by
  have hpaced : ∀ ops, Ordered ops → ∀ s ∈ (start.reached ops).snd_buf, s.xmit.toNat ≤ 2 ^ 30 + 6 := by
    intro ops hordered s hs
    obtain ⟨sent, _, hsent, _, _, _, _, _, hxmit⟩ :=
      (start.timed hmode ops hordered (2 ^ 30) fun t ht => (hordered.early t ht).le).paced s hs
    omega
  revert h
  apply Trace.invariant (P := fun ops (e : KcpEngine) => Ordered ops →
    e.resent + KcpEngine.spare (2 ^ 30 + 6) e.snd_buf ≤ (2 ^ 30 + 6) * start.numbers ops)
  · exact fun _ => le_rfl
  · intro ops op ih h
    have hbefore := h.concat.1
    have hafter : ∀ s ∈ ((start.reached ops).step op).snd_buf, s.xmit.toNat ≤ 2 ^ 30 + 6 := by
      rw [← Start.reached_concat]
      exact hpaced _ h
    have hstep := KcpEngine.resent_step (by decide) (start.sendWindow ops) (start.snd_le ops) op (hpaced ops hbefore) hafter
    have hsum := ih hbefore
    have hnumbers : start.numbers (ops ++ [op]) = start.numbers ops + (start.reached ops).numbers op := Trace.total_concat ..
    rw [hnumbers, Nat.mul_add]
    exact hstep.trans (Nat.add_le_add_right hsum _)

end kcp_core.engine
