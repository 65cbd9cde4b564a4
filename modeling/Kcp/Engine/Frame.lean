import Kcp.Engine.Step
import Kcp.Engine.FlushShape

open kcp_core.protocol kcp_core.config kcp_core.error

namespace kcp_core.engine.KcpEngine

/-! ### Refill -/

/-- One turn of the refill loop: the next segment in order leaves the reorder buffer. -/
def refill (self : KcpEngine) (segment : KcpSegment) : KcpEngine :=
  { self with
    rcv_buf := self.rcv_buf.erase self.rcv_nxt
    rcv_queue := self.rcv_queue ++ [segment]
    rcv_nxt := self.rcv_nxt + 1 }

/-- Without the next segment the loop stops. -/
theorem move_to_recv_queue_loop_none {self : KcpEngine} (fuel : Nat)
    (h : self.rcv_buf.lookup self.rcv_nxt = none) : move_to_recv_queue_loop fuel self = self := by
  cases fuel with
  | zero => rfl
  | succ fuel => unfold move_to_recv_queue_loop; rw [h]

/-- With a full queue it stops. -/
theorem move_to_recv_queue_loop_full {self : KcpEngine} (fuel : Nat)
    (h : self.wnd.rcv.toNat ≤ self.rcv_queue.length) : move_to_recv_queue_loop fuel self = self := by
  cases fuel with
  | zero => rfl
  | succ fuel =>
    unfold move_to_recv_queue_loop
    split
    · rfl
    · rw [if_pos h]

/-- With the next segment at hand and room in the queue, the loop moves it. -/
theorem move_to_recv_queue_loop_refill {self : KcpEngine} {segment : KcpSegment} (fuel : Nat)
    (hnext : self.rcv_buf.lookup self.rcv_nxt = some segment)
    (hroom : self.rcv_queue.length < self.wnd.rcv.toNat) :
    move_to_recv_queue_loop (fuel + 1) self = move_to_recv_queue_loop fuel (self.refill segment) := by
  rw [move_to_recv_queue_loop, hnext]
  exact if_neg (by omega)

/-- What each turn of the refill loop preserves, the whole loop preserves. -/
theorem move_to_recv_queue_rule {P : KcpEngine → Prop} {self : KcpEngine}
    (hstep : ∀ e segment, P e → e.rcv_buf.lookup e.rcv_nxt = some segment →
      e.rcv_queue.length < e.wnd.rcv.toNat → P (e.refill segment))
    (h : P self) : P self.move_to_recv_queue := by
  have hloop : ∀ fuel e, P e → P (move_to_recv_queue_loop fuel e) := by
    intro fuel
    induction fuel with
    | zero => intro e he; exact he
    | succ fuel ih =>
      intro e he
      cases hnext : e.rcv_buf.lookup e.rcv_nxt with
      | none => rwa [move_to_recv_queue_loop_none _ hnext]
      | some segment =>
        by_cases hfull : e.wnd.rcv.toNat ≤ e.rcv_queue.length
        · rwa [move_to_recv_queue_loop_full _ hfull]
        · rw [move_to_recv_queue_loop_refill _ hnext (by omega)]
          exact ih _ (hstep e segment he hnext (by omega))
  exact hloop _ _ h

/-- A segment less in the buffer. -/
theorem length_erase_lt {buf : RecvBuf} {k : SeqNum} {segment : KcpSegment} (h : buf.lookup k = some segment) :
    (buf.erase k).entries.length + 1 = buf.entries.length := by
  have hmem : k ∈ buf.keys := by
    rw [← AList.mem_keys, ← AList.lookup_isSome, h]
    rfl
  have hkeys := congrArg List.length (AList.keys_erase k buf)
  rw [List.length_erase_of_mem hmem] at hkeys
  simp only [AList.keys, List.keys, List.length_map] at hkeys
  have hpos : 0 < buf.entries.length := by
    have := List.length_pos_of_mem hmem
    simpa [AList.keys, List.keys] using this
  omega

/-- The refill loop stops only when the next segment is missing or the queue is full. -/
theorem move_to_recv_queue_exit (self : KcpEngine) :
    self.move_to_recv_queue.rcv_buf.lookup self.move_to_recv_queue.rcv_nxt = none ∨
      self.move_to_recv_queue.wnd.rcv.toNat ≤ self.move_to_recv_queue.rcv_queue.length := by
  have hloop : ∀ fuel e, e.rcv_buf.entries.length ≤ fuel →
      (move_to_recv_queue_loop fuel e).rcv_buf.lookup (move_to_recv_queue_loop fuel e).rcv_nxt = none ∨
        (move_to_recv_queue_loop fuel e).wnd.rcv.toNat ≤ (move_to_recv_queue_loop fuel e).rcv_queue.length := by
    intro fuel
    induction fuel with
    | zero =>
      intro e hfuel
      have hempty : e.rcv_buf = ∅ := AList.ext (List.length_eq_zero_iff.mp (by omega))
      left
      simp [move_to_recv_queue_loop, hempty]
    | succ fuel ih =>
      intro e hfuel
      cases hnext : e.rcv_buf.lookup e.rcv_nxt with
      | none =>
        rw [move_to_recv_queue_loop_none _ hnext]
        exact .inl hnext
      | some segment =>
        by_cases hfull : e.wnd.rcv.toNat ≤ e.rcv_queue.length
        · rw [move_to_recv_queue_loop_full _ hfull]
          exact .inr hfull
        · have herase := length_erase_lt hnext
          rw [move_to_recv_queue_loop_refill _ hnext (by omega)]
          exact ih _ (by simp only [refill]; omega)
  exact hloop _ _ le_rfl

theorem move_to_recv_queue_shape (self : KcpEngine) : ∃ queue buf nxt,
    self.move_to_recv_queue = { self with rcv_queue := queue, rcv_buf := buf, rcv_nxt := nxt } := by
  apply move_to_recv_queue_rule (P := fun e => ∃ queue buf nxt,
    e = { self with rcv_queue := queue, rcv_buf := buf, rcv_nxt := nxt })
  · rintro e segment ⟨queue, buf, nxt, rfl⟩ _ _
    exact ⟨_, _, _, rfl⟩
  · exact ⟨_, _, _, rfl⟩

theorem parse_data_shape (self : KcpEngine) (segment : KcpSegment) : ∃ queue buf nxt,
    self.parse_data segment = { self with rcv_queue := queue, rcv_buf := buf, rcv_nxt := nxt } := by
  unfold parse_data
  simp only
  split
  · exact ⟨_, _, _, rfl⟩
  · obtain ⟨queue, buf, nxt, h⟩ := move_to_recv_queue_shape { self with
      rcv_buf := if segment.header.sn ∈ self.rcv_buf then self.rcv_buf
        else self.rcv_buf.insert segment.header.sn segment }
    exact ⟨queue, buf, nxt, h⟩

theorem input_push_shape (self : KcpEngine) (segment : KcpSegment) : ∃ queue buf nxt acks,
    self.input_push segment =
      { self with rcv_queue := queue, rcv_buf := buf, rcv_nxt := nxt, ack_list := acks } := by
  unfold input_push
  split
  · simp only
    split
    · obtain ⟨queue, buf, nxt, h⟩ := parse_data_shape
        (self.ack_push segment.header.sn segment.header.ts) segment
      exact ⟨queue, buf, nxt, _, h⟩
    · exact ⟨_, _, _, _, rfl⟩
  · exact ⟨_, _, _, _, rfl⟩

/-- `recv` touches the receive side, the probe flags and one counter. -/
theorem recv_shape (self : KcpEngine) : ∃ queue buf nxt flags received,
    self.recv.1 = { self with
      rcv_queue := queue, rcv_buf := buf, rcv_nxt := nxt
      probe := { self.probe with flags }
      stats := { self.stats with bytes_received := received } } := by
  unfold recv
  split
  · exact ⟨_, _, _, _, _, rfl⟩
  · simp only
    split
    · exact ⟨_, _, _, _, _, rfl⟩
    · split
      · exact ⟨_, _, _, _, _, rfl⟩
      · obtain ⟨queue, buf, nxt, h⟩ := move_to_recv_queue_shape { self with
          rcv_queue := (recv_loop self.peek_size.toNat self.rcv_queue []).2
          stats := { self.stats with bytes_received := self.stats.bytes_received +
            (recv_loop self.peek_size.toNat self.rcv_queue []).1.length } }
        rw [h]
        split
        · exact ⟨_, _, _, _, _, rfl⟩
        · exact ⟨_, _, _, _, _, rfl⟩

/-! ### Input -/

/-- An ACK removes a segment of the send buffer at most. -/
theorem parse_ack_shape (self : KcpEngine) (sn : SeqNum) : ∃ buf,
    self.parse_ack sn = { self with snd_buf := buf } ∧ buf.Sublist self.snd_buf := by
  unfold parse_ack
  split
  · exact ⟨_, rfl, List.Sublist.refl _⟩
  · split
    · exact ⟨_, rfl, List.eraseIdx_sublist ..⟩
    · exact ⟨_, rfl, List.Sublist.refl _⟩

/-- A sample touches the estimate alone. -/
theorem update_ack_shape (self : KcpEngine) (rtt : Int) : ∃ avg var rto,
    self.update_ack rtt = { self with
      rtt := { self.rtt with avg, var, rto }
      stats := { self.stats with rtt := avg, rtt_var := var, rto } } := ⟨_, _, _, rfl⟩

/-- An ACK touches the estimate and the send buffer. -/
theorem input_ack_shape (self : KcpEngine) (current : Timestamp) (segment : KcpSegment) :
    ∃ avg var rto stats buf, self.input_ack current segment =
      { self with rtt := { self.rtt with avg, var, rto }, stats, snd_buf := buf } ∧
      buf.Sublist self.snd_buf := by
  unfold input_ack
  split
  · obtain ⟨avg, var, rto, hrtt⟩ := update_ack_shape self (time_diff current segment.header.ts)
    obtain ⟨buf, hack, hsub⟩ := parse_ack_shape
      (self.update_ack (time_diff current segment.header.ts)) segment.header.sn
    rw [hrtt] at hsub
    simp only [hack]
    rw [hrtt]
    exact ⟨avg, var, rto, _, buf, rfl, hsub⟩
  · obtain ⟨buf, hack, hsub⟩ := parse_ack_shape self segment.header.sn
    exact ⟨_, _, _, _, buf, hack, hsub⟩

/-- The handlers a segment of the loop can reach. A property they all preserve is
preserved by the loop body. -/
theorem input_segment_rule {P : KcpEngine → Prop} {current : Timestamp} {segment : KcpSegment}
    (hrmt : ∀ (e : KcpEngine) (wnd : U16), P e → P { e with wnd := { e.wnd with rmt := wnd.setWidth 32 } })
    (huna : ∀ e, P e → P (e.parse_una segment.header.una))
    (hack : segment.header.cmd = constants.IKCP_CMD_ACK → ∀ e, P e → P (e.input_ack current segment))
    (hpush : segment.header.cmd = constants.IKCP_CMD_PUSH → ∀ e, P e → P (e.input_push segment))
    (hwask : ∀ e, P e → P e.input_wask)
    (acc : KcpEngine × AckTrack) (h : P acc.1) : P (input_segment current acc segment).1 := by
  obtain ⟨e, track⟩ := acc
  unfold input_segment
  simp only
  have hopen := huna _ (hrmt e segment.header.wnd h)
  split
  · exact h
  · split
    · exact hack ‹_› _ hopen
    · split
      · exact hpush ‹_› _ hopen
      · split
        · exact hwask _ hopen
        · exact hopen

/-- The state after the segment loop. -/
def input_loop (self : KcpEngine) (current : Timestamp) (data : Bytes) : KcpEngine × AckTrack :=
  (split_segments data).foldl (input_segment current)
    ({ self with last_activity := current }, { flag := false, max_ack := 0, latest_ts := 0 })

/-- What every segment keeps, the loop keeps. -/
theorem input_loop_rule {P : KcpEngine → Prop} {self : KcpEngine} {current : Timestamp} {data : Bytes}
    (hstep : ∀ segment ∈ split_segments data, ∀ acc, P acc.1 → P (input_segment current acc segment).1)
    (h : P { self with last_activity := current }) : P (self.input_loop current data).1 := by
  unfold input_loop
  refine List.foldlRecOn (motive := fun acc : KcpEngine × AckTrack => P acc.1) _ _ h ?_
  intro acc hacc segment hmem
  exact hstep segment hmem acc hacc

/-- The end of `input`, after the segment loop. -/
def input_finish (self : KcpEngine) (prev_una : SeqNum) (track : AckTrack) : KcpEngine :=
  let shrunk := self.shrink_buf
  let counted := if track.flag then shrunk.parse_fastack track.max_ack track.latest_ts else shrunk
  let grown := counted.update_cwnd prev_una
  { grown with stats := { grown.stats with packets_received := grown.stats.packets_received + 1 } }

/-- Less than a header is no datagram. -/
theorem input_short {self : KcpEngine} {current : Timestamp} {data : Bytes}
    (h : data.length < KcpHeader.SIZE) :
    self.input current data =
      ({ self with last_activity := current }, .error (.Protocol "Packet too small")) := by
  unfold input
  rw [if_pos h]

/-- Any other is taken apart, and then the windows are brought up to date. -/
theorem input_eq {self : KcpEngine} {current : Timestamp} {data : Bytes}
    (h : ¬ data.length < KcpHeader.SIZE) :
    self.input current data =
      ((self.input_loop current data).1.input_finish self.snd_una (self.input_loop current data).2, .ok ()) := by
  unfold input
  rw [if_neg h]
  rfl

end kcp_core.engine.KcpEngine
