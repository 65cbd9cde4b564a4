import Kcp.Engine.Checked.Input
import Kcp.Engine.Emission

open kcp_core.protocol kcp_core.config kcp_core.error

namespace kcp_core.engine.checked

open KcpEngine (Mark Paced RttBounds)

/-! ### Packing -/

/-- The datagram being packed is no longer than the MTU, and `room` more segments can be
counted. -/
structure OutRange (room : Nat) (e : KcpEngine) : Prop where
  mtu : e.config.mtu.toNat ≤ 65535
  buf : e.out_buf.length ≤ e.config.mtu.toNat
  sent : e.stats.packets_sent + room < 2 ^ 64

theorem length_pack_le {mtu : Nat} {segments : List KcpSegment} (hsize : ∀ s ∈ segments, s.size ≤ mtu)
    {out : List Bytes × Bytes} (hout : out.2.length ≤ mtu) : (KcpEngine.pack mtu out segments).2.length ≤ mtu := by
  induction segments generalizing out with
  | nil => exact hout
  | cons segment rest ih =>
    have hhead := hsize segment List.mem_cons_self
    apply ih (fun s hs => hsize s (List.mem_cons_of_mem _ hs))
    unfold KcpEngine.pack_one
    split
    · rw [KcpSegment.length_bytes]
      exact hhead
    · rename_i hfits
      rw [List.length_append, KcpSegment.length_bytes]
      by_cases hopen : out.2 = []
      · rw [hopen, List.length_nil]
        omega
      · have hroom : ¬ mtu < out.2.length + segment.size := fun hfull => hfits ⟨hfull, hopen⟩
        omega

/-- What is put out fits the buffers and their counter. -/
theorem OutRange.with_output {room : Nat} {segments : List KcpSegment} {e : KcpEngine}
    (h : OutRange (segments.length + room) e) (hsize : ∀ s ∈ segments, s.size ≤ e.config.mtu.toNat) :
    OutRange room (e.with_output segments) where
  mtu := h.mtu
  buf := length_pack_le hsize h.buf
  sent := by
    have hsent := h.sent
    change e.stats.packets_sent + segments.length + room < 2 ^ 64
    omega

/-- One more segment: the sizes fit a word, and so does the count. -/
theorem output_segment_eq {room : Nat} {e : KcpEngine} (h : OutRange (1 + room) e) (segment : KcpSegment)
    (hsize : segment.size ≤ e.config.mtu.toNat) :
    output_segment e segment = some (e.output_segment segment) ∧ OutRange room (e.output_segment segment) := by
  have hsent := h.sent
  have hmtu := h.mtu
  have hbuf := h.buf
  have hneed : segment_size segment = some segment.size :=
    Checked.add64_eq (show KcpHeader.SIZE + segment.data.length < 2 ^ 64 from by
      change segment.size < 2 ^ 64
      omega)
  have htotal : Checked.add64 e.out_buf.length segment.size = some (e.out_buf.length + segment.size) :=
    Checked.add64_eq (by omega)
  have hcount : Checked.add64 e.stats.packets_sent 1 = some (e.stats.packets_sent + 1) := Checked.add64_eq (by omega)
  constructor
  · unfold output_segment KcpEngine.output_segment
    simp only [hneed, htotal, Option.bind_eq_bind, Option.bind_some]
    split
    · simp only [hcount, Option.bind_some]
      rfl
    · simp only [hcount, Option.bind_some]
      rfl
  · rw [KcpEngine.output_segment_eq]
    have hall : ∀ s ∈ [segment], s.size ≤ e.config.mtu.toNat := by simpa using hsize
    exact OutRange.with_output h hall

/-! ### ACKs and probes -/

/-- The ACKs leave without an overflow. -/
theorem flush_acks_eq {room : Nat} {e : KcpEngine} (h : OutRange (e.ack_list.length + room) e)
    (hmtu : 24 ≤ e.config.mtu.toNat) (clk : Clock) :
    flush_acks e clk = some (e.flush_acks clk) ∧ OutRange room (e.flush_acks clk) := by
  have hfold : ∀ (acks : List (SeqNum × Timestamp)) (e' : KcpEngine), OutRange (acks.length + room) e' →
      24 ≤ e'.config.mtu.toNat →
      acks.foldlM (fun self ack => output_segment self
          (KcpEngine.ack_segment self.conv e.advertised_wnd e.rcv_nxt clk.now ack)) e' =
        some (acks.foldl (fun self ack => self.output_segment
          (KcpEngine.ack_segment self.conv e.advertised_wnd e.rcv_nxt clk.now ack)) e') ∧
      OutRange room (acks.foldl (fun self ack => self.output_segment
          (KcpEngine.ack_segment self.conv e.advertised_wnd e.rcv_nxt clk.now ack)) e') := by
    intro acks
    induction acks with
    | nil =>
      intro e' h' _
      exact ⟨rfl, by simpa using h'⟩
    | cons ack rest ih =>
      intro e' h' hmtu'
      rw [List.length_cons] at h'
      have hroom : OutRange (1 + (rest.length + room)) e' := by
        rw [← Nat.add_assoc, Nat.add_comm 1]
        exact h'
      obtain ⟨hhead, hnext⟩ := output_segment_eq hroom
        (KcpEngine.ack_segment e'.conv e.advertised_wnd e.rcv_nxt clk.now ack) hmtu'
      rw [List.foldlM_cons, List.foldl_cons, hhead]
      apply ih _ hnext
      rw [KcpEngine.output_segment_eq]
      exact hmtu'
  unfold flush_acks KcpEngine.flush_acks
  split
  · rename_i hempty
    rw [List.isEmpty_iff] at hempty
    rw [hempty] at h
    exact ⟨rfl, by simpa using h⟩
  · rw [advertised_wnd_eq]
    exact hfold e.ack_list { e with ack_list := [] } ⟨h.mtu, h.buf, h.sent⟩ hmtu

/-- The probe timer is set without an overflow. -/
theorem probe_timer_eq {e : KcpEngine} (hwait : e.probe.wait.toNat ≤ 120000) {now : Timestamp}
    (hnow : now.toNat < 2 ^ 30) : probe_timer e now = some (e.probe_timer now) := by
  have hinit : now.toNat + constants.IKCP_PROBE_INIT.toNat < 2 ^ 32 := by
    change now.toNat + 7000 < 2 ^ 32
    omega
  obtain ⟨wait, hsame, hlow, hhigh⟩ : ∃ wait : U32,
      (if e.probe.wait < constants.IKCP_PROBE_INIT then constants.IKCP_PROBE_INIT else e.probe.wait) = wait ∧
        7000 ≤ wait.toNat ∧ wait.toNat ≤ 120000 := by
    have hseven : constants.IKCP_PROBE_INIT.toNat = 7000 := rfl
    refine ⟨_, rfl, ?_⟩
    split
    · omega
    · rename_i hge
      rw [BitVec.lt_def] at hge
      omega
  have hhalf : wait.toNat + (wait / 2).toNat < 2 ^ 32 := by
    rw [BitVec.toNat_udiv]
    change wait.toNat + wait.toNat / 2 < 2 ^ 32
    omega
  obtain ⟨next, hnext, hnextle⟩ : ∃ next : U32,
      (if constants.IKCP_PROBE_LIMIT < wait + wait / 2 then constants.IKCP_PROBE_LIMIT else wait + wait / 2) = next ∧
        next.toNat ≤ 120000 := by
    have hlimit : constants.IKCP_PROBE_LIMIT.toNat = 120000 := rfl
    refine ⟨_, rfl, ?_⟩
    split
    · omega
    · rename_i hge
      rw [BitVec.lt_def] at hge
      omega
  have hdue : now.toNat + next.toNat < 2 ^ 32 := by omega
  unfold probe_timer KcpEngine.probe_timer
  simp only [hsame, hnext, Checked.add_eq hinit, Checked.add_eq hhalf, Checked.add_eq hdue, Option.bind_eq_bind,
    Option.bind_some, Option.pure_def]
  split
  · split
    · rfl
    · split
      · rfl
      · rfl
  · rfl

theorem create_probe_segment_eq (e : KcpEngine) (cmd : U8) (stamp : Timestamp) :
    create_probe_segment e cmd stamp = some (e.create_probe_segment cmd stamp) := by
  unfold create_probe_segment
  rw [advertised_wnd_eq]
  rfl

theorem output_if_eq {room : Nat} {c : Prop} [Decidable c] {e : KcpEngine}
    (h : OutRange ((if c then 1 else 0) + room) e) (segment : KcpSegment) (hsize : segment.size ≤ e.config.mtu.toNat) :
    (if c then output_segment e segment else some e) = some (if c then e.output_segment segment else e) ∧
      OutRange room (if c then e.output_segment segment else e) := by
  split
  · rename_i hc
    rw [if_pos hc] at h
    exact output_segment_eq h segment hsize
  · rename_i hc
    rw [if_neg hc, Nat.zero_add] at h
    exact ⟨rfl, h⟩

/-- The probes leave without an overflow. -/
theorem handle_window_probe_eq {room : Nat} {e : KcpEngine} {clk : Clock}
    (h : OutRange ((e.probes_out clk).length + room) e) (hmtu : 24 ≤ e.config.mtu.toNat)
    (hwait : e.probe.wait.toNat ≤ 120000) (hnow : clk.now.toNat < 2 ^ 30) :
    handle_window_probe e clk = some (e.handle_window_probe clk) ∧ OutRange room (e.handle_window_probe clk) := by
  have hlength : (e.probes_out clk).length =
      (if (e.probe_timer clk.now).flags &&& constants.IKCP_ASK_SEND ≠ 0 then 1 else 0) +
        if (e.probe_timer clk.now).flags &&& constants.IKCP_ASK_TELL ≠ 0 then 1 else 0 := by
    unfold KcpEngine.probes_out
    rw [List.length_append]
    congr 1
    · split
      · rfl
      · rfl
    · split
      · rfl
      · rfl
  rw [hlength, Nat.add_assoc] at h
  have hopen : OutRange _ { e with probe := e.probe_timer clk.now } := ⟨h.mtu, h.buf, h.sent⟩
  obtain ⟨hask, hasked⟩ := output_if_eq hopen
    (KcpEngine.create_probe_segment { e with probe := e.probe_timer clk.now } constants.IKCP_CMD_WASK (clk.hdr 0)) hmtu
  obtain ⟨asked, heq, hflags, hconfig⟩ : ∃ asked : KcpEngine,
      (if (e.probe_timer clk.now).flags &&& constants.IKCP_ASK_SEND ≠ 0 then
        { e with probe := e.probe_timer clk.now }.output_segment
          ({ e with probe := e.probe_timer clk.now }.create_probe_segment constants.IKCP_CMD_WASK (clk.hdr 0))
        else { e with probe := e.probe_timer clk.now }) = asked ∧
      asked.probe.flags = (e.probe_timer clk.now).flags ∧ asked.config = e.config := by
    refine ⟨_, rfl, ?_, ?_⟩
    · split
      · rw [KcpEngine.output_segment_eq]
        rfl
      · rfl
    · split
      · rw [KcpEngine.output_segment_eq]
        rfl
      · rfl
  rw [heq] at hask hasked
  rw [← hflags] at hasked
  obtain ⟨htell, htold⟩ := output_if_eq hasked
    (asked.create_probe_segment constants.IKCP_CMD_WINS (clk.hdr 1)) (by rw [hconfig]; exact hmtu)
  unfold handle_window_probe KcpEngine.handle_window_probe
  simp only [probe_timer_eq hwait hnow, create_probe_segment_eq, Option.bind_eq_bind, Option.bind_some, heq, hask, htell,
    Option.pure_def]
  exact ⟨trivial, htold.mtu, htold.buf, htold.sent⟩

/-! ### Admission -/

theorem number_segment_eq (e : KcpEngine) (current : Timestamp) (segment : KcpSegment) :
    number_segment e current segment = some (e.number_segment current segment) := by
  unfold number_segment
  rw [advertised_wnd_eq]
  rfl

/-- The window has an end, and the numbers handed out up to it fit a word. -/
theorem move_to_send_buf_loop_eq (current : Timestamp) {cwnd : U32} {queue : List KcpSegment} {e : KcpEngine}
    (hlimit : e.snd_una.toNat + cwnd.toNat < 2 ^ 32)
    (hnxt : e.snd_nxt.toNat + KcpEngine.admit_count (e.snd_una + cwnd) e.snd_nxt queue < 2 ^ 32) :
    move_to_send_buf_loop current cwnd queue e = some (KcpEngine.move_to_send_buf_loop current cwnd queue e) := by
  induction queue generalizing e with
  | nil =>
    unfold move_to_send_buf_loop
    rw [Checked.add_eq hlimit]
    rfl
  | cons segment queue ih =>
    unfold move_to_send_buf_loop KcpEngine.move_to_send_buf_loop
    unfold KcpEngine.admit_count at hnxt
    simp only [Checked.add_eq hlimit, number_segment_eq, Option.bind_eq_bind, Option.bind_some]
    split
    · rename_i hroom
      rw [if_pos hroom] at hnxt
      have hone : e.snd_nxt.toNat + (1 : U32).toNat < 2 ^ 32 := by
        change e.snd_nxt.toNat + 1 < 2 ^ 32
        omega
      rw [Checked.add_eq hone, Option.bind_some]
      apply ih
      · exact hlimit
      · have hnext : (e.snd_nxt + 1).toNat = e.snd_nxt.toNat + 1 := Word.toNat_add_of_lt hone
        dsimp only
        omega
    · rfl

/-- The numbers given do not overflow. -/
theorem move_to_send_buf_eq {e : KcpEngine} (current : Timestamp)
    (hlimit : e.snd_una.toNat + e.effective_wnd.toNat < 2 ^ 32) (hnxt : e.snd_nxt.toNat + e.admitted < 2 ^ 32) :
    move_to_send_buf e current = some (e.move_to_send_buf current) := move_to_send_buf_loop_eq current hlimit hnxt

/-! ### The scan -/

section

variable {current : Timestamp} {resend : U32} {segment : KcpSegment}

theorem sent_of_mark (h : KcpEngine.mark_of current resend segment ≠ .first) : segment.xmit ≠ 0 := by
  intro hzero
  apply h
  unfold KcpEngine.mark_of
  rw [if_pos hzero]

theorem late_of_mark (h : KcpEngine.mark_of current resend segment = .timeout) :
    0 ≤ time_diff current segment.resendts := by
  unfold KcpEngine.mark_of at h
  split_ifs at h with _ hlate
  exact hlate

theorem skipped_of_mark (h : KcpEngine.mark_of current resend segment = .fast) :
    resend ≤ segment.fastack ∧ segment.xmit.toNat ≤ 5 := by
  unfold KcpEngine.mark_of at h
  split_ifs at h with _ _ hfast
  refine ⟨hfast.1, ?_⟩
  cases hfast.2 with
  | inl hfew => exact hfew
  | inr habsurd => exact absurd habsurd (by decide)

end

/-- The two counters of a scan, after some marks. -/
def count_marks (stats : KcpStats) (marks : List Mark) : KcpStats :=
  { stats with
    retransmissions := stats.retransmissions + marks.count .timeout
    fast_retransmissions := stats.fast_retransmissions + marks.count .fast }

/-- The timeout after one more loss, when the last one has run out. -/
theorem timeout_rto_eq {e : KcpEngine} (hrtt : RttBounds e.rtt) (hinterval : e.config.nodelay.interval.toNat ≤ 40)
    {segment : KcpSegment} (hrto : segment.rto.toNat < 2 ^ 30) :
    timeout_rto e segment = some (e.timeout_rto segment) := by
  have hbound := hrtt.rto_le
  unfold timeout_rto KcpEngine.timeout_rto
  split
  · apply Checked.add_eq
    rw [BitVec.toNat_udiv]
    change segment.rto.toNat + _ / 2 < 2 ^ 32
    split
    · omega
    · omega
  · apply Checked.add_eq
    rw [Word.toNat_max]
    omega

/-- A segment paced by the clock is scanned within the range of the words. -/
theorem mark_segment_eq {e : KcpEngine} (hrtt : RttBounds e.rtt) (hinterval : e.config.nodelay.interval.toNat ≤ 40)
    {limit : Nat} {now : Timestamp} (hle : limit ≤ now.toNat) (hnow : now.toNat < 2 ^ 30) {segment : KcpSegment}
    (h : Paced limit segment ∨ segment.xmit = 0) {stats : KcpStats}
    (hretrans : (count_marks stats [KcpEngine.mark_of now e.resend_threshold segment]).retransmissions < 2 ^ 64)
    (hfast : (count_marks stats [KcpEngine.mark_of now e.resend_threshold segment]).fast_retransmissions < 2 ^ 64) :
    mark_segment e e.advertised_wnd now e.resend_threshold e.rto_margin stats segment =
      some (e.mark_segment now e.resend_threshold e.rto_margin segment,
        count_marks stats [KcpEngine.mark_of now e.resend_threshold segment]) := by
  unfold mark_segment KcpEngine.mark_segment
  cases hmark : KcpEngine.mark_of now e.resend_threshold segment with
  | hold => rfl
  | first =>
    have hrto := hrtt.rto_le
    have hmargin : e.rto_margin.toNat ≤ 7500 := by
      unfold KcpEngine.rto_margin
      split
      · exact Nat.zero_le _
      · rw [BitVec.toNat_udiv]
        change e.rtt.rto.toNat / 8 ≤ 7500
        omega
    have hdue : now.toNat + e.rtt.rto.toNat < 2 ^ 32 := by omega
    have hlate : (now + e.rtt.rto).toNat + e.rto_margin.toNat < 2 ^ 32 := by
      rw [Word.toNat_add_of_lt hdue]
      omega
    simp only [Checked.add_eq hdue, Checked.add_eq hlate, Option.bind_eq_bind, Option.bind_some]
    rfl
  | timeout =>
    have hpaced := h.resolve_right (sent_of_mark (by rw [hmark]; decide))
    have hlate := late_of_mark hmark
    rw [hpaced.time_diff hle hnow] at hlate
    obtain ⟨sent, wait, hsent, hts, hlow, hcover, hwait, hpos, hcount⟩ := hpaced
    rw [hmark] at hretrans
    have hnext : segment.xmit.toNat + (1 : U32).toNat < 2 ^ 32 := by
      change segment.xmit.toNat + 1 < 2 ^ 32
      omega
    obtain ⟨_, hbound⟩ := KcpEngine.timeout_rto_bounds (e := e) hrtt hinterval hlow
      (show segment.rto.toNat ≤ now.toNat by omega) hnow
    have hdue : now.toNat + (e.timeout_rto segment).toNat < 2 ^ 32 := by omega
    simp only [Checked.add_eq hnext, Checked.add64_eq (show stats.retransmissions + 1 < 2 ^ 64 from hretrans),
      timeout_rto_eq hrtt hinterval (show segment.rto.toNat < 2 ^ 30 by omega), Checked.add_eq hdue,
      Option.bind_eq_bind, Option.bind_some]
    rfl
  | fast =>
    obtain ⟨sent, wait, hsent, hts, hlow, hcover, hwait, hpos, hcount⟩ :=
      h.resolve_right (sent_of_mark (by rw [hmark]; decide))
    rw [hmark] at hfast
    have hnext : segment.xmit.toNat + (1 : U32).toNat < 2 ^ 32 := by
      change segment.xmit.toNat + 1 < 2 ^ 32
      omega
    have hdue : now.toNat + segment.rto.toNat < 2 ^ 32 := by omega
    simp only [Checked.add_eq hnext, Checked.add64_eq (show stats.fast_retransmissions + 1 < 2 ^ 64 from hfast),
      Checked.add_eq hdue, Option.bind_eq_bind, Option.bind_some]
    rfl

theorem count_marks_cons (stats : KcpStats) (mark : Mark) (marks : List Mark) :
    count_marks stats (mark :: marks) = count_marks (count_marks stats [mark]) marks := by
  have hcount : ∀ m : Mark, (mark :: marks).count m = [mark].count m + marks.count m := by
    intro m
    rw [← List.singleton_append, List.count_append]
  unfold count_marks
  simp only [hcount, Nat.add_assoc]

/-- The timers of marked segments do not overflow, nor do their counters while they have room. -/
theorem mark_loop_eq {e : KcpEngine} (hrtt : RttBounds e.rtt) (hinterval : e.config.nodelay.interval.toNat ≤ 40)
    {limit : Nat} {now : Timestamp} (hle : limit ≤ now.toNat) (hnow : now.toNat < 2 ^ 30) {buf : List KcpSegment}
    (h : ∀ s ∈ buf, Paced limit s ∨ s.xmit = 0) {stats : KcpStats}
    (hretrans : (count_marks stats (buf.map (KcpEngine.mark_of now e.resend_threshold))).retransmissions < 2 ^ 64)
    (hfast : (count_marks stats (buf.map (KcpEngine.mark_of now e.resend_threshold))).fast_retransmissions < 2 ^ 64) :
    mark_loop e e.advertised_wnd now e.resend_threshold e.rto_margin buf stats =
      some (buf.map (e.mark_segment now e.resend_threshold e.rto_margin),
        count_marks stats (buf.map (KcpEngine.mark_of now e.resend_threshold))) := by
  induction buf generalizing stats with
  | nil => rfl
  | cons segment rest ih =>
    rw [List.map_cons, count_marks_cons] at hretrans hfast
    have hretrans' : (count_marks stats [KcpEngine.mark_of now e.resend_threshold segment]).retransmissions < 2 ^ 64 :=
      lt_of_le_of_lt (Nat.le_add_right _ _) hretrans
    have hfast' : (count_marks stats [KcpEngine.mark_of now e.resend_threshold segment]).fast_retransmissions < 2 ^ 64 :=
      lt_of_le_of_lt (Nat.le_add_right _ _) hfast
    have hhead := mark_segment_eq hrtt hinterval hle hnow (h segment List.mem_cons_self) hretrans' hfast'
    have hrest := ih (fun s hs => h s (List.mem_cons_of_mem segment hs)) hretrans hfast
    unfold mark_loop
    simp only [hhead, hrest, Option.bind_eq_bind, Option.bind_some, List.map_cons]
    rw [count_marks_cons stats _ (rest.map _)]
    rfl

/-- The whole scan goes through without an overflow. -/
theorem mark_segments_for_send_eq {e : KcpEngine} (hrtt : RttBounds e.rtt)
    (hinterval : e.config.nodelay.interval.toNat ≤ 40) {limit : Nat} {now : Timestamp} (hle : limit ≤ now.toNat)
    (hnow : now.toNat < 2 ^ 30) (h : ∀ s ∈ e.snd_buf, Paced limit s ∨ s.xmit = 0)
    (hretrans : e.stats.retransmissions + e.timeouts now < 2 ^ 64)
    (hfast : e.stats.fast_retransmissions + e.fasts now < 2 ^ 64) :
    mark_segments_for_send e now e.resend_threshold e.rto_margin =
      some (e.mark_segments_for_send now e.resend_threshold e.rto_margin) := by
  unfold mark_segments_for_send
  rw [advertised_wnd_eq, Option.bind_eq_bind, Option.bind_some, mark_loop_eq hrtt hinterval hle hnow h hretrans hfast]
  rfl

/-! ### Emission -/

/-- The scan hands over positions of the buffer only. -/
theorem emit_loop_eq {room : Nat} {indices : List Nat} {segments : List KcpSegment} {e : KcpEngine}
    (hread : indices.map (fun i => e.snd_buf[i]?) = segments.map some)
    (h : OutRange ((KcpEngine.upto_dead e.dead_link segments).length + room) e)
    (hsize : ∀ s ∈ segments, s.size ≤ e.config.mtu.toNat) :
    emit_loop indices e = some (KcpEngine.emit_loop indices e) := by
  induction indices generalizing e segments with
  | nil => rfl
  | cons i indices ih =>
    cases segments with
    | nil => cases hread
    | cons segment rest =>
      simp only [List.map_cons, List.cons.injEq] at hread
      have hhead := hsize segment List.mem_cons_self
      unfold emit_loop KcpEngine.emit_loop
      unfold KcpEngine.upto_dead at h
      simp only [hread.1, Option.bind_eq_bind, Option.bind_some]
      by_cases hdead : e.dead_link ≤ segment.xmit
      · rw [if_pos hdead] at h
        rw [(output_segment_eq h segment hhead).1]
        simp [hdead]
      · rw [if_neg hdead, List.length_cons, Nat.add_right_comm, Nat.add_comm _ 1] at h
        obtain ⟨hout, hnext⟩ := output_segment_eq h segment hhead
        rw [hout]
        simp only [hdead, decide_false, Bool.false_eq_true, if_false, Option.bind_some]
        rw [KcpEngine.output_segment_eq] at hnext ⊢
        exact ih hread.2 hnext fun s hs => hsize s (List.mem_cons_of_mem segment hs)

/-! ### Loss -/

/-- What is in flight fits the window, so the threshold and the window in bytes fit a word. -/
theorem update_congestion_on_loss_eq {e : KcpEngine} {lost change : Bool} {resend : U32}
    (hmtu : 24 ≤ e.config.mtu.toNat) (hhigh : e.mss.toNat ≤ 65511) (huna : e.snd_una.toNat ≤ e.snd_nxt.toNat)
    (hspan : e.snd_nxt.toNat ≤ e.snd_una.toNat + 65535) (hresend : change = true → resend.toNat ≤ 2) :
    update_congestion_on_loss e lost change resend = some (e.update_congestion_on_loss lost change resend) := by
  have hinflight : (e.snd_nxt - e.snd_una).toNat = e.snd_nxt.toNat - e.snd_una.toNat := BitVec.toNat_sub_of_le huna
  obtain ⟨ssthresh, hssthresh, hthresh⟩ : ∃ ssthresh : U32,
      (if (e.snd_nxt - e.snd_una) / 2 < constants.IKCP_THRESH_MIN then constants.IKCP_THRESH_MIN
        else (e.snd_nxt - e.snd_una) / 2) = ssthresh ∧ ssthresh.toNat ≤ 32767 := by
    refine ⟨_, rfl, ?_⟩
    split
    · decide
    · rw [BitVec.toNat_udiv]
      change (e.snd_nxt - e.snd_una).toNat / 2 ≤ 32767
      omega
  obtain ⟨changed, hchanged, hsame, hconfig⟩ : ∃ changed : KcpEngine,
      (if change = true then do
        let inflight ← Checked.sub e.snd_nxt e.snd_una
        let ssthresh := inflight / 2
        let ssthresh := if ssthresh < constants.IKCP_THRESH_MIN then constants.IKCP_THRESH_MIN else ssthresh
        let cwnd ← Checked.add ssthresh resend
        let mss ← mss e
        let incr ← Checked.mul cwnd mss
        return { e with wnd := { e.wnd with ssthresh, cwnd, incr } }
      else some e) = some changed ∧
      (if change = true then
        { e with wnd := { e.wnd with ssthresh, cwnd := ssthresh + resend, incr := (ssthresh + resend) * e.mss } }
      else e) = changed ∧ changed.config = e.config := by
    split
    · rename_i hlost
      have hsmall := hresend hlost
      have hcwnd : ssthresh.toNat + resend.toNat < 2 ^ 32 := by omega
      have hbytes : (ssthresh + resend).toNat * e.mss.toNat < 2 ^ 32 := by
        rw [Word.toNat_add_of_lt hcwnd]
        exact KcpEngine.window_bytes_lt hhigh (by omega)
      simp only [Checked.sub_eq huna, hssthresh, Checked.add_eq hcwnd, mss_eq hmtu, Checked.mul_eq hbytes,
        Option.bind_eq_bind, Option.bind_some]
      exact ⟨_, rfl, rfl, rfl⟩
    · exact ⟨_, rfl, rfl, rfl⟩
  have hreset : ∀ e' : KcpEngine, e'.config = e.config → reset_cwnd e' = some e'.reset_cwnd := fun e' h' =>
    reset_cwnd_eq (by rw [h']; exact hmtu)
  have hfloor : ∀ e' : KcpEngine, e'.config = e.config →
      (if e'.wnd.cwnd < 1 then reset_cwnd e' else some e') =
        some (if e'.wnd.cwnd < 1 then e'.reset_cwnd else e') := by
    intro e' h'
    split
    · exact hreset e' h'
    · rfl
  unfold update_congestion_on_loss KcpEngine.update_congestion_on_loss
  dsimp only
  rw [hssthresh, hsame]
  simp only [Option.bind_eq_bind] at hchanged ⊢
  rw [hchanged, Option.bind_some]
  cases lost with
  | false => exact hfloor changed hconfig
  | true =>
    simp only [if_true]
    rw [hreset, Option.bind_some]
    · apply hfloor
      exact hconfig
    · exact hconfig

/-! ### The flush -/

/-- What the scan of the send buffer needs: segments paced by the clock, small enough for
a datagram and not skipped too often, and a window that fits. -/
structure ScanRange (limit : Nat) (e : KcpEngine) : Prop where
  rtt : RttBounds e.rtt
  preset : e.config.nodelay.IsPreset
  mtu : 24 ≤ e.config.mtu.toNat
  mss : e.mss.toNat ≤ 65511
  paced : ∀ s ∈ e.snd_buf, Paced limit s ∨ s.xmit = 0
  size : ∀ s ∈ e.snd_buf, s.size ≤ e.config.mtu.toNat
  skipped : ∀ s ∈ e.snd_buf, s.fastack.toNat < 2 ^ 30
  una : e.snd_una.toNat ≤ e.snd_nxt.toNat
  span : e.snd_nxt.toNat ≤ e.snd_una.toNat + 65535

/-- The fast-retransmit threshold of a mode that has one is small; where there is none, no
segment is skipped often enough. -/
theorem ScanRange.resend {limit : Nat} {e : KcpEngine} (h : ScanRange limit e) (now : Timestamp)
    (hchange : decide (0 < e.fasts now) = true) : e.resend_threshold.toNat ≤ 2 := by
  rw [decide_eq_true_eq] at hchange
  obtain ⟨s, hs, hmark⟩ := List.mem_map.mp (List.count_pos_iff.mp hchange)
  obtain ⟨hskipped, _⟩ := skipped_of_mark hmark
  have hfew := h.skipped s hs
  rw [BitVec.le_def] at hskipped
  cases KcpEngine.resend_threshold_of_preset h.preset with
  | inl hsmall => exact hsmall
  | inr hmax =>
    rw [hmax] at hskipped
    change 4294967295 ≤ s.fastack.toNat at hskipped
    omega

theorem ScanRange.due_size {limit : Nat} {e : KcpEngine} (h : ScanRange limit e) (now : Timestamp) :
    ∀ s ∈ e.due now, s.size ≤ e.config.mtu.toNat := by
  intro s hs
  obtain ⟨before, hbefore, rfl⟩ := List.mem_map.mp hs
  obtain ⟨_, _, _, hcarried⟩ := e.mark_segment_carries now e.resend_threshold e.rto_margin before
  have hdata : (e.mark_segment now e.resend_threshold e.rto_margin before).data = before.data :=
    congrArg Fragment.data hcarried
  have hsize := h.size before (List.mem_of_mem_filter hbefore)
  unfold KcpSegment.size at hsize ⊢
  rw [hdata]
  exact hsize

/-- The data leaves without an overflow. -/
theorem flush_data_segments_eq {limit : Nat} {now : Timestamp} {e : KcpEngine} (h : ScanRange limit e)
    (hle : limit ≤ now.toNat) (hnow : now.toNat < 2 ^ 30)
    (hout : OutRange (KcpEngine.upto_dead e.dead_link (e.due now)).length e)
    (hretrans : e.stats.retransmissions + e.timeouts now < 2 ^ 64)
    (hfast : e.stats.fast_retransmissions + e.fasts now < 2 ^ 64) :
    flush_data_segments e now = some (e.flush_data_segments now) := by
  have hmark := mark_segments_for_send_eq h.rtt (interval_of_preset h.preset) hle hnow h.paced hretrans hfast
  have hscan : e.mark_segments_for_send now e.resend_threshold e.rto_margin =
      (e.scanned now, KcpEngine.marked_indices now e.resend_threshold 0 e.snd_buf, decide (0 < e.timeouts now),
        decide (0 < e.fasts now)) := rfl
  have hread := KcpEngine.marked_indices_read now e.resend_threshold
    (e.mark_segment now e.resend_threshold e.rto_margin) [] e.snd_buf
  have hscanned : OutRange ((KcpEngine.upto_dead (e.scanned now).dead_link (e.due now)).length + 0) (e.scanned now) :=
    ⟨hout.mtu, hout.buf, hout.sent⟩
  have hemit : emit_loop (KcpEngine.marked_indices now e.resend_threshold 0 e.snd_buf) (e.scanned now) = some _ :=
    emit_loop_eq hread hscanned (h.due_size now)
  obtain ⟨out, result, hdone, hconfig, huna, hnxt⟩ : ∃ out result,
      KcpEngine.emit_loop (KcpEngine.marked_indices now e.resend_threshold 0 e.snd_buf) (e.scanned now) =
        (out, result) ∧ out.config = e.config ∧ out.snd_una = e.snd_una ∧ out.snd_nxt = e.snd_nxt :=
    ⟨_, _, KcpEngine.emit_loop_eq _ _ _ hread, rfl, rfl, rfl⟩
  rw [hdone] at hemit
  have hmss : out.mss = e.mss := by
    unfold KcpEngine.mss
    rw [hconfig]
  have hloss : update_congestion_on_loss out (decide (0 < e.timeouts now)) (decide (0 < e.fasts now))
      e.resend_threshold = some (out.update_congestion_on_loss (decide (0 < e.timeouts now)) (decide (0 < e.fasts now))
        e.resend_threshold) := by
    apply update_congestion_on_loss_eq
    · rw [hconfig]
      exact h.mtu
    · rw [hmss]
      exact h.mss
    · rw [huna, hnxt]
      exact h.una
    · rw [huna, hnxt]
      exact h.span
    · exact h.resend now
  unfold flush_data_segments KcpEngine.flush_data_segments
  simp only [hmark, hscan, hemit, hdone, Option.bind_eq_bind, Option.bind_some]
  cases result with
  | error err => rfl
  | ok done =>
    simp only [hloss, Option.bind_some]
    rfl

/-- What a flush needs before it starts: timers set by the clock, a send window whose
numbers have not wrapped, and segments that fit a datagram. -/
structure FlushRange (limit : Nat) (e : KcpEngine) : Prop where
  timed : KcpEngine.Timed limit e
  preset : e.config.nodelay.IsPreset
  mtu : e.config.mtu.toNat = KcpHeader.SIZE + e.mss.toNat
  mss : e.mss.toNat ≤ 65511
  stocked : KcpEngine.Stocked e
  packed : e.out_buf.length ≤ e.config.mtu.toNat
  skipped : ∀ s ∈ e.snd_buf, s.fastack.toNat < 2 ^ 30
  window : KcpEngine.SendWindow e
  snd : e.wnd.snd.toNat ≤ 65535
  una : e.snd_una.toNat ≤ e.snd_nxt.toNat
  nxt : e.snd_nxt.toNat < 2 ^ 30

theorem fastack_numbered (e : KcpEngine) (current : Timestamp) (sn : SeqNum) (queue : List KcpSegment) :
    ∀ segment ∈ e.numbered current sn queue, segment.fastack = 0 := by
  induction queue generalizing sn with
  | nil => intro segment h; cases h
  | cons head queue ih =>
    intro segment h
    cases List.mem_cons.mp h with
    | inl heq => rw [heq]; rfl
    | inr h => exact ih _ segment h

/-- The numbers a flush hands out do not wrap, and what is in flight then fits the window. -/
theorem FlushRange.numbers {limit : Nat} {e : KcpEngine} (h : FlushRange limit e) (clk : Clock) :
    (e.snd_nxt + BitVec.ofNat 32 e.admitted).toNat = e.snd_nxt.toNat + e.admitted ∧ e.admitted ≤ 65535 ∧
      e.snd_nxt.toNat + e.admitted ≤ e.snd_una.toNat + 65535 := by
  have hnxt := h.nxt
  have huna := h.una
  have hfew := KcpEngine.admitted_lt h.window h.snd
  have hnum : (BitVec.ofNat 32 e.admitted).toNat = e.admitted := by
    rw [BitVec.toNat_ofNat]
    omega
  have hsum : (e.snd_nxt + BitVec.ofNat 32 e.admitted).toNat = e.snd_nxt.toNat + e.admitted := by
    rw [Word.toNat_add_of_lt (by omega), hnum]
  have hspan := (KcpEngine.sendWindow_flush h.window h.snd clk).1.span
  obtain ⟨queue, buf, stats, heq⟩ := e.flush_shape clk
  rw [heq] at hspan
  dsimp only at hspan
  rw [(e.flushed_wnd_frame clk.now).1, Serial.offset_of_le (by omega)] at hspan
  have hsnd := h.snd
  exact ⟨hsum, hfew, by omega⟩

/-- What is in range before a flush is so at its scan. -/
theorem FlushRange.scan {limit : Nat} {e : KcpEngine} (h : FlushRange limit e) (clk : Clock)
    (segments : List KcpSegment) : ScanRange limit ((e.ready clk.now).with_output segments) := by
  obtain ⟨hsum, hfew, hspan⟩ := h.numbers clk
  have huna := h.una
  have hready := e.ready_eq clk.now
  have hconfig : ((e.ready clk.now).with_output segments).config = e.config := by
    change (e.ready clk.now).config = _
    rw [hready]
  have hmss : ((e.ready clk.now).with_output segments).mss = e.mss := by
    unfold KcpEngine.mss
    rw [hconfig]
  have hmtu : ((e.ready clk.now).with_output segments).config.mtu.toNat = KcpHeader.SIZE + e.mss.toNat := by
    rw [hconfig]
    exact h.mtu
  have hwnd : ((e.ready clk.now).with_output segments).snd_una = e.snd_una ∧
      ((e.ready clk.now).with_output segments).snd_nxt = e.snd_nxt + BitVec.ofNat 32 e.admitted := by
    change (e.ready clk.now).snd_una = _ ∧ (e.ready clk.now).snd_nxt = _
    rw [hready]
    exact ⟨rfl, rfl⟩
  constructor
  · change RttBounds (e.ready clk.now).rtt
    rw [hready]
    exact h.timed.rtt
  · rw [hconfig]
    exact h.preset
  · rw [hmtu]
    exact Nat.le_add_right _ _
  · rw [hmss]
    exact h.mss
  · intro s hs
    cases KcpEngine.mem_ready.mp hs with
    | inl hold => exact .inl (h.timed.paced s hold)
    | inr hnew => exact .inr (e.xmit_numbered _ _ _ s hnew)
  · intro s hs
    have hdata := h.stocked.ready clk.now s hs
    rw [hmtu, KcpSegment.size]
    omega
  · intro s hs
    cases KcpEngine.mem_ready.mp hs with
    | inl hold => exact h.skipped s hold
    | inr hnew =>
      rw [fastack_numbered e _ _ _ s hnew]
      decide
  · rw [hwnd.1, hwnd.2, hsum]
    omega
  · rw [hwnd.1, hwnd.2, hsum]
    exact hspan

/-- A flush in range does not fail. -/
theorem flush_eq {limit : Nat} {e : KcpEngine} (h : FlushRange limit e) {clk : Clock} (hle : limit ≤ clk.now.toNat)
    (hnow : clk.now.toNat < 2 ^ 30) (hsent : e.stats.packets_sent + (e.emissions clk).length < 2 ^ 64)
    (hretrans : e.stats.retransmissions + (e.ready clk.now).timeouts clk.now < 2 ^ 64)
    (hfast : e.stats.fast_retransmissions + (e.ready clk.now).fasts clk.now < 2 ^ 64) :
    flush e clk = some (e.flush clk) := by
  have hmtu : 24 ≤ e.config.mtu.toNat := by
    rw [h.mtu]
    exact Nat.le_add_right _ _
  have hmss := h.mss
  have hle' : e.config.mtu.toNat ≤ 65535 := by
    rw [h.mtu]
    change 24 + e.mss.toNat ≤ 65535
    omega
  have hlength : (e.emissions clk).length = e.ack_list.length + ((e.probes_out clk).length +
      (KcpEngine.upto_dead e.dead_link ((e.ready clk.now).due clk.now)).length) := by
    unfold KcpEngine.emissions KcpEngine.acks_out
    rw [List.length_append, List.length_append, List.length_map, Nat.add_assoc]
  rw [hlength] at hsent
  obtain ⟨hacks, hprobing⟩ := flush_acks_eq ⟨hle', h.packed, hsent⟩ hmtu clk
  have hsame : (e.flush_acks clk).probes_out clk = e.probes_out clk ∧ (e.flush_acks clk).config = e.config ∧
      (e.flush_acks clk).probe = e.probe := by
    rw [KcpEngine.flush_acks_eq]
    exact ⟨rfl, rfl, rfl⟩
  rw [← hsame.1] at hprobing
  obtain ⟨hprobe, hready⟩ := handle_window_probe_eq hprobing (by rw [hsame.2.1]; exact hmtu)
    (by rw [hsame.2.2]; exact h.timed.timer.wait_le) hnow
  obtain ⟨hsum, hfew, _⟩ := h.numbers clk
  have huna := h.una
  have hnxt := h.nxt
  have hwnd := e.effective_wnd_le
  have hsnd := h.snd
  have hadmit : move_to_send_buf ((e.flush_acks clk).handle_window_probe clk) clk.now =
      some ((e.ready clk.now).with_output (e.acks_out clk ++ e.probes_out clk)) := by
    rw [← e.ready_output]
    apply move_to_send_buf_eq
    · rw [e.opened_output]
      change e.snd_una.toNat + e.effective_wnd.toNat < 2 ^ 32
      omega
    · rw [e.opened_output]
      change e.snd_nxt.toNat + e.admitted < 2 ^ 32
      omega
  have hout : OutRange (KcpEngine.upto_dead e.dead_link ((e.ready clk.now).due clk.now)).length
      ((e.ready clk.now).with_output (e.acks_out clk ++ e.probes_out clk)) := by
    rw [← e.ready_output, KcpEngine.move_to_send_buf_eq]
    exact ⟨hready.mtu, hready.buf, hready.sent⟩
  have hlink : (e.ready clk.now).dead_link = e.dead_link := by rw [e.ready_eq]
  have hstats : (e.ready clk.now).stats = e.stats := by rw [e.ready_eq]
  rw [← hlink] at hout
  rw [← hstats] at hretrans hfast
  have hdata := flush_data_segments_eq (h.scan clk (e.acks_out clk ++ e.probes_out clk)) hle hnow hout hretrans hfast
  obtain ⟨out, result, hdone⟩ : ∃ out result, KcpEngine.flush_data_segments
      ((e.ready clk.now).with_output (e.acks_out clk ++ e.probes_out clk)) clk.now = (out, result) := ⟨_, _, rfl⟩
  rw [hdone] at hdata
  unfold flush KcpEngine.flush
  simp only [hacks, hprobe, hadmit, hdata, e.ready_output, hdone, Option.bind_eq_bind, Option.bind_some]
  cases result with
  | error err => rfl
  | ok done => rfl

end kcp_core.engine.checked
