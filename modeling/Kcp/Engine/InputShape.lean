import Kcp.Engine.Frame

open kcp_core.protocol kcp_core.config kcp_core.error

namespace kcp_core.engine.KcpEngine

/-- What the segment loop of `input` leaves alone. -/
structure LoopFrame (before after : KcpEngine) : Prop where
  conv : after.conv = before.conv
  config : after.config = before.config
  snd_una : after.snd_una = before.snd_una
  snd_nxt : after.snd_nxt = before.snd_nxt
  snd_queue : after.snd_queue = before.snd_queue
  snd : after.wnd.snd = before.wnd.snd
  rcv : after.wnd.rcv = before.wnd.rcv
  cwnd : after.wnd.cwnd = before.wnd.cwnd
  ssthresh : after.wnd.ssthresh = before.wnd.ssthresh
  incr : after.wnd.incr = before.wnd.incr
  wait : after.probe.wait = before.probe.wait
  ts : after.probe.ts = before.probe.ts
  min_rto : after.rtt.min_rto = before.rtt.min_rto
  output_queue : after.output_queue = before.output_queue
  out_buf : after.out_buf = before.out_buf
  last_update : after.last_update = before.last_update
  dead_link : after.dead_link = before.dead_link
  snd_buf : after.snd_buf.Sublist before.snd_buf

theorem LoopFrame.refl (e : KcpEngine) : LoopFrame e e := by
  constructor <;> rfl

/-- What two parts of the loop leave alone. -/
theorem LoopFrame.trans {a b c : KcpEngine} (first : LoopFrame a b) (second : LoopFrame b c) : LoopFrame a c where
  conv := second.conv.trans first.conv
  config := second.config.trans first.config
  snd_una := second.snd_una.trans first.snd_una
  snd_nxt := second.snd_nxt.trans first.snd_nxt
  snd_queue := second.snd_queue.trans first.snd_queue
  snd := second.snd.trans first.snd
  rcv := second.rcv.trans first.rcv
  cwnd := second.cwnd.trans first.cwnd
  ssthresh := second.ssthresh.trans first.ssthresh
  incr := second.incr.trans first.incr
  wait := second.wait.trans first.wait
  ts := second.ts.trans first.ts
  min_rto := second.min_rto.trans first.min_rto
  output_queue := second.output_queue.trans first.output_queue
  out_buf := second.out_buf.trans first.out_buf
  last_update := second.last_update.trans first.last_update
  dead_link := second.dead_link.trans first.dead_link
  snd_buf := second.snd_buf.trans first.snd_buf

/-- A segment leaves the numbers, the windows but the peer's, and the timers as they are. -/
theorem loopFrame_input_segment (current : Timestamp) (segment : KcpSegment) (acc : KcpEngine × AckTrack) :
    LoopFrame acc.1 (input_segment current acc segment).1 := by
  refine input_segment_rule (P := LoopFrame acc.1) ?_ ?_ ?_ ?_ ?_ acc (.refl _)
  · intro e rmt h
    exact h.trans (by constructor <;> rfl)
  · intro e h
    refine h.trans ?_
    constructor <;> first | rfl | exact List.dropWhile_sublist _
  · intro _ e h
    obtain ⟨avg, var, rto, stats, buf, heq, hsub⟩ := input_ack_shape e current segment
    rw [heq]
    exact h.trans (by constructor <;> first | rfl | exact hsub)
  · intro _ e h
    obtain ⟨queue, buf, nxt, acks, heq⟩ := input_push_shape e segment
    rw [heq]
    exact h.trans (by constructor <;> rfl)
  · intro e h
    exact h.trans (by constructor <;> rfl)

/-- The segments of a datagram leave the numbers, the windows but the peer's, and the timers as they
are. -/
theorem loopFrame_input_loop (self : KcpEngine) (current : Timestamp) (data : Bytes) :
    LoopFrame self (self.input_loop current data).1 := by
  apply input_loop_rule
  · intro segment _ acc h
    exact h.trans (loopFrame_input_segment current segment acc)
  · constructor <;> rfl

/-- A segment as it was, or with one more skipped ACK counted against it. -/
def Counted (before after : KcpSegment) : Prop :=
  after = before ∨ after = { before with fastack := before.fastack + 1 }

theorem counted_parse_fastack_loop (sn : SeqNum) (ts : Timestamp) (buf : List KcpSegment) :
    List.Forall₂ Counted buf (parse_fastack_loop sn ts buf) := by
  induction buf with
  | nil => exact .nil
  | cons segment rest ih =>
    unfold parse_fastack_loop
    split
    · exact List.forall₂_same.mpr fun _ _ => .inl rfl
    · refine .cons ?_ ih
      split
      · exact .inr rfl
      · exact .inl rfl

/-- Duplicate ACKs are counted, and nothing else. -/
theorem counted_parse_fastack (self : KcpEngine) (sn : SeqNum) (ts : Timestamp) : ∃ buf,
    self.parse_fastack sn ts = { self with snd_buf := buf } ∧ List.Forall₂ Counted self.snd_buf buf := by
  unfold parse_fastack
  split
  · exact ⟨_, rfl, List.forall₂_same.mpr fun _ _ => .inl rfl⟩
  · exact ⟨_, rfl, counted_parse_fastack_loop ..⟩

/-- `snd_una` becomes the number at the front of the buffer. -/
theorem shrink_buf_eq (self : KcpEngine) :
    self.shrink_buf = { self with
      snd_una := (self.snd_buf.map fun s => s.header.sn).headD self.snd_nxt } := by
  unfold shrink_buf
  split <;> rename_i h <;> rw [h] <;> rfl

/-- Growth touches the congestion window alone. -/
theorem update_cwnd_shape (self : KcpEngine) (prev_una : SeqNum) : ∃ cwnd incr,
    self.update_cwnd prev_una = { self with wnd := { self.wnd with cwnd, incr } } := by
  unfold update_cwnd
  split
  · unfold grow_cwnd grow_in_avoidance
    dsimp only
    split_ifs <;> exact ⟨_, _, rfl⟩
  · exact ⟨_, _, rfl⟩

theorem input_finish_shape (self : KcpEngine) (prev_una : SeqNum) (track : AckTrack) :
    ∃ buf cwnd incr received, self.input_finish prev_una track = { self with
        snd_una := (self.snd_buf.map fun s => s.header.sn).headD self.snd_nxt
        snd_buf := buf
        wnd := { self.wnd with cwnd, incr }
        stats := { self.stats with packets_received := received } } ∧
      List.Forall₂ Counted self.snd_buf buf := by
  unfold input_finish
  dsimp only
  rw [shrink_buf_eq]
  split
  · obtain ⟨buf, hfast, hcounted⟩ := counted_parse_fastack
      { self with snd_una := (self.snd_buf.map fun s => s.header.sn).headD self.snd_nxt } track.max_ack track.latest_ts
    rw [hfast]
    obtain ⟨cwnd, incr, hcwnd⟩ := update_cwnd_shape { self with
      snd_una := (self.snd_buf.map fun s => s.header.sn).headD self.snd_nxt, snd_buf := buf } prev_una
    rw [hcwnd]
    exact ⟨buf, cwnd, incr, _, rfl, hcounted⟩
  · obtain ⟨cwnd, incr, hcwnd⟩ := update_cwnd_shape { self with
      snd_una := (self.snd_buf.map fun s => s.header.sn).headD self.snd_nxt } prev_una
    rw [hcwnd]
    exact ⟨_, cwnd, incr, _, rfl, List.forall₂_same.mpr fun _ _ => .inl rfl⟩

/-- What `input` leaves alone. -/
structure InputFrame (before after : KcpEngine) : Prop where
  conv : after.conv = before.conv
  config : after.config = before.config
  snd_nxt : after.snd_nxt = before.snd_nxt
  snd_queue : after.snd_queue = before.snd_queue
  snd : after.wnd.snd = before.wnd.snd
  rcv : after.wnd.rcv = before.wnd.rcv
  ssthresh : after.wnd.ssthresh = before.wnd.ssthresh
  wait : after.probe.wait = before.probe.wait
  ts : after.probe.ts = before.probe.ts
  min_rto : after.rtt.min_rto = before.rtt.min_rto
  output_queue : after.output_queue = before.output_queue
  out_buf : after.out_buf = before.out_buf
  last_update : after.last_update = before.last_update
  dead_link : after.dead_link = before.dead_link

/-- What a datagram leaves alone. -/
theorem inputFrame_input (self : KcpEngine) (current : Timestamp) (data : Bytes) :
    InputFrame self (self.input current data).1 := by
  by_cases hshort : data.length < KcpHeader.SIZE
  · rw [input_short hshort]
    constructor <;> rfl
  · rw [input_eq hshort]
    have hloop := loopFrame_input_loop self current data
    obtain ⟨buf, cwnd, incr, received, hfinish, _⟩ := input_finish_shape
      (self.input_loop current data).1 self.snd_una (self.input_loop current data).2
    rw [hfinish]
    exact {
      conv := hloop.conv
      config := hloop.config
      snd_nxt := hloop.snd_nxt
      snd_queue := hloop.snd_queue
      snd := hloop.snd
      rcv := hloop.rcv
      ssthresh := hloop.ssthresh
      wait := hloop.wait
      ts := hloop.ts
      min_rto := hloop.min_rto
      output_queue := hloop.output_queue
      out_buf := hloop.out_buf
      last_update := hloop.last_update
      dead_link := hloop.dead_link }

/-- The send buffer after `input`: some of its segments, in order, each as it was or
with one more skipped ACK. A datagram too short to hold a header changes nothing here;
otherwise `snd_una` becomes the number of the first segment left. -/
theorem input_snd_buf (self : KcpEngine) (current : Timestamp) (data : Bytes) :
    ∃ kept, kept.Sublist self.snd_buf ∧ List.Forall₂ Counted kept (self.input current data).1.snd_buf ∧
      ((self.input current data).1.snd_una = self.snd_una ∧ kept = self.snd_buf ∨
        (self.input current data).1.snd_una = (kept.map fun s => s.header.sn).headD self.snd_nxt) := by
  by_cases hshort : data.length < KcpHeader.SIZE
  · rw [input_short hshort]
    exact ⟨self.snd_buf, .refl _, List.forall₂_same.mpr fun _ _ => .inl rfl, .inl ⟨rfl, rfl⟩⟩
  · rw [input_eq hshort]
    have hloop := loopFrame_input_loop self current data
    obtain ⟨buf, cwnd, incr, received, hfinish, hcounted⟩ := input_finish_shape
      (self.input_loop current data).1 self.snd_una (self.input_loop current data).2
    rw [hfinish]
    exact ⟨_, hloop.snd_buf, hcounted, .inr (by rw [← hloop.snd_nxt])⟩

theorem forall₂_counted_map {β : Type} {f : KcpSegment → β}
    (hf : ∀ (s : KcpSegment) (n : U32), f { s with fastack := n } = f s) {kept buf : List KcpSegment}
    (h : List.Forall₂ Counted kept buf) : buf.map f = kept.map f := by
  induction h with
  | nil => rfl
  | cons hhead _ ih =>
    rw [List.map_cons, List.map_cons, ih]
    rcases hhead with heq | heq
    · rw [heq]
    · rw [heq, hf]

/-- A segment in the buffer was there before, but for its count. -/
theorem exists_counted {kept buf : List KcpSegment} (h : List.Forall₂ Counted kept buf) :
    ∀ segment ∈ buf, ∃ before ∈ kept, Counted before segment := by
  induction h with
  | nil => intro segment hmem; cases hmem
  | cons hhead _ ih =>
    intro segment hmem
    rcases List.mem_cons.mp hmem with rfl | hmem
    · exact ⟨_, List.mem_cons_self, hhead⟩
    · obtain ⟨before, hbefore, hcounted⟩ := ih segment hmem
      exact ⟨before, List.mem_cons_of_mem _ hbefore, hcounted⟩

end kcp_core.engine.KcpEngine
