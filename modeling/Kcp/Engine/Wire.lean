import Kcp.Engine.FlushFrame
import Kcp.Engine.Stored

open kcp_core.protocol kcp_core.config kcp_core.error

namespace kcp_core.engine.KcpEngine

/-! ### Datagrams of encoded segments -/

/-- The segment a receiver gets: the header and the payload, with fresh sending state. -/
def received_segment (header : KcpHeader) (data : Bytes) : KcpSegment :=
  { header, data, resendts := 0, rto := constants.IKCP_RTO_DEF, fastack := 0, xmit := 0 }

/-- The header gives the length of the payload. -/
def Sized (segment : KcpSegment) : Prop := segment.data.length = segment.header.len.toNat

theorem next_segment_bytes {segment : KcpSegment} (h : Sized segment) (rest : Bytes) :
    next_segment (segment.bytes ++ rest) = some (received_segment segment.header segment.data, rest) := by
  have hlen : KcpHeader.SIZE + segment.header.len.toNat = segment.bytes.length := by
    rw [KcpSegment.length_bytes, KcpSegment.size, h]
  have hheader : KcpHeader.decode (segment.bytes ++ rest) = some (segment.header, segment.data ++ rest) := by
    rw [KcpSegment.bytes, List.append_assoc, KcpHeader.decode_bytes]
  have hsegment : KcpSegment.decode segment.bytes = some (received_segment segment.header segment.data) := by
    unfold KcpSegment.decode
    rw [KcpSegment.bytes, KcpHeader.decode_bytes]
    exact if_neg (not_not.mpr h)
  simp only [next_segment, hheader, hlen]
  rw [if_neg (by simp), List.take_left, hsegment, List.drop_left]

/-- A segment split off carries a header and a payload, and nothing of its own yet. -/
theorem next_segment_received {buf rest : Bytes} {segment : KcpSegment} (h : next_segment buf = some (segment, rest)) :
    segment = received_segment segment.header segment.data := by
  unfold next_segment at h
  cases hheader : KcpHeader.decode buf with
  | none => simp [hheader] at h
  | some out =>
    simp only [hheader, Option.ite_none_left_eq_some] at h
    cases hdecode : KcpSegment.decode (buf.take (KcpHeader.SIZE + out.1.len.toNat)) with
    | none => simp [hdecode] at h
    | some decoded =>
      simp only [hdecode, Option.some.injEq, Prod.mk.injEq] at h
      obtain ⟨_, rfl, _⟩ := h
      unfold KcpSegment.decode at hdecode
      split at hdecode
      · cases hdecode
      · simp only [Option.ite_none_left_eq_some, Option.some.injEq] at hdecode
        obtain ⟨_, rfl⟩ := hdecode
        rfl

/-- Splitting encoded segments gives these segments back, and leaves a tail that no segment
can be split off. -/
theorem split_segments_append {segments : List KcpSegment} (h : ∀ s ∈ segments, Sized s) {tail : Bytes}
    (htail : next_segment tail = none) :
    split_segments (segments.flatMap KcpSegment.bytes ++ tail) =
      segments.map fun s => received_segment s.header s.data := by
  have hloop : ∀ segments : List KcpSegment, (∀ s ∈ segments, Sized s) →
      ∀ fuel, (segments.flatMap KcpSegment.bytes).length ≤ fuel →
      split_loop fuel (segments.flatMap KcpSegment.bytes ++ tail) =
        segments.map fun s => received_segment s.header s.data := by
    intro segments
    induction segments with
    | nil =>
      intro _ fuel _
      cases fuel with
      | zero => rfl
      | succ fuel => simp [split_loop, htail]
    | cons segment rest ih =>
      intro h fuel hfuel
      rw [List.flatMap_cons, List.length_append, KcpSegment.length_bytes, KcpSegment.size, KcpHeader.SIZE] at hfuel
      cases fuel with
      | zero => omega
      | succ fuel =>
        rw [List.flatMap_cons, List.append_assoc, split_loop, next_segment_bytes (h segment List.mem_cons_self)]
        simp only [List.map_cons]
        rw [ih (fun s hs => h s (List.mem_cons_of_mem _ hs)) fuel (by omega)]
  exact hloop segments h _ (by simp)

theorem split_segments_bytes {segments : List KcpSegment} (h : ∀ s ∈ segments, Sized s) :
    split_segments (segments.flatMap KcpSegment.bytes) =
      segments.map fun s => received_segment s.header s.data := by
  have hsplit := split_segments_append h (show next_segment [] = none from rfl)
  rwa [List.append_nil] at hsplit

/-- A datagram of encoded segments whose headers and payloads all meet `P`. -/
def Carries (P : KcpHeader → Bytes → Prop) (datagram : Bytes) : Prop :=
  ∃ segments : List KcpSegment, datagram = segments.flatMap KcpSegment.bytes ∧
    ∀ s ∈ segments, Sized s ∧ P s.header s.data

variable {P Q : KcpHeader → Bytes → Prop}

theorem Carries.nil : Carries P [] := ⟨[], rfl, by simp⟩

theorem Carries.append {datagram : Bytes} (h : Carries P datagram) {segment : KcpSegment} (hsized : Sized segment)
    (hP : P segment.header segment.data) : Carries P (datagram ++ segment.bytes) := by
  obtain ⟨segments, rfl, hall⟩ := h
  refine ⟨segments ++ [segment], by simp, ?_⟩
  intro s hs
  rcases List.mem_append.mp hs with hs | hs
  · exact hall s hs
  · rw [List.mem_singleton.mp hs]
    exact ⟨hsized, hP⟩

theorem Carries.mono (hPQ : ∀ header data, P header data → Q header data) {datagram : Bytes}
    (h : Carries P datagram) : Carries Q datagram := by
  obtain ⟨segments, heq, hall⟩ := h
  exact ⟨segments, heq, fun s hs => ⟨(hall s hs).1, hPQ _ _ (hall s hs).2⟩⟩

/-- What a receiver splits off such a datagram meets `P`. -/
theorem Carries.split {datagram : Bytes} (h : Carries P datagram) :
    ∀ s ∈ split_segments datagram, P s.header s.data := by
  obtain ⟨segments, rfl, hall⟩ := h
  intro s hs
  rw [split_segments_bytes fun s hs => (hall s hs).1] at hs
  obtain ⟨sent, hsent, rfl⟩ := List.mem_map.mp hs
  exact (hall sent hsent).2

/-! ### What a flush puts on the wire -/

/-- Every datagram closed but not drained, and the one being packed, carry `P`. -/
structure Packed (P : KcpHeader → Bytes → Prop) (e : KcpEngine) : Prop where
  queue : ∀ datagram ∈ e.output_queue, Carries P datagram
  buf : Carries P e.out_buf

theorem Packed.mono (hPQ : ∀ header data, P header data → Q header data) {e : KcpEngine} (h : Packed P e) : Packed Q e :=
  ⟨fun d hd => (h.queue d hd).mono hPQ, h.buf.mono hPQ⟩

theorem Packed.with_output {e : KcpEngine} (h : Packed P e) {segments : List KcpSegment}
    (hall : ∀ s ∈ segments, Sized s ∧ P s.header s.data) : Packed P (e.with_output segments) := by
  have hpack := pack_forall (P := Carries P) .nil (fun s hs _ hbuf => hbuf.append (hall s hs).1 (hall s hs).2)
    e.config.mtu.toNat (e.output_queue, e.out_buf) h.queue h.buf
  exact ⟨hpack.1, hpack.2⟩

theorem Packed.flush_out_buf {e : KcpEngine} (h : Packed P e) : Packed P e.flush_out_buf := by
  unfold KcpEngine.flush_out_buf
  split
  · refine ⟨?_, .nil⟩
    intro d hd
    rcases List.mem_append.mp hd with hd | hd
    · exact h.queue d hd
    · rw [List.mem_singleton.mp hd]
      exact h.buf
  · exact h

theorem packed_flush {self : KcpEngine} (h : Packed P self) (clk : Clock)
    (hall : ∀ s ∈ self.emissions clk, Sized s ∧ P s.header s.data) : Packed P (self.flush clk).1 := by
  obtain ⟨stats, hscan⟩ := self.scanned_ready_eq clk.now
  have hlost : Packed P (self.flush_lost clk) := by
    unfold flush_lost
    refine Packed.with_output ?_ hall
    rw [hscan]
    exact ⟨h.queue, h.buf⟩
  rw [flush_eq]
  split
  · exact hlost
  · have hdone : Packed P ((self.flush_lost clk).update_congestion_on_loss
        (decide (0 < (self.ready clk.now).timeouts clk.now)) (decide (0 < (self.ready clk.now).fasts clk.now))
        (self.ready clk.now).resend_threshold).flush_out_buf := by
      apply Packed.flush_out_buf
      rw [update_congestion_on_loss_eq]
      exact ⟨hlost.queue, hlost.buf⟩
    exact ⟨hdone.queue, hdone.buf⟩

theorem mem_upto_dead {dead_link : U32} {segments : List KcpSegment} {s : KcpSegment}
    (h : s ∈ upto_dead dead_link segments) : s ∈ segments := by
  induction segments with
  | nil => exact h
  | cons first rest ih =>
    unfold upto_dead at h
    split at h
    · rw [List.mem_singleton.mp h]
      exact List.mem_cons_self
    · rcases List.mem_cons.mp h with rfl | h
      · exact List.mem_cons_self
      · exact List.mem_cons_of_mem _ (ih h)

/-- A segment that the scan picks is sent with its payload and number, and with the
current receive state. -/
theorem mark_segment_header (self : KcpEngine) (rtomin : U32) {current : Timestamp} {resend : U32} {segment : KcpSegment}
    (h : mark_of current resend segment ≠ .hold) :
    (self.mark_segment current resend rtomin segment).header =
        { segment.header with ts := current, wnd := self.advertised_wnd, una := self.rcv_nxt } ∧
      (self.mark_segment current resend rtomin segment).data = segment.data := by
  unfold mark_segment
  cases hmark : mark_of current resend segment with
  | hold => exact absurd hmark h
  | first => exact ⟨rfl, rfl⟩
  | timeout => exact ⟨rfl, rfl⟩
  | fast => exact ⟨rfl, rfl⟩

/-- What a flush emits: ACKs from the list, probes, and segments of the send buffer, all
with the number expected next. -/
theorem emissions_rule {self : KcpEngine} {clk : Clock} {P : KcpSegment → Prop}
    (hack : ∀ a ∈ self.ack_list, P (ack_segment self.conv self.advertised_wnd self.rcv_nxt clk.now a))
    (hprobe : ∀ cmd stamp, cmd = constants.IKCP_CMD_WASK ∨ cmd = constants.IKCP_CMD_WINS →
      P (self.create_probe_segment cmd stamp))
    (hdata : ∀ before ∈ (self.ready clk.now).snd_buf, ∀ s : KcpSegment,
      s.header = { before.header with ts := clk.now, wnd := self.advertised_wnd, una := self.rcv_nxt } →
      s.data = before.data → P s) :
    ∀ s ∈ self.emissions clk, P s := by
  intro s hs
  unfold emissions at hs
  rcases List.mem_append.mp hs with hs | hs
  · rcases List.mem_append.mp hs with hs | hs
    · obtain ⟨a, ha, rfl⟩ := List.mem_map.mp hs
      exact hack a ha
    · unfold probes_out at hs
      rcases List.mem_append.mp hs with hs | hs
      · split at hs
        · rw [List.mem_singleton.mp hs]
          exact hprobe _ _ (.inl rfl)
        · cases hs
      · split at hs
        · rw [List.mem_singleton.mp hs]
          exact hprobe _ _ (.inr rfl)
        · cases hs
  · obtain ⟨before, hbefore, rfl⟩ := List.mem_map.mp (mem_upto_dead hs)
    obtain ⟨hmem, hmark⟩ := List.mem_filter.mp hbefore
    obtain ⟨hheader, hsame⟩ := (self.ready clk.now).mark_segment_header (self.ready clk.now).rto_margin
      (of_decide_eq_true hmark)
    refine hdata before hmem _ ?_ hsame
    rw [hheader, ready_eq]
    rfl

end kcp_core.engine.KcpEngine
