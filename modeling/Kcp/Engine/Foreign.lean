import Kcp.Engine.Codec
import Kcp.Engine.Origin

open kcp_core.protocol kcp_core.config kcp_core.error

namespace kcp_core.engine

namespace KcpEngine

/-- No complete segment of the datagram carries the conversation. -/
def Foreign (conv : ConvId) (data : Bytes) : Prop := ∀ segment ∈ split_segments data, segment.header.conv ≠ conv

instance decidableForeign (conv : ConvId) (data : Bytes) : Decidable (Foreign conv data) :=
  inferInstanceAs (Decidable (∀ segment ∈ _, _))

/-- A datagram is counted only if it could hold a header. -/
def counted_packets (data : Bytes) : Nat := if data.length < KcpHeader.SIZE then 0 else 1

/-- What a datagram of foreign segments does: it counts as a packet and as activity. -/
def noticed (self : KcpEngine) (now : Timestamp) (data : Bytes) : KcpEngine :=
  { self with
    last_activity := now
    stats := { self.stats with packets_received := self.stats.packets_received + counted_packets data } }

/-- The segments of a datagram that carry the conversation. -/
def own_segments (conv : ConvId) (data : Bytes) : List KcpSegment :=
  (split_segments data).filter fun segment => segment.header.conv = conv

/-- The segment loop passes over the foreign segments. -/
theorem foldl_own (current : Timestamp) (segments : List KcpSegment) (acc : KcpEngine × AckTrack) :
    segments.foldl (input_segment current) acc =
      (segments.filter fun segment => segment.header.conv = acc.1.conv).foldl (input_segment current) acc := by
  induction segments generalizing acc with
  | nil => rfl
  | cons segment rest ih =>
    by_cases hown : segment.header.conv = acc.1.conv
    · have hconv := (loopFrame_input_segment current segment acc).conv
      have hrest := ih (input_segment current acc segment)
      rw [hconv] at hrest
      rw [List.filter_cons_of_pos (by simpa using hown), List.foldl_cons, List.foldl_cons, hrest]
    · have hskip : input_segment current acc segment = acc := if_pos hown
      rw [List.filter_cons_of_neg (by simpa using hown), List.foldl_cons, hskip, ih]

/-- The loop sees the segments of its own conversation alone. -/
theorem input_loop_own (self : KcpEngine) (now : Timestamp) (data : Bytes) :
    self.input_loop now data = (own_segments self.conv data).foldl (input_segment now)
      ({ self with last_activity := now }, { flag := false, max_ack := 0, latest_ts := 0 }) :=
  foldl_own ..

/-- Datagrams with the same segments of the conversation do the same. -/
theorem input_congr {self : KcpEngine} {first second : Bytes} (hfirst : KcpHeader.SIZE ≤ first.length)
    (hsecond : KcpHeader.SIZE ≤ second.length) (h : own_segments self.conv first = own_segments self.conv second)
    (now : Timestamp) : self.input now first = self.input now second := by
  rw [input_eq (Nat.not_lt.mpr hfirst), input_eq (Nat.not_lt.mpr hsecond), input_loop_own, input_loop_own, h]

/-- What is left of encoded segments and a cut tail, as a receiver gets it. -/
theorem own_segments_append (conv : ConvId) {segments : List KcpSegment} (h : ∀ s ∈ segments, Sized s) {tail : Bytes}
    (htail : Cut tail) :
    own_segments conv (segments.flatMap KcpSegment.bytes ++ tail) =
      ((segments.filter fun s => s.header.conv = conv).map fun s => (s.header, s.data)).map
        fun carried => received_segment carried.1 carried.2 := by
  rw [own_segments, split_segments_append h (next_segment_cut htail), List.filter_map, List.map_map]
  rfl

/-- A foreign datagram leaves the loop with nothing done. -/
theorem input_loop_foreign {self : KcpEngine} {data : Bytes} (h : Foreign self.conv data) (now : Timestamp) :
    self.input_loop now data =
      ({ self with last_activity := now }, { flag := false, max_ack := 0, latest_ts := 0 }) := by
  have hnone : own_segments self.conv data = [] := by
    rw [own_segments, List.filter_eq_nil_iff]
    intro segment hmem
    simpa using h segment hmem
  rw [input_loop_own, hnone]
  rfl

/-- While `snd_una` is the front of the buffer, `shrink_buf` finds nothing to do. -/
theorem shrink_buf_front {self : KcpEngine} (h : Front self) : self.shrink_buf = self := by
  have hsame : (self.snd_buf.map fun s => s.header.sn).headD self.snd_nxt = self.snd_una := h.symm
  rw [shrink_buf_eq, hsame]

/-- Without a newly acknowledged number the congestion window stays. -/
theorem update_cwnd_same (self : KcpEngine) : self.update_cwnd self.snd_una = self := by
  have hnot : ¬ (seq_after self.snd_una self.snd_una = true ∧ self.wnd.cwnd < self.wnd.rmt) := by
    simp [seq_after, Serial.diff]
  unfold update_cwnd
  rw [if_neg hnot]

/-- A foreign datagram changes when the peer was last heard, and the number of packets. -/
theorem input_foreign {self : KcpEngine} (hfront : Front self) {data : Bytes} (h : Foreign self.conv data)
    (now : Timestamp) : (self.input now data).1 = self.noticed now data := by
  by_cases hshort : data.length < KcpHeader.SIZE
  · rw [input_short hshort, noticed, counted_packets, if_pos hshort]
    rfl
  · have hshrink : KcpEngine.shrink_buf { self with last_activity := now } = { self with last_activity := now } :=
      shrink_buf_front hfront
    have hcwnd := update_cwnd_same { self with last_activity := now }
    rw [input_eq hshort, input_loop_foreign h]
    simp only [input_finish, hshrink, Bool.false_eq_true, if_false]
    rw [hcwnd, noticed, counted_packets, if_neg hshort]

end KcpEngine

open KcpEngine

/-- On any reachable engine, a datagram without a complete segment of the conversation
changes nothing but the packet counter and the reading of the last activity: the engine
counts as active, and its idle time runs from that datagram on. -/
theorem foreign_datagram (origin : Origin) (ops : List Op) (now : Timestamp) (data : Bytes)
    (h : Foreign (origin.reached ops).conv data) :
    ((origin.reached ops).input now data).1 = (origin.reached ops).noticed now data ∧
      ∀ later, ((origin.reached ops).input now data).1.idle_ms later = if now ≤ later then later - now else 0 := by
  have hinput := input_foreign (origin.front ops) h now
  refine ⟨hinput, ?_⟩
  intro later
  rw [hinput]
  rfl

/-- One PUSH of another conversation. -/
def foreign_push : Bytes := (KcpSegment.push 8 0 [0] 0).bytes

/-- A PUSH of another conversation. -/
theorem foreign_datagram_push :
    ((plain.origin.reached []).input 5 foreign_push).1 = (plain.origin.reached []).noticed 5 foreign_push :=
  (foreign_datagram plain.origin [] 5 foreign_push (by decide +kernel)).1

/-- An engine that has heard nothing for five milliseconds takes such a datagram for
activity of its peer. -/
theorem foreign_resets_idle :
    Foreign (plain.reached []).conv foreign_push ∧ (plain.reached []).idle_ms 5 = 5 ∧
      ((plain.reached []).input 5 foreign_push).1.idle_ms 5 = 0 ∧
      ¬ ∃ received, ((plain.reached []).input 5 foreign_push).1 =
        { plain.reached [] with stats := { (plain.reached []).stats with packets_received := received } } := by
  have hidle : ((plain.reached []).input 5 foreign_push).1.idle_ms 5 = 0 := by decide +kernel
  refine ⟨by decide +kernel, by decide +kernel, hidle, ?_⟩
  rintro ⟨received, heq⟩
  have hactive : ((plain.reached []).input 5 foreign_push).1.idle_ms 5 = (plain.reached []).idle_ms 5 :=
    congrArg (fun e => e.idle_ms 5) heq
  rw [hidle] at hactive
  exact absurd hactive (by decide +kernel)

/-! ### Foreign segments among those of the conversation -/

/-- Two datagrams of at least a header's length, each made of encoded segments and perhaps
a cut tail, with the same segments of the conversation in the same order: `input` accepts
both and leaves the same state. -/
theorem foreign_segments_ignored (origin : Origin) (ops : List Op) (now : Timestamp) (first second : List KcpSegment)
    (hfirst : ∀ s ∈ first, Sized s) (hsecond : ∀ s ∈ second, Sized s) (tail tail' : Bytes) (htail : Cut tail)
    (htail' : Cut tail') (hlong : 24 ≤ (first.flatMap KcpSegment.bytes ++ tail).length)
    (hlong' : 24 ≤ (second.flatMap KcpSegment.bytes ++ tail').length)
    (hsame : (first.filter fun s => s.header.conv = (origin.reached ops).conv).map (fun s => (s.header, s.data)) =
      (second.filter fun s => s.header.conv = (origin.reached ops).conv).map (fun s => (s.header, s.data))) :
    (origin.reached ops).input now (first.flatMap KcpSegment.bytes ++ tail) =
        (origin.reached ops).input now (second.flatMap KcpSegment.bytes ++ tail') ∧
      ((origin.reached ops).input now (first.flatMap KcpSegment.bytes ++ tail)).2 = .ok () := by
  constructor
  · apply input_congr hlong hlong'
    rw [own_segments_append _ hfirst htail, own_segments_append _ hsecond htail', hsame]
  · rw [input_eq (Nat.not_lt.mpr hlong)]

/-- A foreign PUSH before an own one, against the own one with a cut tail after it. -/
theorem foreign_segments_ignored_push :
    ((plain.origin.reached []).input 5 ([KcpSegment.push 8 0 [0] 0, KcpSegment.push 7 0 [1] 0].flatMap KcpSegment.bytes ++ [])).2 =
      .ok () :=
  (foreign_segments_ignored plain.origin [] 5 [KcpSegment.push 8 0 [0] 0, KcpSegment.push 7 0 [1] 0]
    [KcpSegment.push 7 0 [1] 0] (by simp [Sized, KcpSegment.push, KcpSegment.new])
    (by simp [Sized, KcpSegment.push, KcpSegment.new]) [] [3] (.inl (by decide)) (.inl (by decide)) (by decide +kernel)
    (by decide +kernel) (by decide +kernel)).2

end kcp_core.engine
