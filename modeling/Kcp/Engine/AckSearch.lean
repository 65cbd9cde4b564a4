import Kcp.Engine.SendWindow

open kcp_core.protocol kcp_core.config kcp_core.error

/-! The search for an acknowledged segment, against a scan of the whole send buffer. -/

namespace kcp_core.engine

namespace KcpEngine

/-- `parse_ack` with a scan in place of the search. -/
def scan_ack (self : KcpEngine) (sn : SeqNum) : KcpEngine :=
  if seq_before sn self.snd_una || !seq_before sn self.snd_nxt then self
  else { self with snd_buf := self.snd_buf.eraseP fun s => decide (s.header.sn = sn) }

/-- The send buffer is in order, seen from `snd_una`, and spans less than half the numbers. -/
structure Ordered (e : KcpEngine) : Prop where
  ascending : Serial.Ascending e.snd_una e.snd_nxt e.snd_sns
  span : Serial.offset e.snd_una e.snd_nxt ≤ 65535

/-- The buffer of an engine in its window is sorted. -/
theorem SendWindow.ordered {e : KcpEngine} (h : SendWindow e) (hsnd : e.wnd.snd.toNat ≤ 65535) : Ordered e :=
  ⟨h.ascending, h.span.trans hsnd⟩

/-- Where the predicate holds once at most, to erase its first and to filter is the same. -/
theorem eraseP_eq_filter {α : Type} {p : α → Bool} {xs : List α} (h : xs.Pairwise fun x y => ¬ (p x = true ∧ p y = true)) :
    xs.eraseP p = xs.filter fun x => !p x := by
  induction xs with
  | nil => rfl
  | cons x xs ih =>
    obtain ⟨hhead, htail⟩ := List.pairwise_cons.mp h
    cases hx : p x with
    | false => rw [List.eraseP_cons_of_neg (by simp [hx]), List.filter_cons_of_pos (by simp [hx]), ih htail]
    | true =>
      rw [List.eraseP_cons_of_pos hx, List.filter_cons_of_neg (by simp [hx])]
      symm
      apply List.filter_eq_self.mpr
      intro y hy
      have hnot := hhead y hy
      simp only [hx, true_and, Bool.not_eq_true] at hnot
      rw [hnot]
      rfl

section Ordered

variable {e : KcpEngine}

/-- A number in the buffer passes the test of `parse_ack`. -/
theorem Ordered.inside (h : Ordered e) {segment : KcpSegment} (hmem : segment ∈ e.snd_buf) :
    (seq_before segment.header.sn e.snd_una || !seq_before segment.header.sn e.snd_nxt) = false := by
  have hspan := h.span
  have hbelow := h.ascending.below segment.header.sn (List.mem_map_of_mem hmem)
  have hnot : ¬ Serial.diff segment.header.sn e.snd_una < 0 := by
    rw [Serial.diff_neg_iff_offset]
    omega
  have hbefore : Serial.diff segment.header.sn e.snd_nxt < 0 := (Serial.diff_neg_iff e.snd_una (by omega) (by omega)).mpr hbelow
  simp [seq_before, hnot, hbefore]

/-- No number is in the buffer twice. -/
theorem Ordered.unique (h : Ordered e) (sn : SeqNum) :
    e.snd_buf.Pairwise fun x y => ¬ (decide (x.header.sn = sn) = true ∧ decide (y.header.sn = sn) = true) := by
  refine (List.pairwise_map.mp h.ascending.increasing).imp ?_
  rintro x y hlt ⟨hx, hy⟩
  rw [of_decide_eq_true hx, of_decide_eq_true hy] at hlt
  exact Nat.lt_irrefl _ hlt

/-- For a number that passes the test, the comparator compares places in the window. -/
theorem Ordered.time_diff_eq (h : Ordered e) {sn : SeqNum}
    (hinside : (seq_before sn e.snd_una || !seq_before sn e.snd_nxt) = false) {segment : KcpSegment}
    (hmem : segment ∈ e.snd_buf) :
    time_diff segment.header.sn sn = (Serial.offset e.snd_una segment.header.sn : Int) - Serial.offset e.snd_una sn := by
  have hspan := h.span
  have hbelow := h.ascending.below segment.header.sn (List.mem_map_of_mem hmem)
  have hnear : ¬ 2 ^ 32 ≤ 2 * Serial.offset e.snd_una sn := by
    rw [← Serial.diff_neg_iff_offset]
    intro hneg
    simp [seq_before, hneg] at hinside
  exact Serial.diff_eq_offset_sub e.snd_una (by omega) (by omega)

/-- In a buffer in order, `parse_ack` takes out the segment with that number, and does what a
scan does. -/
theorem Ordered.parse_ack (h : Ordered e) (sn : SeqNum) :
    e.parse_ack sn = { e with snd_buf := e.snd_buf.filter fun s => decide (s.header.sn ≠ sn) } ∧
      e.parse_ack sn = e.scan_ack sn := by
  have hscan : e.snd_buf.eraseP (fun s => decide (s.header.sn = sn)) =
      e.snd_buf.filter fun s => decide (s.header.sn ≠ sn) := by
    rw [eraseP_eq_filter (h.unique sn)]
    simp
  unfold KcpEngine.parse_ack scan_ack
  cases houtside : seq_before sn e.snd_una || !seq_before sn e.snd_nxt with
  | true =>
    have hnone : e.snd_buf.filter (fun s => decide (s.header.sn ≠ sn)) = e.snd_buf := by
      apply List.filter_eq_self.mpr
      intro segment hmem
      rw [decide_eq_true_eq]
      rintro rfl
      rw [h.inside hmem] at houtside
      cases houtside
    rw [if_pos rfl, if_pos rfl, hnone]
    exact ⟨rfl, rfl⟩
  | false =>
    rw [if_neg Bool.false_ne_true, if_neg Bool.false_ne_true, hscan]
    have hsorted : BinarySearch.SortedBy (fun s => compare (time_diff s.header.sn sn) 0) e.snd_buf := by
      refine (List.pairwise_map.mp h.ascending.increasing).imp_of_mem ?_
      intro x y hx hy hlt
      simp only [compare_gt_iff_gt, compare_lt_iff_lt, h.time_diff_eq houtside hx, h.time_diff_eq houtside hy]
      omega
    have hequal : ∀ segment ∈ e.snd_buf, compare (time_diff segment.header.sn sn) 0 = .eq ↔ segment.header.sn = sn := by
      intro segment _
      rw [compare_eq_iff_eq]
      exact Serial.diff_eq_zero_iff
    have hfound := BinarySearch.erase_found hsorted ((h.unique sn).imp_of_mem fun hx hy hnot heq => hnot
      ⟨decide_eq_true ((hequal _ hx).mp heq.1), decide_eq_true ((hequal _ hy).mp heq.2)⟩)
    have hfilter : (e.snd_buf.filter fun s => decide (compare (time_diff s.header.sn sn) 0 ≠ .eq)) =
        e.snd_buf.filter fun s => decide (s.header.sn ≠ sn) :=
      List.filter_congr fun segment hmem => by simp only [ne_eq, hequal segment hmem]
    rw [hfilter] at hfound
    cases hsearch : BinarySearch.binary_search_by e.snd_buf fun s => compare (time_diff s.header.sn sn) 0 with
    | none =>
      rw [hsearch] at hfound
      rw [← hfound]
      exact ⟨rfl, rfl⟩
    | some pos =>
      rw [hsearch] at hfound
      rw [← hfound]
      exact ⟨rfl, rfl⟩

end Ordered

/-! ### Inside `input` -/

/-- The engine on which the segment loop calls `parse_ack`, if this segment makes it. -/
def acking (current : Timestamp) (acc : KcpEngine × AckTrack) (segment : KcpSegment) : Option KcpEngine :=
  if segment.header.conv = acc.1.conv ∧ segment.header.cmd = constants.IKCP_CMD_ACK then
    let self := { acc.1 with wnd := { acc.1.wnd with rmt := segment.header.wnd.setWidth 32 } }
    let self := self.parse_una segment.header.una
    some (if 0 ≤ time_diff current segment.header.ts then self.update_ack (time_diff current segment.header.ts) else self)
  else none

/-- What the loop does with that segment is this call. -/
theorem input_segment_acking {current : Timestamp} {acc : KcpEngine × AckTrack} {segment : KcpSegment} {e : KcpEngine}
    (h : acking current acc segment = some e) :
    segment.header.cmd = constants.IKCP_CMD_ACK ∧ (input_segment current acc segment).1 = e.parse_ack segment.header.sn := by
  unfold acking at h
  split at h
  · next hack =>
    obtain ⟨hconv, hcmd⟩ := hack
    unfold input_segment
    dsimp only
    rw [if_neg (not_not.mpr hconv), if_pos hcmd, ← Option.some.inj h]
    exact ⟨hcmd, rfl⟩
  · cases h

/-- What the loop has done before that call leaves the two ends of the window alone, and takes
segments out of the buffer. -/
theorem loopFrame_acking {current : Timestamp} {acc : KcpEngine × AckTrack} {segment : KcpSegment} {e : KcpEngine}
    (h : acking current acc segment = some e) : LoopFrame acc.1 e := by
  have huna : LoopFrame acc.1 (parse_una { acc.1 with
      wnd := { acc.1.wnd with rmt := segment.header.wnd.setWidth 32 } } segment.header.una) := by
    constructor <;> first | rfl | exact List.dropWhile_sublist _
  unfold acking at h
  split at h
  · rw [← Option.some.inj h]
    dsimp only
    split
    · obtain ⟨avg, var, rto, heq⟩ := update_ack_shape (parse_una { acc.1 with
        wnd := { acc.1.wnd with rmt := segment.header.wnd.setWidth 32 } } segment.header.una)
        (time_diff current segment.header.ts)
      rw [heq]
      exact huna.trans (by constructor <;> rfl)
    · exact huna
  · cases h

/-- The engines on which the loop over these segments calls `parse_ack`, in order. -/
def ack_calls (current : Timestamp) : KcpEngine × AckTrack → List KcpSegment → List KcpEngine
  | _, [] => []
  | acc, segment :: rest => (acking current acc segment).toList ++ ack_calls current (input_segment current acc segment) rest

/-- The loop of `input` once it has taken these segments. -/
def after_segments (self : KcpEngine) (current : Timestamp) (segments : List KcpSegment) : KcpEngine × AckTrack :=
  segments.foldl (input_segment current)
    ({ self with last_activity := current }, { flag := false, max_ack := 0, latest_ts := 0 })

/-- The engines on which `input` calls `parse_ack` while it takes a datagram in. -/
def ack_engines (self : KcpEngine) (current : Timestamp) (data : Bytes) : List KcpEngine :=
  if data.length < KcpHeader.SIZE then [] else ack_calls current (self.after_segments current []) (split_segments data)

/-- Each of these engines is what the loop has come to before one of the segments. -/
theorem acking_of_ack_calls {current : Timestamp} {acc : KcpEngine × AckTrack} {segments : List KcpSegment} {e : KcpEngine}
    (h : e ∈ ack_calls current acc segments) :
    ∃ front segment rest, segments = front ++ segment :: rest ∧
      acking current (front.foldl (input_segment current) acc) segment = some e := by
  induction segments generalizing acc with
  | nil => cases h
  | cons segment segments ih =>
    rcases List.mem_append.mp h with hhere | hlater
    · exact ⟨[], segment, segments, rfl, Option.mem_toList.mp hhere⟩
    · obtain ⟨front, other, rest, rfl, hother⟩ := ih hlater
      exact ⟨segment :: front, other, rest, rfl, hother⟩

/-- Whatever came before an ACK in the datagram, it finds the buffer in order. -/
theorem loopFrame_ack_calls {current : Timestamp} {acc : KcpEngine × AckTrack} {segments : List KcpSegment} {e : KcpEngine}
    (h : e ∈ ack_calls current acc segments) : LoopFrame acc.1 e := by
  induction segments generalizing acc with
  | nil => cases h
  | cons segment segments ih =>
    rcases List.mem_append.mp h with hhere | hlater
    · exact loopFrame_acking (Option.mem_toList.mp hhere)
    · exact (loopFrame_input_segment current segment acc).trans (ih hlater)

/-- Segments that are removed leave the buffer sorted. -/
theorem Ordered.loop {before after : KcpEngine} (h : Ordered before) (hframe : LoopFrame before after) : Ordered after := by
  refine ⟨?_, by rw [hframe.snd_una, hframe.snd_nxt]; exact h.span⟩
  rw [hframe.snd_una, hframe.snd_nxt]
  exact h.ascending.sublist (hframe.snd_buf.map _)

end KcpEngine

open KcpEngine

/-- Against an arbitrary peer, wherever inside `input` the engine calls `parse_ack`, which is
with the number of some ACK of the datagram: whatever the number, the call takes out the
segments with that number and nothing else, as a scan of the buffer would, and there is at
most one such segment. -/
theorem parse_ack_scans (start : Start) (ops : List Op) (now : Timestamp) (data : Bytes) (e : KcpEngine)
    (hcall : e ∈ (start.reached ops).ack_engines now data) (sn : SeqNum) :
    (∃ front segment rest, split_segments data = front ++ segment :: rest ∧
      segment.header.cmd = constants.IKCP_CMD_ACK ∧
      (input_segment now ((start.reached ops).after_segments now front) segment).1 = e.parse_ack segment.header.sn) ∧
    e.parse_ack sn = e.scan_ack sn ∧
      e.parse_ack sn = { e with snd_buf := e.snd_buf.filter fun s => decide (s.header.sn ≠ sn) } ∧
      (e.snd_buf.filter fun s => decide (s.header.sn = sn)).length ≤ 1 := by
  unfold ack_engines at hcall
  split at hcall
  · cases hcall
  obtain ⟨front, segment, rest, hsplit, hacking⟩ := acking_of_ack_calls hcall
  refine ⟨⟨front, segment, rest, hsplit, input_segment_acking hacking⟩, ?_⟩
  have hreached : Ordered (start.reached ops) := (start.sendWindow ops).ordered (start.snd_le ops)
  have hstart : Ordered { start.reached ops with last_activity := now } := ⟨hreached.ascending, hreached.span⟩
  have h : Ordered e := hstart.loop (loopFrame_ack_calls hcall)
  obtain ⟨hfilter, hscan⟩ := h.parse_ack sn
  refine ⟨hscan, hfilter, ?_⟩
  have honce := (h.unique sn).filter fun s => decide (s.header.sn = sn)
  cases hmany : e.snd_buf.filter fun s => decide (s.header.sn = sn) with
  | nil => exact Nat.zero_le 1
  | cons first others =>
    cases others with
    | nil => exact le_rfl
    | cons second others =>
      have hin : ∀ s ∈ first :: second :: others, decide (s.header.sn = sn) = true := by
        intro s hs
        rw [← hmany] at hs
        exact (List.mem_filter.mp hs).2
      rw [hmany] at honce
      exact absurd ⟨hin first List.mem_cons_self, hin second (List.mem_cons_of_mem _ List.mem_cons_self)⟩
        (List.rel_of_pairwise_cons honce List.mem_cons_self)

/-- Three segments in flight. -/
def three_sent : List Op := [.send (.at 0) [1], .send (.at 0) [2], .send (.at 0) [3], .flush (.at 0)]

/-- Two ACKs in one datagram, of the first segment and of the last. Their UNA passes the first. -/
def two_acks : Bytes := (ack_segment 7 128 1 0 (0, 0)).bytes ++ (ack_segment 7 128 1 0 (2, 0)).bytes

/-- At the second ACK the UNA has taken the first segment out, and `snd_una` is stale. -/
theorem parse_ack_scans_stale_una :
    ∃ e ∈ (plain.reached three_sent).ack_engines 10 two_acks, e.snd_una = 0 ∧ e.snd_sns = [1, 2] ∧
      (e.parse_ack 2).snd_sns = [1] ∧ e.parse_ack 2 = e.scan_ack 2 := by
  have hcall : ((plain.reached three_sent).ack_engines 10 two_acks).get ⟨1, by decide +kernel⟩ ∈
      (plain.reached three_sent).ack_engines 10 two_acks := List.get_mem ..
  exact ⟨_, hcall, by decide +kernel, by decide +kernel, by decide +kernel, (parse_ack_scans plain three_sent 10 two_acks _ hcall 2).2.1⟩

end kcp_core.engine
