import Kcp.Engine.ConvSwitch
import Kcp.Engine.DeadLink

open kcp_core.protocol kcp_core.config kcp_core.error

namespace kcp_core.engine

namespace KcpEngine

/-! ### What a flush marks and what it encodes -/

/-- How often the segment at a position of the buffer had been sent before the flush. A
segment that the flush lets into the buffer had not. -/
def xmit_before (self : KcpEngine) (i : Nat) : U32 := (self.snd_buf[i]?).elim 0 KcpSegment.xmit

/-- A segment of the buffer, as the flush leaves it, that the flush counted as sent. -/
def Incremented (self : KcpEngine) (clk : Clock) (segment : KcpSegment) : Prop :=
  ∃ i, (self.flush clk).1.snd_buf[i]? = some segment ∧ segment.xmit ≠ self.xmit_before i

/-- The segments of the buffer that a flush encodes, in order. -/
def data_out (self : KcpEngine) (clk : Clock) : List KcpSegment :=
  upto_dead self.dead_link ((self.ready clk.now).due clk.now)

/-- How often each due segment will have been sent after the flush: those in flight, then
those that the window lets in. -/
def next_counts (self : KcpEngine) (current : Timestamp) : List U32 :=
  (self.snd_buf.filter fun s => Due self current s).map (fun s => s.xmit + 1) ++ List.replicate self.admitted 1

/-- Of the due segments at most the last one comes to the dead-link threshold. -/
def LastDead (self : KcpEngine) (current : Timestamp) : Prop :=
  ∀ n ∈ (self.next_counts current).dropLast, n < self.dead_link

instance decidableLastDead (self : KcpEngine) (current : Timestamp) : Decidable (LastDead self current) :=
  List.decidableBAll (fun n => n < self.dead_link) _

/-- A count that is raised changes, even where it wraps. -/
theorem xmit_succ_ne (xmit : U32) : xmit + 1 ≠ xmit := by
  intro h
  simp at h

/-- A flush marks the segments that it finds, and those it numbers. -/
theorem snd_buf_flush (self : KcpEngine) (clk : Clock) :
    (self.flush clk).1.snd_buf = (self.ready clk.now).snd_buf.map
      (self.mark_segment clk.now self.resend_threshold self.rto_margin) := by
  obtain ⟨queue, buf, stats, heq⟩ := self.flush_shape clk
  rw [heq, ready_eq]
  rfl

/-- The counts before the flush. -/
theorem xmit_before_ready {self : KcpEngine} {current : Timestamp} {i : Nat} {segment : KcpSegment}
    (h : (self.ready current).snd_buf[i]? = some segment) : self.xmit_before i = segment.xmit := by
  rw [ready_eq] at h
  dsimp only at h
  unfold xmit_before
  by_cases hold : i < self.snd_buf.length
  · rw [List.getElem?_append_left hold] at h
    rw [h]
    rfl
  · rw [List.getElem?_append_right (Nat.not_lt.mp hold)] at h
    rw [List.getElem?_eq_none (Nat.not_lt.mp hold)]
    exact (self.xmit_numbered current _ _ segment (List.mem_of_getElem? h)).symm

/-- A flush counts as sent just the segments that are due. -/
theorem incremented_iff (self : KcpEngine) (clk : Clock) (segment : KcpSegment) :
    Incremented self clk segment ↔ segment ∈ self.sent_segments clk.now := by
  unfold Incremented sent_segments
  rw [snd_buf_flush, List.mem_map]
  constructor
  · rintro ⟨i, hi, hxmit⟩
    rw [List.getElem?_map, Option.map_eq_some_iff] at hi
    obtain ⟨before, hbefore, rfl⟩ := hi
    refine ⟨before, List.mem_filter.mpr ⟨List.mem_of_getElem? hbefore, ?_⟩, rfl⟩
    rw [decide_eq_true_iff, ← due_iff_mark]
    intro hhold
    rw [xmit_mark_segment, if_pos hhold, xmit_before_ready hbefore] at hxmit
    exact hxmit rfl
  · rintro ⟨before, hmem, rfl⟩
    obtain ⟨hbefore, hdue⟩ := List.mem_filter.mp hmem
    obtain ⟨i, hi⟩ := List.mem_iff_getElem?.mp hbefore
    refine ⟨i, by rw [List.getElem?_map, hi]; rfl, ?_⟩
    have hmark := (self.due_iff_mark clk.now before).mpr (of_decide_eq_true hdue)
    rw [xmit_mark_segment, if_neg hmark, xmit_before_ready hi]
    exact xmit_succ_ne _

/-- The counts with which the segments leave. -/
theorem xmit_sent_segments (self : KcpEngine) (current : Timestamp) :
    (self.sent_segments current).map KcpSegment.xmit = self.next_counts current := by
  obtain ⟨fresh, hfresh⟩ : ∃ fresh, fresh = self.numbered current self.snd_nxt (self.snd_queue.take self.admitted) :=
    ⟨_, rfl⟩
  have hzero : ∀ s ∈ fresh, s.xmit = 0 := by
    rw [hfresh]
    exact self.xmit_numbered current _ _
  have hlen : fresh.length = self.admitted := by
    rw [hfresh, length_numbered, List.length_take_of_le self.admitted_le]
  have hready : (self.ready current).snd_buf = self.snd_buf ++ fresh := by rw [ready_eq, hfresh]
  have hall : (fresh.filter fun s => Due self current s) = fresh := by
    rw [List.filter_eq_self]
    exact fun s hs => decide_eq_true (.inl (hzero s hs))
  have hxmit : ∀ s, Due self current s →
      (self.mark_segment current self.resend_threshold self.rto_margin s).xmit = s.xmit + 1 := by
    intro s hs
    rw [xmit_mark_segment, if_neg ((self.due_iff_mark current s).mpr hs)]
  unfold sent_segments next_counts
  rw [hready, List.filter_append, hall, List.map_append, List.map_append, List.map_map, List.map_map, ← hlen]
  congr 1
  · exact List.map_congr_left fun s hs => hxmit s (of_decide_eq_true (List.mem_filter.mp hs).2)
  · rw [← List.map_const']
    refine List.map_congr_left fun s hs => ?_
    rw [Function.comp_apply, hxmit s (.inl (hzero s hs)), hzero s hs]
    rfl

/-! ### The dead-link test -/

/-- Up to the first dead segment. -/
theorem upto_dead_prefix (dead_link : U32) (segments : List KcpSegment) : upto_dead dead_link segments <+: segments := by
  induction segments with
  | nil => exact List.prefix_rfl
  | cons segment rest ih =>
    unfold upto_dead
    split
    · exact ⟨rest, rfl⟩
    · exact List.cons_prefix_cons.mpr ⟨rfl, ih⟩

/-- Everything is encoded exactly if no segment but the last comes to the threshold. -/
theorem upto_dead_eq_iff (dead_link : U32) (segments : List KcpSegment) :
    upto_dead dead_link segments = segments ↔ ∀ n ∈ (segments.map KcpSegment.xmit).dropLast, n < dead_link := by
  induction segments with
  | nil => simp [upto_dead]
  | cons segment rest ih =>
    unfold upto_dead
    by_cases hlast : rest = []
    · subst hlast
      simp [upto_dead]
    · have hne : rest.map KcpSegment.xmit ≠ [] := by simpa using hlast
      rw [List.map_cons, List.dropLast_cons_of_ne_nil hne]
      by_cases hdead : dead_link ≤ segment.xmit
      · rw [if_pos hdead]
        constructor
        · intro h
          exact absurd (List.cons.inj h).2.symm hlast
        · intro h
          have hlt := h segment.xmit List.mem_cons_self
          rw [BitVec.le_def] at hdead
          rw [BitVec.lt_def] at hlt
          omega
      · rw [if_neg hdead, List.cons_inj_right, ih, List.forall_mem_cons]
        rw [BitVec.not_le] at hdead
        exact ⟨fun h => ⟨hdead, h⟩, And.right⟩

/-- No segment of the buffer is encoded twice. -/
theorem nodup_sent_segments {self : KcpEngine} {clk : Clock} (h : Spanned (self.flush clk).1) :
    (self.sent_segments clk.now).Nodup := by
  have hsns : ((self.flush clk).1.snd_buf.map fun s => s.header.sn).Nodup := by
    refine h.ascending.increasing.imp ?_
    rintro x y hlt rfl
    exact Nat.lt_irrefl _ hlt
  have hbuf := hsns.of_map
  rw [snd_buf_flush] at hbuf
  exact hbuf.sublist (List.filter_sublist.map _)

/-- Everything counted as sent is encoded, and everything encoded is counted, exactly if no
due segment but the last comes to the dead-link threshold. -/
theorem marks_match_iff {self : KcpEngine} {clk : Clock} (h : Spanned (self.flush clk).1) :
    ((∀ s, Incremented self clk s → s ∈ self.data_out clk) ∧ ∀ s ∈ self.data_out clk, Incremented self clk s) ↔
      LastDead self clk.now := by
  have hdue : self.data_out clk = upto_dead self.dead_link (self.sent_segments clk.now) := by
    rw [data_out, due_ready_eq]
  simp only [incremented_iff]
  rw [hdue, LastDead, ← xmit_sent_segments, ← upto_dead_eq_iff]
  constructor
  · rintro ⟨hsent, _⟩
    obtain ⟨rest, hrest⟩ := upto_dead_prefix self.dead_link (self.sent_segments clk.now)
    have hnodup := nodup_sent_segments h
    rw [← hrest] at hnodup
    -- a segment behind the cut would stand before it as well
    have hnil : rest = [] := by
      rw [List.eq_nil_iff_forall_not_mem]
      intro s hs
      have hmem : s ∈ self.sent_segments clk.now := hrest ▸ List.mem_append_right _ hs
      exact (List.disjoint_of_nodup_append hnodup) (hsent s hmem) hs
    rwa [hnil, List.append_nil] at hrest
  · intro heq
    rw [heq]
    exact ⟨fun _ hs => hs, fun _ hs => hs⟩

end KcpEngine

open KcpEngine

/-- A flush puts ACKs, probes and segments of the buffer on the wire. What it counts as sent
and what it encodes of the buffer is the same if and only if of the due segments at most the
last one comes to the dead-link threshold. -/
theorem marks_match_emissions_iff (origin : Origin) (ops : List Op) (clk : Clock) :
    ((origin.reached ops).flush clk).1.emitted = (origin.reached ops).emitted ++
        ((origin.reached ops).acks_out clk ++ (origin.reached ops).probes_out clk ++
          (origin.reached ops).data_out clk).flatMap KcpSegment.bytes ∧
      (((∀ s, Incremented (origin.reached ops) clk s → s ∈ (origin.reached ops).data_out clk) ∧
          ∀ s ∈ (origin.reached ops).data_out clk, Incremented (origin.reached ops) clk s) ↔
        LastDead (origin.reached ops) clk.now) := by
  have hspanned := origin.spanned (ops ++ [.flush clk])
  rw [origin.reached_append] at hspanned
  exact ⟨emitted_flush .., marks_match_iff hspanned⟩

/-- With one retransmission allowed and two bytes queued, both segments are counted as sent
and only the first is. -/
theorem marked_not_emitted :
    ((one_retry.reached [.send (.at 0) [1], .send (.at 0) [2]]).flush (.at 0)).2 = .error .ConnectionLost ∧
      ((one_retry.reached [.send (.at 0) [1], .send (.at 0) [2]]).flush (.at 0)).1.snd_buf.map
        (fun s => (s.data, s.xmit)) = [([1], 1), ([2], 1)] ∧
      (one_retry.reached [.send (.at 0) [1], .send (.at 0) [2]]).snd_buf = [] ∧
      ((one_retry.reached [.send (.at 0) [1], .send (.at 0) [2]]).data_out (.at 0)).map KcpSegment.data = [[1]] := by
  decide +kernel

end kcp_core.engine
