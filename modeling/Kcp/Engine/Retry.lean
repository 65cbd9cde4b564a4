import Kcp.Engine.Answer
import Kcp.Engine.Check
import Kcp.Engine.DeadLink

/-! What a flush does while every segment can still be sent once more: it sends all that is
due, and what it does not send stays as it was. -/

open kcp_core.protocol kcp_core.config kcp_core.error

namespace kcp_core.engine.KcpEngine

/-- The segment can be sent once more without reaching the limit. -/
def Spare (e : KcpEngine) (s : KcpSegment) : Prop := s.xmit.toNat + 1 < e.dead_link.toNat

instance decidableSpare (e : KcpEngine) (s : KcpSegment) : Decidable (Spare e s) := inferInstanceAs (Decidable (_ < _))

/-- Nothing waits to leave. -/
def Clean (e : KcpEngine) : Prop := e.output_queue = [] ∧ e.out_buf = []

variable {e : KcpEngine}

/-- Nothing that is sent reaches the limit. -/
theorem flush_lives (hfresh : 1 < e.dead_link.toNat) (hspare : ∀ s ∈ e.snd_buf, Spare e s) (current : Timestamp) :
    e.flush_dies current = false := by
  rw [Bool.eq_false_iff, ne_eq, flush_dies_iff]
  rintro ⟨s, hs, _, hdead⟩
  have hlt : s.xmit.toNat + 1 < e.dead_link.toNat := by
    rcases mem_ready.mp hs with hs | hs
    · exact hspare s hs
    · rw [e.xmit_numbered current _ _ s hs]
      exact hfresh
  have hbelow : s.xmit.toNat < e.dead_link.toNat := Nat.lt_of_succ_lt hlt
  rw [BitVec.le_def, toNat_add_one_of_lt hbelow] at hdead
  omega

/-- A flush that gives up on nothing sends all there is. -/
theorem emissions_of_lives {clk : Clock} (hlives : e.flush_dies clk.now = false) :
    e.emissions clk = e.acks_out clk ++ e.probes_out clk ++ e.sent_segments clk.now := by
  rw [emissions, upto_dead_eq hlives, due_ready_eq]

/-- A segment in flight after the flush has just been sent, or is as it was. -/
theorem flushed_cases {clk : Clock} {s : KcpSegment} (hs : s ∈ (e.flush clk).1.snd_buf) :
    s ∈ e.snd_buf ∨ s ∈ e.sent_segments clk.now := by
  obtain ⟨queue, buf, stats, heq⟩ := e.flush_shape clk
  rw [heq] at hs
  obtain ⟨before, hbefore, rfl⟩ := List.mem_map.mp hs
  have hready : before ∈ (e.ready clk.now).snd_buf := mem_ready.mpr (List.mem_append.mp hbefore)
  by_cases hdue : Due e clk.now before
  · exact .inr (List.mem_map_of_mem (List.mem_filter.mpr ⟨hready, decide_eq_true hdue⟩))
  · left
    have hhold : mark_of clk.now e.resend_threshold before = .hold := by
      by_contra hmark
      exact hdue ((e.due_iff_mark clk.now before).mp hmark)
    have hsame : e.mark_segment clk.now e.resend_threshold e.rto_margin before = before := by
      unfold mark_segment
      rw [hhold]
    rw [hsame]
    rcases mem_ready.mp hready with hbuf | hnew
    · exact hbuf
    · rw [e.mark_numbered clk.now clk.now _ _ _ before hnew] at hhold
      cases hhold

/-- A segment in flight or in the queue stays in one of the two. -/
def backlog (e : KcpEngine) : Nat := e.snd_buf.length + e.snd_queue.length

/-- A flush takes nothing off the backlog. -/
theorem backlog_flush (e : KcpEngine) (clk : Clock) : (e.flush clk).1.backlog = e.backlog := by
  obtain ⟨queue, buf, stats, heq⟩ := e.flush_shape clk
  have hle := e.admitted_le
  have hnumbered := e.length_numbered clk.now e.snd_nxt (e.snd_queue.take e.admitted)
  rw [List.length_take, Nat.min_eq_left hle] at hnumbered
  rw [heq]
  unfold backlog flushed_buf
  simp only [List.length_map, List.length_append, List.length_drop]
  omega

/-- Unsent data is a backlog. -/
theorem has_unsent_data_iff (e : KcpEngine) : e.has_unsent_data = false ↔ e.backlog = 0 := by
  unfold has_unsent_data backlog
  simp only [Bool.or_eq_false_iff, Bool.not_eq_false', List.isEmpty_iff, Nat.add_eq_zero_iff, List.length_eq_zero_iff]
  exact and_comm

/-- What was just sent is in flight. -/
theorem sent_in_flight {clk : Clock} {s : KcpSegment} (hs : s ∈ e.sent_segments clk.now) : s ∈ (e.flush clk).1.snd_buf := by
  obtain ⟨before, hbefore, rfl⟩ := List.mem_map.mp hs
  have hready := (List.mem_filter.mp hbefore).1
  obtain ⟨queue, buf, stats, heq⟩ := e.flush_shape clk
  rw [heq]
  exact List.mem_map_of_mem (List.mem_append.mpr (mem_ready.mp hready))

/-! ### When something is sent -/

end kcp_core.engine.KcpEngine
