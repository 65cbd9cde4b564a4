import Kcp.Engine.RecvShape

open kcp_core.protocol kcp_core.config kcp_core.error

namespace kcp_core.engine.KcpEngine

/-! ### Segments on their way in -/

/-- A segment split off the front of a buffer: its header is the one at the front, and
it takes exactly the bytes that its size says. -/
theorem next_segment_some {buf rest : Bytes} {segment : KcpSegment} (h : next_segment buf = some (segment, rest)) :
    segment.data.length = segment.header.len.toNat ∧ segment.size + rest.length = buf.length := by
  unfold next_segment at h
  cases hheader : KcpHeader.decode buf with
  | none => rw [hheader] at h; cases h
  | some out =>
    obtain ⟨header, after⟩ := out
    simp only [hheader] at h
    split at h
    · cases h
    · rename_i hlen
      simp only [KcpSegment.decode] at h
      cases hagain : KcpHeader.decode (buf.take (KcpHeader.SIZE + header.len.toNat)) with
      | none => rw [hagain] at h; cases h
      | some out =>
        obtain ⟨own, payload⟩ := out
        simp only [hagain] at h
        have hpayload : payload.length + KcpHeader.SIZE =
            (buf.take (KcpHeader.SIZE + header.len.toNat)).length := by
          unfold KcpHeader.decode at hagain
          split at hagain
          · cases hagain
          · rename_i hlong
            simp only [get_u32_le, get_u8, get_u16_le, Option.some.injEq, Prod.mk.injEq] at hagain
            rw [← hagain.2]
            simp only [List.length_drop, KcpHeader.SIZE] at hlong ⊢
            omega
        by_cases hown : payload.length = own.len.toNat
        · simp only [hown, ne_eq, not_true_eq_false, if_false, Option.some.injEq, Prod.mk.injEq] at h
          obtain ⟨rfl, rfl⟩ := h
          rw [List.length_take] at hpayload
          refine ⟨hown, ?_⟩
          simp only [KcpSegment.size, List.length_drop]
          omega
        · simp [hown] at h

/-- Every segment split off a datagram fits in it. -/
theorem split_segments_size {data : Bytes} : ∀ segment ∈ split_segments data, segment.size ≤ data.length := by
  have hloop : ∀ fuel buf, ∀ segment ∈ split_loop fuel buf, segment.size ≤ buf.length := by
    intro fuel
    induction fuel with
    | zero => intro buf segment h; cases h
    | succ fuel ih =>
      intro buf segment h
      unfold split_loop at h
      cases hnext : next_segment buf with
      | none => simp [hnext] at h
      | some out =>
        obtain ⟨first, rest⟩ := out
        obtain ⟨_, hsize⟩ := next_segment_some hnext
        rw [hnext] at h
        rcases List.mem_cons.mp h with rfl | h
        · omega
        · have := ih rest segment h
          omega
  exact hloop _ data

/-! ### Segments held -/

/-- Every segment the receive side holds, in the queue or in the reorder buffer. -/
structure Stored (P : KcpSegment → Prop) (e : KcpEngine) : Prop where
  queue : ∀ segment ∈ e.rcv_queue, P segment
  buf : ∀ k segment, e.rcv_buf.lookup k = some segment → P segment

variable {P : KcpSegment → Prop}

theorem Stored.refill {e : KcpEngine} (h : Stored P e) {segment : KcpSegment}
    (hnext : e.rcv_buf.lookup e.rcv_nxt = some segment) : Stored P (e.refill segment) where
  queue := by
    intro s hs
    rcases List.mem_append.mp hs with hs | hs
    · exact h.queue s hs
    · rw [List.mem_singleton.mp hs]
      exact h.buf _ _ hnext
  buf := by
    intro k s hk
    by_cases heq : k = e.rcv_nxt
    · subst heq
      simp [KcpEngine.refill, AList.lookup_erase] at hk
    · simp only [KcpEngine.refill, AList.lookup_erase_ne heq] at hk
      exact h.buf k s hk

theorem Stored.move_to_recv_queue {e : KcpEngine} (h : Stored P e) : Stored P e.move_to_recv_queue :=
  move_to_recv_queue_rule (fun _ _ hst hnext _ => hst.refill hnext) h

theorem Stored.drop {e : KcpEngine} (h : Stored P e) (k : Nat) :
    Stored P { e with rcv_queue := e.rcv_queue.drop k } :=
  ⟨fun s hs => h.queue s (List.mem_of_mem_drop hs), h.buf⟩

theorem stored_recv {e : KcpEngine} (h : Stored P e) : Stored P e.recv.1 := by
  obtain ⟨_, heq⟩ | ⟨_, _, k, _, heq⟩ := e.recv_cases
  · rw [heq]; exact h
  · rw [heq]
    split
    · exact h.drop k
    · obtain ⟨flags, hflags⟩ := tell_window_shape e (e.popped k).move_to_recv_queue
      have hmove := Stored.move_to_recv_queue (e := e.popped k) ⟨(h.drop k).queue, h.buf⟩
      simp only [hflags]
      exact ⟨hmove.queue, hmove.buf⟩

theorem stored_parse_data {e : KcpEngine} (h : Stored P e) {segment : KcpSegment} (hseg : P segment) :
    Stored P (e.parse_data segment) := by
  unfold parse_data
  dsimp only
  split
  · exact h
  · apply Stored.move_to_recv_queue
    refine ⟨h.queue, ?_⟩
    intro k s hk
    dsimp only at hk
    split at hk
    · exact h.buf k s hk
    · by_cases heq : k = segment.header.sn
      · subst heq
        rw [AList.lookup_insert, Option.some.injEq] at hk
        exact hk ▸ hseg
      · rw [AList.lookup_insert_ne heq] at hk
        exact h.buf k s hk

theorem stored_input_push {e : KcpEngine} (h : Stored P e) {segment : KcpSegment} (hseg : P segment) :
    Stored P (e.input_push segment) := by
  unfold input_push
  split
  · dsimp only
    split
    · apply stored_parse_data
      · exact ⟨h.queue, h.buf⟩
      · exact hseg
    · exact ⟨h.queue, h.buf⟩
  · exact h

/-- What is held after `input` was held before or is data of this conversation from
the datagram. -/
theorem stored_input {e : KcpEngine} (h : Stored P e) (current : Timestamp) {data : Bytes}
    (hdata : ∀ segment ∈ split_segments data, segment.header.conv = e.conv →
      segment.header.cmd = constants.IKCP_CMD_PUSH → P segment) : Stored P (e.input current data).1 := by
  by_cases hshort : data.length < KcpHeader.SIZE
  · rw [input_short hshort]
    exact ⟨h.queue, h.buf⟩
  · rw [input_eq hshort]
    have hloop : Stored P (e.input_loop current data).1 ∧ (e.input_loop current data).1.conv = e.conv := by
      apply input_loop_rule (P := fun e' => Stored P e' ∧ e'.conv = e.conv)
      · rintro segment hmem ⟨acc, track⟩ ⟨hst, hconv⟩
        refine ⟨?_, (loopFrame_input_segment current segment (acc, track)).conv.trans hconv⟩
        by_cases hown : segment.header.conv = acc.conv
        · apply input_segment_rule
          · exact fun _ _ h => ⟨h.queue, h.buf⟩
          · exact fun _ h => ⟨h.queue, h.buf⟩
          · intro _ e h
            obtain ⟨avg, var, rto, stats, buf, heq, _⟩ := input_ack_shape e current segment
            rw [heq]
            exact ⟨h.queue, h.buf⟩
          · exact fun hcmd _ h => stored_input_push h (hdata segment hmem (hown.trans hconv) hcmd)
          · exact fun _ h => ⟨h.queue, h.buf⟩
          · exact hst
        · simp only [input_segment, ne_eq, hown, not_false_eq_true, if_true]
          exact hst
      · exact ⟨⟨h.queue, h.buf⟩, rfl⟩
    obtain ⟨buf, cwnd, incr, received, hfinish, _⟩ := input_finish_shape
      (e.input_loop current data).1 e.snd_una (e.input_loop current data).2
    rw [hfinish]
    exact ⟨hloop.1.queue, hloop.1.buf⟩

end kcp_core.engine.KcpEngine
