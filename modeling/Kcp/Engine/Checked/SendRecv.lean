import Kcp.Engine.Checked
import Kcp.Engine.Fragment
import Kcp.Engine.RecvInvariant

/-! Where the operations of a call stay in range, the debug build does what the engine does. -/

open kcp_core.protocol kcp_core.config kcp_core.error

namespace kcp_core.engine.checked

/-! ### Small parts -/

section

variable {e : KcpEngine}

theorem mss_eq (hmtu : 24 ≤ e.config.mtu.toNat) : mss e = some e.mss := Checked.sub_eq hmtu

theorem wnd_unused_eq : wnd_unused e = some e.wnd_unused := by
  unfold wnd_unused KcpEngine.wnd_unused
  split
  · rename_i hroom
    have hlt := e.wnd.rcv.isLt
    apply Checked.sub_eq
    rw [BitVec.toNat_ofNat, Nat.mod_eq_of_lt (by omega)]
    omega
  · rfl

theorem advertised_wnd_eq : advertised_wnd e = some e.advertised_wnd := by
  unfold advertised_wnd
  rw [wnd_unused_eq]
  rfl

theorem reset_cwnd_eq (hmtu : 24 ≤ e.config.mtu.toNat) : reset_cwnd e = some e.reset_cwnd := by
  unfold reset_cwnd
  rw [mss_eq hmtu]
  rfl

end

/-! ### Sending -/

/-- Merging slices within the data. -/
theorem merge_into_last_eq (mss : Nat) (queue : List KcpSegment) (data : Bytes) :
    merge_into_last mss queue data =
      some ((KcpEngine.merge_into_last mss queue data).1, (KcpEngine.merge_into_last mss queue data).2,
        data.drop (KcpEngine.merge_into_last mss queue data).2) := by
  unfold merge_into_last KcpEngine.merge_into_last
  cases queue.getLast? with
  | none => rfl
  | some last =>
    by_cases hroom : last.data.length < mss
    · have hle : min data.length (mss - last.data.length) ≤ data.length := Nat.min_le_left _ _
      have hfront := Checked.slice_eq (Nat.zero_le (min data.length (mss - last.data.length))) hle
      have hrest := Checked.slice_eq hle le_rfl
      simp only [hroom, if_true, Checked.sub64_eq hroom.le, Option.bind_eq_bind, Option.bind_some, hfront, hrest,
        List.drop_zero, List.take_length, Option.pure_def]
    · simp only [hroom, if_false, List.drop_zero]

theorem fragment_count_eq {mss : Nat} (hmss : 0 < mss) (len : Nat) :
    fragment_count mss len = some (KcpEngine.fragment_count mss len) := by
  unfold fragment_count KcpEngine.fragment_count
  split
  · rfl
  · exact Checked.div_ceil64_eq hmss

/-- The loop over the fragments slices within the data. -/
theorem fragment_loop_eq (conv : ConvId) (stream_mode : Bool) (mss count : Nat) (clk : Clock) {data : Bytes}
    (hdata : data.length < 2 ^ 64) (remaining offset : Nat) (hcount : remaining ≤ count)
    (hoffset : offset ≤ data.length) :
    fragment_loop conv stream_mode mss count clk data remaining offset =
      some (KcpEngine.fragment_loop conv stream_mode mss count clk data remaining offset) := by
  induction remaining generalizing offset with
  | zero => rfl
  | succ remaining ih =>
    have hstop : offset + min mss (data.length - offset) ≤ data.length := by omega
    have hslice := Checked.slice_eq (Nat.le_add_right offset (min mss (data.length - offset))) hstop
    rw [List.drop_take, Nat.add_sub_cancel_left] at hslice
    have hrest := ih (offset + min mss (data.length - offset)) (by omega) hstop
    unfold fragment_loop KcpEngine.fragment_loop
    simp only [Checked.sub64_eq hoffset, Checked.add64_eq (show offset + min mss (data.length - offset) < 2 ^ 64 by omega),
      hslice, hrest, Option.bind_eq_bind, Option.bind_some, Option.pure_def]
    cases stream_mode with
    | true => rfl
    | false =>
      simp only [Bool.false_eq_true, if_false, Checked.sub64_eq (show count - (remaining + 1) ≤ count by omega),
        Checked.sub64_eq (show 1 ≤ count - (count - (remaining + 1)) by omega), Option.bind_some]

/-- `send` does not fail while its counter fits. -/
theorem send_eq {e : KcpEngine} (hmtu : 24 < e.config.mtu.toNat) (clk : Clock) (data : Bytes)
    (hsent : (e.send clk data).1.stats.bytes_sent < 2 ^ 64) : send e clk data = some (e.send clk data) := by
  have hmss : 0 < e.mss.toNat := by
    unfold KcpEngine.mss
    rw [BitVec.toNat_sub_of_le (by rw [BitVec.le_def]; exact hmtu.le)]
    exact Nat.sub_pos_of_lt hmtu
  have hmerged : (if e.config.stream_mode then merge_into_last e.mss.toNat e.snd_queue data else
      some (e.snd_queue, 0, data)) = some ((e.merged data).1, (e.merged data).2, data.drop (e.merged data).2) := by
    unfold KcpEngine.merged
    cases e.config.stream_mode with
    | true => exact merge_into_last_eq ..
    | false => rfl
  rw [KcpEngine.send_eq] at hsent ⊢
  unfold send
  by_cases hempty : data.isEmpty = true
  · rw [if_pos hempty, if_pos hempty]
  · have hmss' : mss { e with last_activity := clk.now } = some e.mss := mss_eq hmtu.le
    simp only [if_neg hempty, hmss', Option.bind_eq_bind, Option.bind_some, hmerged] at hsent ⊢
    by_cases hrest : (data.drop (e.merged data).2).isEmpty = true
    · simp only [if_pos hrest] at hsent ⊢
      rw [Checked.add64_eq hsent]
      rfl
    · simp only [if_neg hrest, fragment_count_eq hmss, Option.bind_some] at hsent ⊢
      split
      · rfl
      · rename_i hfits
        rw [if_neg hfits] at hsent
        dsimp only at hsent
        rw [fragment_loop_eq _ _ _ _ _ (by omega) _ _ le_rfl (Nat.zero_le _), Checked.add64_eq hsent]
        rfl

/-! ### Receiving -/

theorem message_length_eq (queue : List KcpSegment) (length : Nat)
    (hlength : length + KcpEngine.message_length queue < 2 ^ 64) :
    message_length queue length = some (length + KcpEngine.message_length queue) := by
  induction queue generalizing length with
  | nil => rfl
  | cons segment rest ih =>
    unfold KcpEngine.message_length at hlength
    unfold message_length KcpEngine.message_length
    by_cases hlast : segment.header.frg = 0
    · simp only [hlast, if_true] at hlength ⊢
      rw [Checked.add64_eq hlength]
      rfl
    · simp only [hlast, if_false] at hlength ⊢
      rw [Checked.add64_eq (by omega)]
      exact (ih _ (by omega)).trans (by rw [Nat.add_assoc])

/-- `peek_size` does not overflow while the length fits 64 bits. -/
theorem peek_size_eq {e : KcpEngine} (hlength : KcpEngine.message_length e.rcv_queue < 2 ^ 64) :
    peek_size e = some e.peek_size := by
  unfold peek_size KcpEngine.peek_size
  cases hqueue : e.rcv_queue with
  | nil => rfl
  | cons segment rest =>
    have hfrg := segment.header.frg.isLt
    have htotal := message_length_eq (segment :: rest) 0 (by rw [Nat.zero_add, ← hqueue]; exact hlength)
    rw [Nat.zero_add] at htotal
    simp only [List.isEmpty_cons, Bool.false_eq_true, if_false, List.getElem?_cons_zero, Option.bind_eq_bind,
      Option.bind_some, Checked.add64_eq (show segment.header.frg.toNat + 1 < 2 ^ 64 by omega), htotal, Option.pure_def]
    split
    · rfl
    · split <;> rfl

/-- Every turn takes one number and one place in the queue. -/
theorem move_to_recv_queue_loop_eq (fuel : Nat) {e : KcpEngine}
    (hnxt : e.rcv_nxt.toNat + (e.wnd.rcv.toNat - e.rcv_queue.length) < 2 ^ 32) :
    move_to_recv_queue_loop fuel e = some (KcpEngine.move_to_recv_queue_loop fuel e) := by
  induction fuel generalizing e with
  | zero => rfl
  | succ fuel ih =>
    unfold move_to_recv_queue_loop KcpEngine.move_to_recv_queue_loop
    cases e.rcv_buf.lookup e.rcv_nxt with
    | none => rfl
    | some segment =>
      dsimp only
      split
      · rfl
      · rename_i hroom
        have hone : e.rcv_nxt.toNat + (1 : U32).toNat < 2 ^ 32 := by
          change e.rcv_nxt.toNat + 1 < 2 ^ 32
          omega
        rw [Checked.add_eq hone]
        apply ih
        dsimp only
        rw [Word.toNat_add_of_lt hone, List.length_append, List.length_singleton]
        change e.rcv_nxt.toNat + 1 + _ < 2 ^ 32
        omega

/-- To fill the queue does not overflow a window before the last number. -/
theorem move_to_recv_queue_eq {e : KcpEngine}
    (hnxt : e.rcv_nxt.toNat + (e.wnd.rcv.toNat - e.rcv_queue.length) < 2 ^ 32) :
    move_to_recv_queue e = some e.move_to_recv_queue := move_to_recv_queue_loop_eq _ hnxt

theorem parse_data_eq {e : KcpEngine} (hnxt : e.rcv_nxt.toNat + e.wnd.rcv.toNat < 2 ^ 32) (newseg : KcpSegment) :
    parse_data e newseg = some (e.parse_data newseg) := by
  unfold parse_data KcpEngine.parse_data
  simp only [Checked.add_eq hnxt, Option.bind_eq_bind, Option.bind_some]
  split
  · rfl
  · apply move_to_recv_queue_eq
    dsimp only
    omega

/-- The assembly stays within the size that was peeked. -/
theorem recv_loop_eq {peek_size : Nat} (hpeek : peek_size < 2 ^ 31) {queue : List KcpSegment}
    (hqueue : ∀ s ∈ queue, s.data.length ≤ 65511) {data : Bytes} (hdata : data.length ≤ peek_size) :
    recv_loop peek_size queue data = some (KcpEngine.recv_loop peek_size queue data) := by
  induction queue generalizing data with
  | nil => rfl
  | cons segment rest ih =>
    have hsize := hqueue segment List.mem_cons_self
    unfold recv_loop KcpEngine.recv_loop
    simp only [Checked.add64_eq (show data.length + segment.data.length < 2 ^ 64 by omega), Option.bind_eq_bind,
      Option.bind_some]
    split
    · rfl
    · rename_i hfits
      split
      · rfl
      · exact ih (fun s hs => hqueue s (List.mem_cons_of_mem _ hs)) (by rw [List.length_append]; omega)

/-- `recv` does not fail while its counter fits. -/
theorem recv_eq {e : KcpEngine} (hshort : ∀ s ∈ e.rcv_queue, KcpEngine.Short s)
    (hqueue : e.rcv_queue.length ≤ 65535) (hnxt : e.rcv_nxt.toNat + e.wnd.rcv.toNat < 2 ^ 32)
    (hreceived : e.recv.1.stats.bytes_received < 2 ^ 64) : recv e = some e.recv := by
  have hlength := KcpEngine.message_length_le hshort
  have hcap : e.rcv_queue.length * 65511 ≤ 65535 * 65511 := Nat.mul_le_mul_right _ hqueue
  have hpeek : e.peek_size < 2 ^ 31 := by
    unfold KcpEngine.peek_size
    split
    · omega
    · split
      · exact BitVec.toInt_lt
      · split
        · omega
        · exact BitVec.toInt_lt
  unfold recv
  unfold KcpEngine.recv at hreceived ⊢
  by_cases hempty : e.rcv_queue.isEmpty = true
  · rw [if_pos hempty, if_pos hempty]
  · simp only [if_neg hempty, peek_size_eq (show KcpEngine.message_length e.rcv_queue < 2 ^ 64 by omega),
      Option.bind_eq_bind, Option.bind_some] at hreceived ⊢
    by_cases hnone : e.peek_size ≤ 0
    · rw [if_pos hnone, if_pos hnone]
    · have hloop : recv_loop e.peek_size.toNat e.rcv_queue [] = _ :=
        recv_loop_eq (by omega) hshort (Nat.zero_le _)
      simp only [if_neg hnone, hloop, Option.bind_some] at hreceived ⊢
      by_cases hdata : (KcpEngine.recv_loop e.peek_size.toNat e.rcv_queue []).1.isEmpty = true
      · rw [if_pos hdata, if_pos hdata]
      · simp only [if_neg hdata] at hreceived ⊢
        obtain ⟨queue, buf, nxt, hmove⟩ := KcpEngine.move_to_recv_queue_shape
          { e with
            rcv_queue := (KcpEngine.recv_loop e.peek_size.toNat e.rcv_queue []).2
            stats := { e.stats with bytes_received := e.stats.bytes_received +
              (KcpEngine.recv_loop e.peek_size.toNat e.rcv_queue []).1.length } }
        have htotal : e.stats.bytes_received + (KcpEngine.recv_loop e.peek_size.toNat e.rcv_queue []).1.length < 2 ^ 64 := by
          rw [hmove] at hreceived
          split at hreceived <;> exact hreceived
        rw [Checked.add64_eq htotal, Option.bind_some, move_to_recv_queue_eq (by dsimp only; omega)]
        rfl

end kcp_core.engine.checked
