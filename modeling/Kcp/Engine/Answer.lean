import Kcp.Engine.AckSearch
import Kcp.Engine.Advertise

/-! What `input` answers: data in the window is acknowledged, what is acknowledged leaves the
send buffer, and a window request is answered. -/

open kcp_core.protocol kcp_core.config kcp_core.error

namespace kcp_core.engine.KcpEngine

/-- A datagram with a segment is long enough for a header. -/
theorem long_of_mem_split {data : Bytes} {segment : KcpSegment} (h : segment ∈ split_segments data) :
    ¬ data.length < KcpHeader.SIZE := by
  have hsize := split_segments_size segment h
  unfold KcpSegment.size at hsize
  omega

/-! ### Data -/

theorem ack_list_input_segment (current : Timestamp) (acc : KcpEngine × AckTrack) (segment : KcpSegment) :
    acc.1.ack_list <+: (input_segment current acc segment).1.ack_list := by
  apply input_segment_rule (P := fun e => acc.1.ack_list <+: e.ack_list)
  · exact fun _ _ h => h
  · exact fun _ h => h
  · intro _ e h
    obtain ⟨_, _, _, _, _, heq, _⟩ := input_ack_shape e current segment
    rw [heq]
    exact h
  · intro _ e h
    refine h.trans ?_
    unfold input_push
    split
    · dsimp only
      split
      · obtain ⟨_, _, _, heq⟩ := parse_data_shape (e.ack_push segment.header.sn segment.header.ts) segment
        rw [heq]
        exact List.prefix_append ..
      · exact List.prefix_append ..
    · exact List.prefix_rfl
  · exact fun _ h => h
  · exact List.prefix_rfl

/-- A segment accepts as the loop of `input` does. -/
theorem Received.input_segment {before : KcpEngine} {n m : Nat} {acc : KcpEngine × AckTrack} (h : Received before n m acc.1)
    (hwnd : before.wnd.rcv.toNat ≤ 65535) (hpos : 0 < before.wnd.rcv.toNat) (current : Timestamp) (segment : KcpSegment) :
    ∃ m', Received before n m' (input_segment current acc segment).1 := by
  apply input_segment_rule (P := fun e => ∃ m, Received before n m e)
  · rintro e rmt ⟨m, hrec⟩
    exact ⟨m, hrec.congr rfl rfl rfl rfl rfl rfl⟩
  · rintro e ⟨m, hrec⟩
    exact ⟨m, hrec.congr rfl rfl rfl rfl rfl rfl⟩
  · rintro _ e ⟨m, hrec⟩
    obtain ⟨_, _, _, _, _, heq, _⟩ := input_ack_shape e current segment
    rw [heq]
    exact ⟨m, hrec.congr rfl rfl rfl rfl rfl rfl⟩
  · rintro _ e ⟨m, hrec⟩
    exact hrec.input_push hwnd hpos segment
  · rintro e ⟨m, hrec⟩
    exact ⟨m, hrec.congr rfl rfl rfl rfl rfl rfl⟩
  · exact ⟨m, h⟩

/-- A number of the first `n + wnd` passes the window test once `n` have been accepted. -/
theorem seq_before_of_lt {n k : Nat} {wnd : U32} (hwnd : wnd.toNat ≤ 65535) (hk : k < n + wnd.toNat)
    (hn : n + wnd.toNat ≤ 2 ^ 31) : seq_before (BitVec.ofNat 32 k) (BitVec.ofNat 32 n + wnd) = true := by
  rw [seq_before_window_iff _ _ hwnd]
  by_cases hle : n ≤ k
  · left
    rw [offset_ofNat hle (by omega)]
    omega
  · right
    have hwrap : Serial.offset (BitVec.ofNat 32 n) (BitVec.ofNat 32 k) = 2 ^ 32 - (n - k) := by
      unfold Serial.offset
      rw [BitVec.toNat_sub, BitVec.toNat_ofNat, BitVec.toNat_ofNat, Nat.mod_eq_of_lt (a := n) (by omega),
        Nat.mod_eq_of_lt (a := k) (by omega)]
      omega
    omega

/-- Data that passes the window test is acknowledged. -/
theorem mem_ack_list_input_push {e : KcpEngine} {segment : KcpSegment}
    (h : seq_before segment.header.sn (e.rcv_nxt + e.wnd.rcv) = true) :
    (segment.header.sn, segment.header.ts) ∈ (e.input_push segment).ack_list := by
  have hmem : (segment.header.sn, segment.header.ts) ∈ (e.ack_push segment.header.sn segment.header.ts).ack_list :=
    List.mem_append_right _ List.mem_cons_self
  unfold input_push
  rw [if_pos h]
  dsimp only
  split
  · obtain ⟨_, _, _, heq⟩ := parse_data_shape (e.ack_push segment.header.sn segment.header.ts) segment
    rw [heq]
    exact hmem
  · exact hmem

/-- The data segments of a datagram that the window reaches at its start are all acknowledged. -/
theorem input_answers {e : KcpEngine} {n : Nat} (h : RecvCount n e) (hwnd : e.wnd.rcv.toNat ≤ 65535)
    (hpos : 0 < e.wnd.rcv.toNat) (hn : n ≤ 2 ^ 30) (current : Timestamp) {data : Bytes} {segment : KcpSegment}
    (hmem : segment ∈ split_segments data) (hconv : segment.header.conv = e.conv)
    (hcmd : segment.header.cmd = constants.IKCP_CMD_PUSH) {k : Nat} (hsn : segment.header.sn = BitVec.ofNat 32 k)
    (hk : k < n + e.wnd.rcv.toNat) :
    (segment.header.sn, segment.header.ts) ∈ (e.input current data).1.ack_list := by
  have hlong := long_of_mem_split hmem
  have hgrow : ∀ (segments : List KcpSegment) (acc : KcpEngine × AckTrack),
      acc.1.ack_list <+: (segments.foldl (input_segment current) acc).1.ack_list := by
    intro segments
    induction segments with
    | nil => exact fun _ => List.prefix_rfl
    | cons first rest ih => exact fun acc => (ack_list_input_segment current acc first).trans (ih _)
  -- up to the segment the loop accepts at most a window, so its number is still in reach
  have hloop : ∀ (segments : List KcpSegment) (acc : KcpEngine × AckTrack), (∃ m, Received e n m acc.1) →
      segment ∈ segments →
      (segment.header.sn, segment.header.ts) ∈ (segments.foldl (input_segment current) acc).1.ack_list := by
    intro segments
    induction segments with
    | nil => exact fun _ _ h => absurd h List.not_mem_nil
    | cons first rest ih =>
      rintro acc ⟨m, hrec⟩ hin
      rw [List.foldl_cons]
      rcases List.mem_cons.mp hin with rfl | hin
      · apply (hgrow rest _).subset
        have hle := hrec.le
        have hgrown := hrec.grown
        have hcap := hrec.count.window.capped
        have hrcv := congrArg BitVec.toNat hrec.rcv
        have hpush : ∀ e', Received e n m e' → (segment.header.sn, segment.header.ts) ∈ (e'.input_push segment).ack_list := by
          intro e' hrec'
          apply mem_ack_list_input_push
          rw [hsn, hrec'.count.nxt, hrec'.rcv]
          exact seq_before_of_lt hwnd (by omega) (by omega)
        obtain ⟨e', track⟩ := acc
        unfold input_segment
        dsimp only at hrec ⊢
        have hack : ¬ segment.header.cmd = constants.IKCP_CMD_ACK := by
          rw [hcmd]
          decide
        rw [if_neg (not_not.mpr (hconv.trans hrec.conv.symm)), if_neg hack, if_pos hcmd]
        exact hpush _ (hrec.congr rfl rfl rfl rfl rfl rfl)
      · exact ih _ (hrec.input_segment hwnd hpos current first) hin
  rw [input_eq hlong]
  obtain ⟨_, _, _, _, hfinish, _⟩ := input_finish_shape
    (e.input_loop current data).1 e.snd_una (e.input_loop current data).2
  rw [hfinish]
  exact hloop _ _ ⟨n, (Received.refl h).congr rfl rfl rfl rfl rfl rfl⟩ hmem

/-- No ACK is forgotten. -/
theorem ack_list_input (self : KcpEngine) (current : Timestamp) (data : Bytes) :
    self.ack_list <+: (self.input current data).1.ack_list := by
  by_cases hshort : data.length < KcpHeader.SIZE
  · rw [input_short hshort]
  · rw [input_eq hshort]
    obtain ⟨_, _, _, _, hfinish, _⟩ := input_finish_shape
      (self.input_loop current data).1 self.snd_una (self.input_loop current data).2
    rw [hfinish]
    apply input_loop_rule (P := fun e => self.ack_list <+: e.ack_list)
    · exact fun segment _ acc h => h.trans (ack_list_input_segment current acc segment)
    · exact List.prefix_rfl

/-! ### ACKs -/

/-- A number for which the datagram carries an ACK is not in flight after it. -/
theorem input_clears {e : KcpEngine} (h : Ordered e) (current : Timestamp) {data : Bytes} {segment : KcpSegment}
    (hmem : segment ∈ split_segments data) (hconv : segment.header.conv = e.conv)
    (hcmd : segment.header.cmd = constants.IKCP_CMD_ACK) : segment.header.sn ∉ (e.input current data).1.snd_sns := by
  have hlong := long_of_mem_split hmem
  have hsub : ∀ (segments : List KcpSegment) (acc : KcpEngine × AckTrack),
      (segments.foldl (input_segment current) acc).1.snd_buf.Sublist acc.1.snd_buf := by
    intro segments
    induction segments with
    | nil => exact fun _ => .refl _
    | cons first rest ih => exact fun acc => (ih _).trans (loopFrame_input_segment current first acc).snd_buf
  have hloop : ∀ (segments : List KcpSegment) (acc : KcpEngine × AckTrack), LoopFrame e acc.1 → segment ∈ segments →
      segment.header.sn ∉ (segments.foldl (input_segment current) acc).1.snd_sns := by
    intro segments
    induction segments with
    | nil => exact fun _ _ h => absurd h List.not_mem_nil
    | cons first rest ih =>
      intro acc hframe hin
      rw [List.foldl_cons]
      rcases List.mem_cons.mp hin with rfl | hin
      · intro hstill
        have hstill := ((hsub rest _).map fun s => s.header.sn).subset hstill
        obtain ⟨e', track⟩ := acc
        dsimp only at hframe
        have hacked : (input_segment current (e', track) segment).1 =
            (KcpEngine.parse_una { e' with wnd := { e'.wnd with rmt := segment.header.wnd.setWidth 32 } }
              segment.header.una).input_ack current segment := by
          unfold KcpEngine.input_segment
          dsimp only
          rw [if_neg (not_not.mpr (hconv.trans hframe.conv.symm)), if_pos hcmd]
        rw [hacked] at hstill
        -- the estimator leaves the buffer alone, so `parse_ack` sees an ordered one
        have hparse : ∀ e'' : KcpEngine, LoopFrame e e'' → segment.header.sn ∉ (e''.parse_ack segment.header.sn).snd_sns := by
          intro e'' hframe'' hin
          rw [((h.loop hframe'').parse_ack segment.header.sn).1] at hin
          obtain ⟨s, hs, heq⟩ := List.mem_map.mp hin
          exact of_decide_eq_true (List.mem_filter.mp hs).2 heq
        have huna : LoopFrame e (KcpEngine.parse_una
            { e' with wnd := { e'.wnd with rmt := segment.header.wnd.setWidth 32 } } segment.header.una) := by
          refine hframe.trans ?_
          constructor <;> first | rfl | exact List.dropWhile_sublist _
        unfold input_ack at hstill
        dsimp only at hstill
        split at hstill
        · refine hparse _ (huna.trans ?_) hstill
          obtain ⟨_, _, _, heq⟩ := update_ack_shape (KcpEngine.parse_una
            { e' with wnd := { e'.wnd with rmt := segment.header.wnd.setWidth 32 } } segment.header.una)
            (time_diff current segment.header.ts)
          rw [heq]
          constructor <;> rfl
        · exact hparse _ huna hstill
      · exact ih _ (hframe.trans (loopFrame_input_segment current first acc)) hin
  obtain ⟨_, _, _, _, hfinish, hcounted⟩ := input_finish_shape
    (e.input_loop current data).1 e.snd_una (e.input_loop current data).2
  rw [input_eq hlong, hfinish]
  unfold snd_sns
  dsimp only
  rw [forall₂_counted_map (fun _ _ => rfl) hcounted]
  refine hloop _ _ ?_ hmem
  constructor <;> rfl

/-- What is in flight after `input` was in flight before, sent as often. -/
theorem xmit_input (self : KcpEngine) (current : Timestamp) (data : Bytes) :
    ∀ s ∈ (self.input current data).1.snd_buf, ∃ before ∈ self.snd_buf,
      before.header.sn = s.header.sn ∧ before.xmit = s.xmit ∧ before.resendts = s.resendts := by
  obtain ⟨kept, hsub, hcounted, _⟩ := self.input_snd_buf current data
  intro s hs
  obtain ⟨before, hbefore, hcount⟩ := exists_counted hcounted s hs
  refine ⟨before, hsub.subset hbefore, ?_⟩
  rcases hcount with rfl | rfl
  · exact ⟨rfl, rfl, rfl⟩
  · exact ⟨rfl, rfl, rfl⟩

theorem length_snd_buf_input (self : KcpEngine) (current : Timestamp) (data : Bytes) :
    (self.input current data).1.snd_buf.length ≤ self.snd_buf.length := by
  obtain ⟨kept, hsub, hcounted, _⟩ := self.input_snd_buf current data
  rw [← hcounted.length_eq]
  exact hsub.length_le

/-- A window request is answered by the next flush. -/
theorem asked_of_wask (self : KcpEngine) (current : Timestamp) {data : Bytes} {segment : KcpSegment}
    (hmem : segment ∈ split_segments data) (hconv : segment.header.conv = self.conv)
    (hcmd : segment.header.cmd = constants.IKCP_CMD_WASK) : Asked (self.input current data).1 := by
  have hlong := long_of_mem_split hmem
  have hkeep : ∀ (acc : KcpEngine × AckTrack) (s : KcpSegment), Asked acc.1 → Asked (input_segment current acc s).1 := by
    intro acc s h
    apply input_segment_rule (P := Asked)
    · exact fun _ _ h => h
    · exact fun _ h => h
    · intro _ e h
      obtain ⟨_, _, _, _, _, heq, _⟩ := input_ack_shape e current s
      rw [heq]
      exact h
    · intro _ e h
      obtain ⟨_, _, _, _, heq⟩ := input_push_shape e s
      rw [heq]
      exact h
    · exact fun e h => asked_or _ _ h
    · exact h
  have hloop : ∀ (segments : List KcpSegment) (acc : KcpEngine × AckTrack), acc.1.conv = self.conv →
      (segment ∈ segments ∨ Asked acc.1) → Asked (segments.foldl (input_segment current) acc).1 := by
    intro segments
    induction segments with
    | nil => exact fun _ _ h => h.resolve_left List.not_mem_nil
    | cons first rest ih =>
      intro acc hsame h
      rw [List.foldl_cons]
      apply ih _ ((loopFrame_input_segment current first acc).conv.trans hsame)
      rcases h with h | h
      · rcases List.mem_cons.mp h with rfl | h
        · right
          obtain ⟨e, track⟩ := acc
          dsimp only at hsame
          unfold input_segment
          dsimp only
          have hother : ¬ segment.header.cmd = constants.IKCP_CMD_ACK ∧ ¬ segment.header.cmd = constants.IKCP_CMD_PUSH := by
            rw [hcmd]
            decide
          rw [if_neg (not_not.mpr (hconv.trans hsame.symm)), if_neg hother.1, if_neg hother.2, if_pos hcmd]
          exact asked_tell _
        · exact .inl h
      · exact .inr (hkeep acc first h)
  obtain ⟨_, _, _, _, hfinish, _⟩ := input_finish_shape
    (self.input_loop current data).1 self.snd_una (self.input_loop current data).2
  rw [input_eq hlong, hfinish]
  exact hloop (split_segments data) ({ self with last_activity := current }, { flag := false, max_ack := 0, latest_ts := 0 })
    rfl (.inl hmem)

/-! ### Several datagrams -/

/-- The engine after it has taken in some datagrams at one time. -/
def input_all (self : KcpEngine) (now : Timestamp) (wire : List Bytes) : KcpEngine :=
  Trace.run (fun e data => (e.input now data).1) self wire

theorem input_all_cons (self : KcpEngine) (now : Timestamp) (data : Bytes) (wire : List Bytes) :
    self.input_all now (data :: wire) = (self.input now data).1.input_all now wire := rfl

theorem InputFrame.trans {a b c : KcpEngine} (first : InputFrame a b) (second : InputFrame b c) : InputFrame a c where
  conv := second.conv.trans first.conv
  config := second.config.trans first.config
  snd_nxt := second.snd_nxt.trans first.snd_nxt
  snd_queue := second.snd_queue.trans first.snd_queue
  snd := second.snd.trans first.snd
  rcv := second.rcv.trans first.rcv
  ssthresh := second.ssthresh.trans first.ssthresh
  wait := second.wait.trans first.wait
  ts := second.ts.trans first.ts
  min_rto := second.min_rto.trans first.min_rto
  output_queue := second.output_queue.trans first.output_queue
  out_buf := second.out_buf.trans first.out_buf
  last_update := second.last_update.trans first.last_update
  dead_link := second.dead_link.trans first.dead_link

theorem inputFrame_input_all (self : KcpEngine) (now : Timestamp) (wire : List Bytes) :
    InputFrame self (self.input_all now wire) := by
  induction wire generalizing self with
  | nil => constructor <;> rfl
  | cons data wire ih => exact (self.inputFrame_input now data).trans (ih _)

theorem ack_list_input_all (self : KcpEngine) (now : Timestamp) (wire : List Bytes) :
    self.ack_list <+: (self.input_all now wire).ack_list := by
  induction wire generalizing self with
  | nil => exact List.prefix_rfl
  | cons data wire ih => exact (self.ack_list_input now data).trans (ih _)

theorem xmit_input_all (self : KcpEngine) (now : Timestamp) (wire : List Bytes) :
    ∀ s ∈ (self.input_all now wire).snd_buf, ∃ before ∈ self.snd_buf,
      before.header.sn = s.header.sn ∧ before.xmit = s.xmit ∧ before.resendts = s.resendts := by
  induction wire generalizing self with
  | nil => exact fun s hs => ⟨s, hs, rfl, rfl, rfl⟩
  | cons data wire ih =>
    intro s hs
    obtain ⟨mid, hmid, hsn, hxmit, hts⟩ := ih _ s hs
    obtain ⟨before, hbefore, hsn', hxmit', hts'⟩ := self.xmit_input now data mid hmid
    exact ⟨before, hbefore, hsn'.trans hsn, hxmit'.trans hxmit, hts'.trans hts⟩

theorem length_snd_buf_input_all (self : KcpEngine) (now : Timestamp) (wire : List Bytes) :
    (self.input_all now wire).snd_buf.length ≤ self.snd_buf.length := by
  induction wire generalizing self with
  | nil => exact le_rfl
  | cons data wire ih => exact (ih _).trans (self.length_snd_buf_input now data)

/-- What one of the datagrams acknowledges is not in flight after them. -/
theorem input_all_clears {e : KcpEngine} (h : SendWindow e) (hsnd : e.wnd.snd.toNat ≤ 65535) (now : Timestamp)
    {wire : List Bytes} {data : Bytes} (hdata : data ∈ wire) {segment : KcpSegment} (hmem : segment ∈ split_segments data)
    (hconv : segment.header.conv = e.conv) (hcmd : segment.header.cmd = constants.IKCP_CMD_ACK) :
    segment.header.sn ∉ (e.input_all now wire).snd_sns := by
  induction wire generalizing e with
  | nil => cases hdata
  | cons first wire ih =>
    have hframe := e.inputFrame_input now first
    rcases List.mem_cons.mp hdata with rfl | hdata
    · intro hstill
      obtain ⟨s, hs, hsn⟩ := List.mem_map.mp hstill
      obtain ⟨before, hbefore, hsame, _⟩ := xmit_input_all _ now wire s hs
      apply input_clears (h.ordered hsnd) now hmem hconv hcmd
      rw [← hsn, ← hsame]
      exact List.mem_map_of_mem hbefore
    · exact ih (sendWindow_input h now first).1 (hframe.snd ▸ hsnd) hdata (hconv.trans hframe.conv.symm)

/-- If no header closes the window of the peer, it is open once a header has come. -/
theorem rmt_input_all {e : KcpEngine} (now : Timestamp) {wire : List Bytes}
    (hall : ∀ data ∈ wire, Carries (fun header _ => header.wnd ≠ 0) data)
    (h : e.wnd.rmt ≠ 0 ∨ ∃ data ∈ wire, ∃ s ∈ split_segments data, s.header.conv = e.conv) :
    (e.input_all now wire).wnd.rmt ≠ 0 := by
  induction wire generalizing e with
  | nil =>
    rcases h with h | ⟨_, hdata, _⟩
    · exact h
    · cases hdata
  | cons first wire ih =>
    have hopen : ∀ s ∈ split_segments first, s.header.wnd.setWidth 32 ≠ (0 : U32) := by
      intro s hs hzero
      apply (hall first List.mem_cons_self).split s hs
      have hval := congrArg BitVec.toNat hzero
      rw [BitVec.toNat_setWidth, Nat.mod_eq_of_lt (by omega)] at hval
      exact BitVec.eq_of_toNat_eq hval
    rw [input_all_cons]
    apply ih fun data hdata => hall data (List.mem_cons_of_mem _ hdata)
    by_cases hshort : first.length < KcpHeader.SIZE
    · rw [input_short hshort]
      refine h.imp_right ?_
      rintro ⟨data, hdata, s, hs, hconv⟩
      rcases List.mem_cons.mp hdata with rfl | hdata
      · exact absurd hshort (long_of_mem_split hs)
      · exact ⟨data, hdata, s, hs, hconv⟩
    · rw [(e.inputFrame_input now first).conv, rmt_input_eq _ _ _ hshort]
      rcases h with h | ⟨data, hdata, s, hs, hconv⟩
      · exact .inl (told_of_forall (P := (· ≠ 0)) hopen (.inl h))
      · rcases List.mem_cons.mp hdata with rfl | hdata
        · exact .inl (told_of_forall (P := (· ≠ 0)) hopen (.inr ⟨s, hs, hconv⟩))
        · exact .inr ⟨data, hdata, s, hs, hconv⟩

theorem asked_input_all {e : KcpEngine} (now : Timestamp) {wire : List Bytes}
    (h : Asked e ∨ ∃ data ∈ wire, ∃ s ∈ split_segments data, s.header.conv = e.conv ∧
      s.header.cmd = constants.IKCP_CMD_WASK) : Asked (e.input_all now wire) := by
  induction wire generalizing e with
  | nil =>
    rcases h with h | ⟨_, hdata, _⟩
    · exact h
    · cases hdata
  | cons first wire ih =>
    rw [input_all_cons]
    apply ih
    rw [(e.inputFrame_input now first).conv]
    rcases h with h | ⟨data, hdata, s, hs, hconv, hcmd⟩
    · exact .inl (asked_input h now first)
    · rcases List.mem_cons.mp hdata with rfl | hdata
      · exact .inl (e.asked_of_wask now hs hconv hcmd)
      · exact .inr ⟨data, hdata, s, hs, hconv, hcmd⟩

end kcp_core.engine.KcpEngine
