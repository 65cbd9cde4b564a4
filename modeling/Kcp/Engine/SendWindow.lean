import Kcp.Engine.Configured

open kcp_core.protocol kcp_core.config kcp_core.error
open kcp_tokio.config

namespace kcp_core.engine

namespace KcpEngine

/-- The sequence numbers in the send buffer, in buffer order. -/
def snd_sns (self : KcpEngine) : List SeqNum := self.snd_buf.map fun s => s.header.sn

/-- The send window: the buffer's numbers go up from `snd_una`, all below `snd_nxt`;
`snd_una` is the first of them, or `snd_nxt` when there is none; and no more than
the configured window is in flight. -/
structure SendWindow (e : KcpEngine) : Prop where
  ascending : Serial.Ascending e.snd_una e.snd_nxt e.snd_sns
  front : e.snd_una = e.snd_sns.headD e.snd_nxt
  span : Serial.offset e.snd_una e.snd_nxt ≤ e.wnd.snd.toNat

/-- A step moved the window forward, if at all: `snd_una` by no more than what was in flight before
it, and `snd_nxt` by the segments of the queue that the step has numbered. Neither goes around. -/
structure UnaAdvances (before after : KcpEngine) : Prop where
  forward : Serial.offset before.snd_una after.snd_una ≤ Serial.offset before.snd_una before.snd_nxt
  numbered : ∃ k ≤ before.snd_queue.length, after.snd_nxt = before.snd_nxt + BitVec.ofNat 32 k ∧
    Serial.offset before.snd_una after.snd_nxt = Serial.offset before.snd_una before.snd_nxt + k

/-- A step that leaves both where they are. -/
theorem UnaAdvances.of_same {before after : KcpEngine} (huna : after.snd_una = before.snd_una)
    (hnxt : after.snd_nxt = before.snd_nxt) : UnaAdvances before after where
  forward := by
    rw [huna, Serial.offset_self]
    exact Nat.zero_le _
  numbered := ⟨0, Nat.zero_le _, hnxt.trans (BitVec.add_zero _).symm, by rw [hnxt, Nat.add_zero]⟩

/-- What the invariant says depends on four fields. -/
theorem SendWindow.congr {e e' : KcpEngine} (h : SendWindow e) (hbuf : e'.snd_sns = e.snd_sns)
    (huna : e'.snd_una = e.snd_una) (hnxt : e'.snd_nxt = e.snd_nxt) (hwnd : e'.wnd.snd = e.wnd.snd) :
    SendWindow e' := by
  constructor
  · rw [hbuf, huna, hnxt]; exact h.ascending
  · rw [hbuf, huna, hnxt]; exact h.front
  · rw [huna, hnxt, hwnd]; exact h.span

/-! ### Admission -/

/-- The window test of the admission loop, while no more than half the number space
is in flight: there is room as long as fewer than `cwnd` are. -/
theorem window_test {una nxt cwnd : U32} (hspan : Serial.offset una nxt ≤ 65535) (hcwnd : cwnd.toNat ≤ 65535) :
    time_diff nxt (una + cwnd) < 0 ↔ Serial.offset una nxt < cwnd.toNat := by
  have hend : Serial.offset una (una + cwnd) = cwnd.toNat := by simp [Serial.offset]
  unfold time_diff
  rw [Serial.diff_neg_iff una (by omega) (by omega), hend]

/-- Admission hands out numbers one by one from `snd_nxt`, never more than `cwnd` in
flight, and stops at the window or at the end of the queue. -/
theorem admit_count_spec (una : SeqNum) {cwnd : U32} (hcwnd : cwnd.toNat ≤ 65535) (queue : List KcpSegment) :
    ∀ nxt : SeqNum, Serial.offset una nxt ≤ 65535 →
      let k := admit_count (una + cwnd) nxt queue
      k ≤ queue.length ∧ Serial.offset una nxt + k ≤ max (Serial.offset una nxt) cwnd.toNat ∧
        (k = queue.length ∨ cwnd.toNat ≤ Serial.offset una nxt + k) := by
  induction queue with
  | nil => intro nxt _; simp [admit_count]
  | cons segment queue ih =>
    intro nxt hspan
    unfold admit_count
    by_cases hroom : Serial.offset una nxt < cwnd.toNat
    · rw [if_pos ((window_test hspan hcwnd).mpr hroom)]
      have hnext : Serial.offset una (nxt + 1) = Serial.offset una nxt + 1 :=
        Serial.offset_add (n := 1) (by omega)
      obtain ⟨hlen, hbound, hstop⟩ := ih (nxt + 1) (by omega)
      rw [hnext] at hbound hstop
      simp only [List.length_cons]
      omega
    · rw [if_neg (fun h => hroom ((window_test hspan hcwnd).mp h))]
      simp only [List.length_cons]
      omega

/-- The effective window is no larger than the send window. -/
theorem effective_wnd_le (self : KcpEngine) : self.effective_wnd.toNat ≤ self.wnd.snd.toNat := by
  unfold effective_wnd
  split <;> simp only [Word.toNat_min] <;> omega

/-- What is numbered gets the numbers that follow. -/
theorem sns_numbered (self : KcpEngine) (current : Timestamp) (sn : SeqNum) (queue : List KcpSegment) :
    (self.numbered current sn queue).map (fun s => s.header.sn) =
      (List.range queue.length).map fun i => sn + BitVec.ofNat 32 i := by
  induction queue generalizing sn with
  | nil => rfl
  | cons segment queue ih =>
    simp only [numbered, number_segment, List.map_cons, ih, List.length_cons, List.range_succ_eq_map,
      List.map_map, Serial.add_one_add_ofNat]
    simp [Function.comp_def]

/-- The list goes on with the numbers that follow. -/
theorem ascending_append_range {una nxt : SeqNum} {sns : List SeqNum} (h : Serial.Ascending una nxt sns) (k : Nat)
    (hroom : Serial.offset una nxt + k < 2 ^ 32) :
    Serial.Ascending una (nxt + BitVec.ofNat 32 k)
      (sns ++ (List.range k).map fun i => nxt + BitVec.ofNat 32 i) := by
  induction k with
  | zero => simpa using h
  | succ k ih =>
    have hk := ih (by omega)
    have hoff : Serial.offset una (nxt + BitVec.ofNat 32 k) = Serial.offset una nxt + k :=
      Serial.offset_add (by omega)
    have hnext := hk.concat (by omega)
    have hlimit : nxt + BitVec.ofNat 32 k + 1 = nxt + BitVec.ofNat 32 (k + 1) := by
      rw [add_assoc, BitVec.ofNat_add]
      rfl
    rw [hlimit] at hnext
    simpa [List.range_succ] using hnext

/-! ### Numbers in the buffer after a flush -/

/-- A segment keeps its number. -/
theorem mark_segment_sn (self : KcpEngine) (current : Timestamp) (resend rtomin : U32) (segment : KcpSegment) :
    (self.mark_segment current resend rtomin segment).header.sn = segment.header.sn := by
  unfold mark_segment
  split <;> rfl

/-- A flush appends the numbers it gives. -/
theorem sns_flushed_buf (self : KcpEngine) (current : Timestamp) :
    (self.flushed_buf current).map (fun s => s.header.sn) =
      self.snd_sns ++ (List.range (self.snd_queue.take self.admitted).length).map
        fun i => self.snd_nxt + BitVec.ofNat 32 i := by
  unfold flushed_buf snd_sns
  rw [List.map_map, List.map_append, ← sns_numbered self current]
  congr 1 <;> exact List.map_congr_left fun s _ => mark_segment_sn ..

/-! ### The front of the send buffer -/

/-- `snd_una` is the first number in flight, or the next one when nothing is. -/
def Front (e : KcpEngine) : Prop := e.snd_una = e.snd_sns.headD e.snd_nxt

/-- A flush leaves the front of the buffer in place. -/
theorem front_flush {self : KcpEngine} (h : Front self) (clk : Clock) : Front (self.flush clk).1 := by
  obtain ⟨queue, buf, stats, heq⟩ := self.flush_shape clk
  have hlen : (self.snd_queue.take self.admitted).length = self.admitted :=
    List.length_take_of_le self.admitted_le
  rw [heq]
  change self.snd_una = ((self.flushed_buf clk.now).map fun s => s.header.sn).headD
    (self.snd_nxt + BitVec.ofNat 32 self.admitted)
  rw [sns_flushed_buf, hlen]
  unfold Front at h
  cases hbuf : self.snd_sns with
  | cons first rest => rw [hbuf] at h; exact h
  | nil =>
    rw [hbuf] at h
    cases self.admitted with
    | zero => simpa using h
    | succ k => simpa [List.range_succ_eq_map] using h

/-- A datagram moves `snd_una` to the front that it leaves. -/
theorem front_input {self : KcpEngine} (h : Front self) (current : Timestamp) (data : Bytes) :
    Front (self.input current data).1 := by
  have hframe := self.inputFrame_input current data
  obtain ⟨kept, hsub, hcounted, huna⟩ := self.input_snd_buf current data
  have hsns : (self.input current data).1.snd_sns = kept.map fun s => s.header.sn :=
    forall₂_counted_map (fun _ _ => rfl) hcounted
  unfold Front
  rw [hsns, hframe.snd_nxt]
  cases huna with
  | inl hsame =>
    obtain ⟨huna, rfl⟩ := hsame
    rw [huna]
    exact h
  | inr huna => exact huna

/-! ### Preservation -/

/-- A flush appends the next numbers to the buffer, as far as the window reaches. -/
theorem ascending_flush {self : KcpEngine} (h : Serial.Ascending self.snd_una self.snd_nxt self.snd_sns)
    (hspan : Serial.offset self.snd_una self.snd_nxt ≤ 65535) (heff : self.effective_wnd.toNat ≤ 65535) (clk : Clock) :
    Serial.Ascending (self.flush clk).1.snd_una (self.flush clk).1.snd_nxt (self.flush clk).1.snd_sns ∧
      Serial.offset (self.flush clk).1.snd_una (self.flush clk).1.snd_nxt ≤
        max (Serial.offset self.snd_una self.snd_nxt) self.effective_wnd.toNat ∧
      UnaAdvances self (self.flush clk).1 := by
  obtain ⟨hle, hbound, _⟩ := admit_count_spec self.snd_una heff self.snd_queue self.snd_nxt hspan
  have hadmitted : admit_count (self.snd_una + self.effective_wnd) self.snd_nxt self.snd_queue = self.admitted := rfl
  rw [hadmitted] at hle hbound
  obtain ⟨queue, buf, stats, heq⟩ := self.flush_shape clk
  have hmoved : Serial.offset self.snd_una (self.snd_nxt + BitVec.ofNat 32 self.admitted) =
      Serial.offset self.snd_una self.snd_nxt + self.admitted := Serial.offset_add (by omega)
  rw [heq]
  refine ⟨?_, hmoved.trans_le hbound, ?_, self.admitted, hle, rfl, hmoved⟩
  · change Serial.Ascending self.snd_una (self.snd_nxt + BitVec.ofNat 32 self.admitted)
      ((self.flushed_buf clk.now).map fun s => s.header.sn)
    rw [sns_flushed_buf, List.length_take, Nat.min_eq_left hle]
    exact ascending_append_range h _ (by omega)
  · change Serial.offset self.snd_una self.snd_una ≤ _
    rw [Serial.offset_self]
    exact Nat.zero_le _

/-- A flush numbers no more than the window admits. -/
theorem sendWindow_flush {self : KcpEngine} (h : SendWindow self) (hsnd : self.wnd.snd.toNat ≤ 65535) (clk : Clock) :
    SendWindow (self.flush clk).1 ∧ UnaAdvances self (self.flush clk).1 := by
  have hspan := h.span
  have heff := self.effective_wnd_le
  obtain ⟨hascending, hbound, hadvances⟩ := ascending_flush h.ascending (by omega) (by omega) clk
  refine ⟨⟨hascending, front_flush h.front clk, ?_⟩, hadvances⟩
  · have hsnd' : (self.flush clk).1.wnd.snd = self.wnd.snd := by
      obtain ⟨queue, buf, stats, heq⟩ := self.flush_shape clk
      rw [heq]
      exact (self.flushed_wnd_frame clk.now).1
    rw [hsnd']
    omega

/-- `input` takes numbers out of the buffer, and `snd_una` moves up to the first left. -/
theorem ascending_input {self : KcpEngine} (h : Serial.Ascending self.snd_una self.snd_nxt self.snd_sns)
    (current : Timestamp) (data : Bytes) :
    Serial.Ascending (self.input current data).1.snd_una (self.input current data).1.snd_nxt
        (self.input current data).1.snd_sns ∧
      Serial.offset (self.input current data).1.snd_una (self.input current data).1.snd_nxt ≤
        Serial.offset self.snd_una self.snd_nxt ∧
      UnaAdvances self (self.input current data).1 := by
  have hframe := self.inputFrame_input current data
  obtain ⟨kept, hsub, hcounted, huna⟩ := self.input_snd_buf current data
  have hsns : (self.input current data).1.snd_sns = kept.map fun s => s.header.sn :=
    forall₂_counted_map (fun _ _ => rfl) hcounted
  have hnumbered : ∃ k ≤ self.snd_queue.length, (self.input current data).1.snd_nxt = self.snd_nxt + BitVec.ofNat 32 k ∧
      Serial.offset self.snd_una (self.input current data).1.snd_nxt = Serial.offset self.snd_una self.snd_nxt + k :=
    ⟨0, Nat.zero_le _, hframe.snd_nxt.trans (BitVec.add_zero _).symm, by rw [hframe.snd_nxt, Nat.add_zero]⟩
  rw [hsns, hframe.snd_nxt]
  rcases huna with ⟨huna, rfl⟩ | huna
  · rw [huna]
    exact ⟨h, le_rfl, .of_same huna hframe.snd_nxt⟩
  · obtain ⟨hle, hfrom⟩ := (h.sublist (hsub.map _)).from_head
    rw [huna, Serial.offset_rebase hle]
    exact ⟨hfrom, Nat.sub_le _ _, huna ▸ hle, hnumbered⟩

/-- A datagram takes segments out of the window, from the front or from the middle. -/
theorem sendWindow_input {self : KcpEngine} (h : SendWindow self) (current : Timestamp) (data : Bytes) :
    SendWindow (self.input current data).1 ∧ UnaAdvances self (self.input current data).1 := by
  obtain ⟨hascending, hspan, hadvances⟩ := ascending_input h.ascending current data
  refine ⟨⟨hascending, front_input h.front current data, ?_⟩, hadvances⟩
  rw [(self.inputFrame_input current data).snd]
  exact hspan.trans h.span

/-- Every call keeps the window in order. -/
theorem sendWindow_step {self : KcpEngine} (h : SendWindow self) (hsnd : self.wnd.snd.toNat ≤ 65535) (op : Op) :
    SendWindow (self.step op) ∧ UnaAdvances self (self.step op) := by
  apply step_rule (P := fun e => SendWindow e ∧ UnaAdvances self e) op
  · intro clk data _
    obtain ⟨queue, sent, heq⟩ := self.send_shape clk data
    rw [heq]
    exact ⟨h.congr rfl rfl rfl rfl, .of_same rfl rfl⟩
  · intro _
    obtain ⟨queue, buf, nxt, flags, received, heq⟩ := self.recv_shape
    rw [heq]
    exact ⟨h.congr rfl rfl rfl rfl, .of_same rfl rfl⟩
  · intro now data _
    exact sendWindow_input h now data
  · intro last flags clk _
    have hretimed : SendWindow { self with last_update := last, probe := { self.probe with flags } } :=
      h.congr rfl rfl rfl rfl
    obtain ⟨hwindow, hforward, hnumbered⟩ := sendWindow_flush hretimed hsnd clk
    exact ⟨hwindow, hforward, hnumbered⟩
  · intro last
    exact ⟨h.congr rfl rfl rfl rfl, .of_same rfl rfl⟩
  · exact ⟨h.congr rfl rfl rfl rfl, .of_same rfl rfl⟩
  · intro conv
    exact ⟨h.congr rfl rfl rfl rfl, .of_same rfl rfl⟩

/-- A new engine has nothing in its window. -/
theorem sendWindow_new (c : KcpCoreConfig) (conv : ConvId) (updated active : Timestamp) :
    SendWindow (new conv c updated active) :=
  ⟨.nil _ _, rfl, by simp [new]⟩

end KcpEngine

open KcpEngine

theorem Start.snd_le (start : Start) (ops : List Op) : (start.reached ops).wnd.snd.toNat ≤ 65535 := by
  rw [(start.configured ops).snd]
  exact start.accepted.snd_le

/-- In every run the segments in flight lie in order in the window. -/
theorem Start.sendWindow (start : Start) (ops : List Op) : SendWindow (start.reached ops) := by
  apply Trace.invariant (P := fun _ e => SendWindow e)
  · exact sendWindow_new ..
  · intro ops op h
    exact (sendWindow_step h (start.snd_le ops) op).1

/-- Against an arbitrary peer, every reachable engine keeps its send window in order,
and a call moves `snd_una` and `snd_nxt` forward alone, the first no further than the second stood. -/
theorem snd_window_invariant (start : Start) (ops : List Op) (op : Op) :
    SendWindow (start.reached ops) ∧
      (start.reached ops).wnd.snd = start.config.snd_wnd ∧
      UnaAdvances (start.reached ops) ((start.reached ops).step op) :=
  ⟨start.sendWindow ops, (start.configured ops).snd,
    (sendWindow_step (start.sendWindow ops) (start.snd_le ops) op).2⟩

end kcp_core.engine
