import Kcp.Engine.Ledger
import Kcp.Engine.ConvSwitch
import Kcp.Engine.Reopen

/-! What an engine tells its peer about its receive window, and what it learns from the
peer about the other one. -/

open kcp_core.protocol kcp_core.config kcp_core.error

namespace kcp_core.engine.KcpEngine

/-! ### The window of the peer -/

/-- The window of the peer after some segments: the last of the conversation tells it. -/
def told (conv : ConvId) (rmt : U32) (segments : List KcpSegment) : U32 :=
  segments.foldl (fun rmt segment => if segment.header.conv = conv then segment.header.wnd.setWidth 32 else rmt) rmt

/-- A segment of the conversation tells the window of the peer. -/
theorem rmt_input_segment (current : Timestamp) (acc : KcpEngine × AckTrack) (segment : KcpSegment) :
    (input_segment current acc segment).1.wnd.rmt =
      if segment.header.conv = acc.1.conv then segment.header.wnd.setWidth 32 else acc.1.wnd.rmt := by
  obtain ⟨e, track⟩ := acc
  unfold input_segment
  dsimp only
  by_cases hconv : segment.header.conv = e.conv
  · rw [if_neg (not_not.mpr hconv), if_pos hconv]
    split
    · obtain ⟨_, _, _, _, _, heq, _⟩ := input_ack_shape
        (parse_una { e with wnd := { e.wnd with rmt := segment.header.wnd.setWidth 32 } } segment.header.una) current segment
      dsimp only
      rw [heq]
      rfl
    · split
      · obtain ⟨_, _, _, _, heq⟩ := input_push_shape
          (parse_una { e with wnd := { e.wnd with rmt := segment.header.wnd.setWidth 32 } } segment.header.una) segment
        dsimp only
        rw [heq]
        rfl
      · split <;> rfl
  · rw [if_pos hconv, if_neg hconv]

theorem rmt_input_eq (self : KcpEngine) (current : Timestamp) (data : Bytes) (hlong : ¬ data.length < KcpHeader.SIZE) :
    (self.input current data).1.wnd.rmt = told self.conv self.wnd.rmt (split_segments data) := by
  have hloop : ∀ (segments : List KcpSegment) (acc : KcpEngine × AckTrack),
      (segments.foldl (input_segment current) acc).1.wnd.rmt = told acc.1.conv acc.1.wnd.rmt segments := by
    intro segments
    induction segments with
    | nil => exact fun _ => rfl
    | cons segment rest ih =>
      intro acc
      rw [List.foldl_cons, ih, rmt_input_segment, (loopFrame_input_segment current segment acc).conv]
      rfl
  rw [input_eq hlong]
  obtain ⟨_, _, _, _, hfinish, _⟩ := input_finish_shape
    (self.input_loop current data).1 self.snd_una (self.input_loop current data).2
  rw [hfinish]
  exact hloop _ _

/-- What the segments all tell, if there is one of the conversation. -/
theorem told_of_forall {P : U32 → Prop} {conv : ConvId} {rmt : U32} {segments : List KcpSegment}
    (hall : ∀ s ∈ segments, P (s.header.wnd.setWidth 32)) (h : P rmt ∨ ∃ s ∈ segments, s.header.conv = conv) :
    P (told conv rmt segments) := by
  unfold told
  induction segments generalizing rmt with
  | nil =>
    rcases h with h | ⟨_, hmem, _⟩
    · exact h
    · cases hmem
  | cons segment rest ih =>
    rw [List.foldl_cons]
    apply ih fun s hs => hall s (List.mem_cons_of_mem _ hs)
    by_cases hconv : segment.header.conv = conv
    · rw [if_pos hconv]
      exact .inl (hall segment List.mem_cons_self)
    · rw [if_neg hconv]
      refine h.imp_right fun hsome => ?_
      obtain ⟨s, hs, hsconv⟩ := hsome
      rcases List.mem_cons.mp hs with rfl | hs
      · exact absurd hsconv hconv
      · exact ⟨s, hs, hsconv⟩

/-! ### What is in flight -/

/-- The header carries the conversation and advertises a window of at most `limit`. -/
structure Tells (conv : ConvId) (limit : Nat) (header : KcpHeader) (_ : Bytes) : Prop where
  conv : header.conv = conv
  wnd : header.wnd.toNat ≤ limit

theorem advertised_wnd_le (self : KcpEngine) : self.advertised_wnd.toNat ≤ self.wnd.rcv.toNat := by
  have hunused : self.wnd_unused.toNat ≤ self.wnd.rcv.toNat := by
    unfold wnd_unused
    split
    · rw [BitVec.toNat_sub_of_le (by rw [BitVec.le_def, BitVec.toNat_ofNat]; exact (Nat.mod_le _ _).trans (by omega))]
      exact Nat.sub_le _ _
    · exact Nat.zero_le _
  unfold advertised_wnd
  rw [BitVec.toNat_setWidth]
  exact (Nat.mod_le _ _).trans hunused

/-- The peer advertises at most `limit`, no more than that is in flight, and what is on its
way out carries the conversation and advertises at most the own window. -/
structure Flow (limit : Nat) (e : KcpEngine) : Prop where
  rmt : e.wnd.rmt.toNat ≤ limit
  span : Serial.offset e.snd_una e.snd_nxt ≤ min e.wnd.snd.toNat limit
  buf : ∀ s ∈ e.snd_buf, s.header.conv = e.conv
  packed : Packed (Tells e.conv e.wnd.rcv.toNat) e

variable {limit : Nat} {e : KcpEngine}

theorem conv_emissions (hbuf : ∀ s ∈ e.snd_buf, s.header.conv = e.conv) (clk : Clock) :
    ∀ s ∈ e.emissions clk, s.header.conv = e.conv := by
  apply emissions_rule
  · exact fun _ _ => rfl
  · exact fun _ _ _ => rfl
  · intro before hbefore s hheader _
    rw [hheader]
    rcases mem_ready.mp hbefore with hbefore | hbefore
    · exact hbuf before hbefore
    · exact e.numbered_conv clk.now _ _ before hbefore

theorem Flow.congr {e' : KcpEngine} (h : Flow limit e) (hconv : e'.conv = e.conv) (hwnd : e'.wnd = e.wnd)
    (huna : e'.snd_una = e.snd_una) (hnxt : e'.snd_nxt = e.snd_nxt) (hbuf : e'.snd_buf = e.snd_buf)
    (hpacked : Packed (Tells e.conv e.wnd.rcv.toNat) e') : Flow limit e' := by
  refine ⟨?_, ?_, ?_, ?_⟩
  · rw [hwnd]
    exact h.rmt
  · rw [huna, hnxt, hwnd]
    exact h.span
  · rw [hbuf, hconv]
    exact h.buf
  · rw [hconv, hwnd]
    exact hpacked

theorem flow_flush {log : List Fragment} {n : Nat} (h : Flow limit e) (hledger : Ledger log n e)
    (hsnd : e.wnd.snd.toNat ≤ 65535) (clk : Clock) : Flow limit (e.flush clk).1 := by
  have hspan := h.span
  have heff := e.effective_wnd_le
  have hrmt := e.effective_wnd_le_rmt
  have hlimit := h.rmt
  obtain ⟨_, hbound, _⟩ := ascending_flush hledger.sender.window.ascending (by omega) (by omega) clk
  have hpacked : Packed (Tells e.conv e.wnd.rcv.toNat) (e.flush clk).1 := by
    apply packed_flush h.packed
    intro s hs
    refine ⟨(says_emissions hledger.sender hledger.count clk s hs).1, conv_emissions h.buf clk s hs, ?_⟩
    rw [e.emissions_wnd clk s hs]
    exact e.advertised_wnd_le
  obtain ⟨hframe_snd, hframe_rcv, hframe_rmt⟩ := e.flushed_wnd_frame clk.now
  obtain ⟨queue, buf, stats, heq⟩ := e.flush_shape clk
  rw [heq] at hbound hpacked ⊢
  refine ⟨?_, ?_, ?_, ?_⟩
  · change (e.flushed_wnd clk.now).rmt.toNat ≤ limit
    rw [hframe_rmt]
    exact h.rmt
  · change Serial.offset e.snd_una _ ≤ min (e.flushed_wnd clk.now).snd.toNat limit
    rw [hframe_snd]
    exact hbound.trans (by omega)
  · intro s hs
    obtain ⟨before, hbefore, rfl⟩ := List.mem_map.mp hs
    rw [mark_segment_conv]
    rcases List.mem_append.mp hbefore with hbefore | hbefore
    · exact h.buf before hbefore
    · exact e.numbered_conv clk.now _ _ before hbefore
  · change Packed (Tells e.conv (e.flushed_wnd clk.now).rcv.toNat) _
    rw [hframe_rcv]
    exact hpacked

theorem flow_input {log : List Fragment} {n : Nat} (h : Flow limit e) (hledger : Ledger log n e) (now : Timestamp)
    {conv : ConvId} {data : Bytes} (hdata : Carries (Tells conv limit) data) : Flow limit (e.input now data).1 := by
  have hframe := e.inputFrame_input now data
  refine ⟨?_, ?_, ?_, ?_⟩
  · by_cases hshort : data.length < KcpHeader.SIZE
    · rw [input_short hshort]
      exact h.rmt
    · rw [rmt_input_eq _ _ _ hshort]
      refine told_of_forall (P := fun rmt => rmt.toNat ≤ limit) (fun s hs => ?_) (.inl h.rmt)
      rw [BitVec.toNat_setWidth]
      exact (Nat.mod_le _ _).trans (hdata.split s hs).wnd
  · obtain ⟨_, hspan, _⟩ := ascending_input hledger.sender.window.ascending now data
    rw [hframe.snd]
    exact hspan.trans h.span
  · obtain ⟨kept, hsub, hcounted, _⟩ := e.input_snd_buf now data
    intro s hs
    obtain ⟨before, hbefore, hcount⟩ := exists_counted hcounted s hs
    have hold := h.buf before (hsub.subset hbefore)
    rw [hframe.conv]
    rcases hcount with rfl | rfl
    · exact hold
    · exact hold
  · rw [hframe.rcv, hframe.conv]
    exact ⟨hframe.output_queue ▸ h.packed.queue, hframe.out_buf ▸ h.packed.buf⟩

theorem conv_step (e : KcpEngine) {op : Op} (h : switches op = none) : (e.step op).conv = e.conv := by
  cases hflush : e.flush_of op with
  | some clk =>
    obtain ⟨last, flags, hstep, _⟩ := step_of_flush_of hflush
    obtain ⟨queue, buf, stats, heq⟩ := flush_shape { e with last_update := last, probe := { e.probe with flags } } clk
    rw [hstep, heq]
  | none =>
    cases op with
    | send clk data =>
      obtain ⟨queue, sent, heq⟩ := e.send_shape clk data
      rw [step, heq]
    | recv =>
      obtain ⟨queue, buf, nxt, flags, received, heq⟩ := e.recv_shape
      rw [step, heq]
    | input now data => exact (e.inputFrame_input now data).conv
    | drain_output => rfl
    | set_conv conv => cases h
    | flush clk => cases hflush
    | keep_alive_probe clk => cases hflush
    | update now clk =>
      obtain ⟨last, heq⟩ := update_of_no_flush hflush
      rw [step, heq]

/-- Every call keeps to the window of the peer, if what it takes in advertises no more and it
stays with the conversation. -/
theorem flow_step {log : List Fragment} {n : Nat} (h : Flow limit e) (hledger : Ledger log n e)
    (hsnd : e.wnd.snd.toNat ≤ 65535) (op : Op) (hconv : switches op = none) {conv : ConvId}
    (hdata : ∀ now data, op = .input now data → Carries (Tells conv limit) data) : Flow limit (e.step op) := by
  have hsame := e.conv_step hconv
  revert hsame
  apply step_rule (P := fun e' => e'.conv = e.conv → Flow limit e') op
  · intro clk data _ _
    obtain ⟨queue, sent, heq⟩ := e.send_shape clk data
    rw [heq]
    exact h.congr rfl rfl rfl rfl rfl ⟨h.packed.queue, h.packed.buf⟩
  · intro _ _
    obtain ⟨queue, buf, nxt, flags, received, heq⟩ := e.recv_shape
    rw [heq]
    exact h.congr rfl rfl rfl rfl rfl ⟨h.packed.queue, h.packed.buf⟩
  · exact fun now data hop _ => flow_input h hledger now (hdata now data hop)
  · intro last flags clk _ _
    have hopen : Flow limit { e with last_update := last, probe := { e.probe with flags } } :=
      h.congr rfl rfl rfl rfl rfl ⟨h.packed.queue, h.packed.buf⟩
    exact flow_flush hopen (hledger.opened last flags) hsnd clk
  · exact fun _ _ => h.congr rfl rfl rfl rfl rfl ⟨h.packed.queue, h.packed.buf⟩
  · exact fun _ => h.congr rfl rfl rfl rfl rfl ⟨by simp, h.packed.buf⟩
  · exact fun _ hconv => h.congr hconv rfl rfl rfl rfl ⟨h.packed.queue, h.packed.buf⟩

end kcp_core.engine.KcpEngine
