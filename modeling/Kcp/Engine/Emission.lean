import Kcp.Packing
import Kcp.Engine.Origin
import Kcp.Engine.Sender

open kcp_core.protocol kcp_core.config kcp_core.error
open Packing

namespace kcp_core.engine

namespace KcpEngine

/-! ### Sizes -/

/-- Every segment on its way out fits a datagram. -/
structure Stocked (e : KcpEngine) : Prop where
  queue : ∀ s ∈ e.snd_queue, Sized s ∧ Proper e.config (carried s)
  buf : ∀ s ∈ e.snd_buf, s.data.length ≤ e.mss.toNat

/-- What a flush finds fits a datagram. -/
theorem Stocked.ready {self : KcpEngine} (h : Stocked self) (current : Timestamp) :
    ∀ s ∈ (self.ready current).snd_buf, s.data.length ≤ self.mss.toNat := by
  intro s hs
  cases mem_ready.mp hs with
  | inl hs => exact h.buf s hs
  | inr hs =>
    obtain ⟨i, before, hi, _, _, _, hcarried⟩ := self.numbered_carries current _ _ s hs
    have hfits := (h.queue before (List.mem_of_mem_take (List.mem_of_getElem? hi))).2.1.2
    have hdata : s.data = before.data := congrArg Fragment.data hcarried
    rw [hdata]
    exact hfits

/-- A flush leaves it so. -/
theorem stocked_flush {self : KcpEngine} (h : Stocked self) (clk : Clock) : Stocked (self.flush clk).1 := by
  obtain ⟨queue, buf, stats, heq⟩ := self.flush_shape clk
  rw [heq]
  refine ⟨fun s hs => h.queue s (List.mem_of_mem_drop hs), ?_⟩
  intro s hs
  obtain ⟨before, hbefore, rfl⟩ := List.mem_map.mp hs
  obtain ⟨_, _, _, hcarried⟩ := self.mark_segment_carries clk.now self.resend_threshold self.rto_margin before
  have hdata := congrArg Fragment.data hcarried
  have hlen := h.ready clk.now before (mem_ready.mpr (List.mem_append.mp hbefore))
  change (carried _).data.length ≤ self.mss.toNat
  rw [hdata]
  exact hlen

/-- Every call leaves segments that fit a datagram. -/
theorem stocked_step {self : KcpEngine} (h : Stocked self) (hmss : 0 < self.mss.toNat) (op : Op) :
    Stocked (self.step op) := by
  apply step_rule (P := Stocked) op
  · intro clk data _
    have hqueue := queued_send h.queue hmss clk data
    obtain ⟨queue, sent, heq⟩ := self.send_shape clk data
    rw [heq] at hqueue ⊢
    exact ⟨hqueue, h.buf⟩
  · intro _
    obtain ⟨queue, buf, nxt, flags, received, heq⟩ := self.recv_shape
    rw [heq]
    exact ⟨h.queue, h.buf⟩
  · intro now data _
    have hframe := self.inputFrame_input now data
    obtain ⟨kept, hsub, hcounted, _⟩ := self.input_snd_buf now data
    constructor
    · rw [hframe.snd_queue, hframe.config]
      exact h.queue
    · intro s hs
      obtain ⟨before, hbefore, hcount⟩ := exists_counted hcounted s hs
      have hold := h.buf before (hsub.subset hbefore)
      unfold mss at *
      rw [hframe.config]
      cases hcount with
      | inl heq => rwa [heq]
      | inr heq => rwa [heq]
  · intro last flags clk _
    have hopen : Stocked { self with last_update := last, probe := { self.probe with flags } } := ⟨h.queue, h.buf⟩
    exact stocked_flush hopen clk
  · exact fun _ => ⟨h.queue, h.buf⟩
  · exact ⟨h.queue, h.buf⟩
  · exact fun _ => ⟨h.queue, h.buf⟩

/-- Nothing a flush emits is larger than a datagram. -/
theorem size_emissions {self : KcpEngine} (h : Stocked self) {mtu : Nat} (hmtu : mtu = KcpHeader.SIZE + self.mss.toNat)
    (clk : Clock) : ∀ s ∈ self.emissions clk, s.size ≤ mtu := by
  subst hmtu
  apply emissions_rule
  · intro _ _
    exact Nat.le_add_right _ _
  · intro _ _ _
    exact Nat.le_add_right _ _
  · intro before hbefore s _ hdata
    have hlen := h.ready clk.now before hbefore
    rw [KcpSegment.size, hdata]
    omega

/-! ### Datagrams -/

/-- The bytes of some segments, one after the other. -/
def datagram (segments : List KcpSegment) : Bytes := segments.flatMap KcpSegment.bytes

/-- A datagram is as long as its segments. -/
theorem length_datagram (segments : List KcpSegment) :
    (datagram segments).length = (segments.map KcpSegment.size).sum := by
  unfold datagram
  rw [List.length_flatMap]
  simp only [KcpSegment.length_bytes]

theorem datagram_eq_nil_iff {segments : List KcpSegment} : datagram segments = [] ↔ segments = [] := by
  cases segments with
  | nil => simp [datagram]
  | cons segment rest =>
    have hlen := length_datagram (segment :: rest)
    simp only [List.map_cons, List.sum_cons, KcpSegment.size, KcpHeader.SIZE] at hlen
    constructor
    · intro hnil
      rw [hnil, List.length_nil] at hlen
      omega
    · intro hnil
      cases hnil

/-- Packing bytes is packing segments into bins of the size of the MTU. -/
theorem pack_eq_fill (mtu : Nat) (queue : List Bytes) (bins : List (List KcpSegment) × List KcpSegment)
    (segments : List KcpSegment) :
    pack mtu (queue ++ bins.1.map datagram, datagram bins.2) segments =
      (queue ++ (fill KcpSegment.size mtu bins segments).1.map datagram,
        datagram (fill KcpSegment.size mtu bins segments).2) := by
  induction segments generalizing bins with
  | nil => rfl
  | cons segment rest ih =>
    have hone : pack_one mtu (queue ++ bins.1.map datagram, datagram bins.2) segment =
        (queue ++ (put KcpSegment.size mtu bins segment).1.map datagram,
          datagram (put KcpSegment.size mtu bins segment).2) := by
      unfold pack_one put
      simp only [length_datagram, ne_eq, datagram_eq_nil_iff]
      split
      · simp [datagram]
      · simp [datagram]
    have hrest := ih (put KcpSegment.size mtu bins segment)
    rw [← hone] at hrest
    exact hrest

/-- The datagrams after the open one is closed. -/
def close_out (out : List Bytes × Bytes) : List Bytes × Bytes := if out.2 ≠ [] then (out.1 ++ [out.2], []) else out

/-- The buffers of the engine are those of the packing, as bytes. -/
theorem close_out_datagrams (queue : List Bytes) (bins : List (List KcpSegment) × List KcpSegment) :
    close_out (queue ++ bins.1.map datagram, datagram bins.2) = (queue ++ (close bins).map datagram, []) := by
  unfold close_out close
  simp only [ne_eq, datagram_eq_nil_iff]
  by_cases hlast : bins.2 = []
  · rw [if_neg (not_not.mpr hlast), if_pos hlast, hlast]
    rfl
  · rw [if_pos hlast, if_neg hlast, List.map_append, List.append_assoc]
    rfl

/-- To hand over the open buffer is to close the open bin. -/
theorem flush_out_buf_eq (self : KcpEngine) :
    self.flush_out_buf = { self with
      output_queue := (close_out (self.output_queue, self.out_buf)).1
      out_buf := (close_out (self.output_queue, self.out_buf)).2 } := by
  unfold flush_out_buf close_out
  split <;> rfl

/-- The output after a flush: what it emits is packed behind what was there, and a flush
that goes through closes the last datagram. -/
theorem flush_output (self : KcpEngine) (clk : Clock) :
    ((self.flush clk).1.output_queue, (self.flush clk).1.out_buf) =
      if self.flush_dies clk.now then
        pack self.config.mtu.toNat (self.output_queue, self.out_buf) (self.emissions clk)
      else close_out (pack self.config.mtu.toNat (self.output_queue, self.out_buf) (self.emissions clk)) := by
  have hlost : ((self.flush_lost clk).output_queue, (self.flush_lost clk).out_buf) =
      pack self.config.mtu.toNat (self.output_queue, self.out_buf) (self.emissions clk) := by
    obtain ⟨stats, hscan⟩ := self.scanned_ready_eq clk.now
    rw [flush_lost, hscan]
    rfl
  rw [flush_eq]
  split
  · exact hlost
  · rw [← hlost, flush_done, flush_out_buf_eq, update_congestion_on_loss_eq]
    rfl

/-- Without a dead segment the scan goes through. -/
theorem upto_dead_eq {dead_link : U32} {segments : List KcpSegment} (h : meets_dead dead_link segments = false) :
    upto_dead dead_link segments = segments := by
  induction segments with
  | nil => rfl
  | cons segment rest ih =>
    rw [meets_dead, List.any_cons, Bool.or_eq_false_iff, decide_eq_false_iff_not] at h
    rw [upto_dead, if_neg h.1, ih h.2]

/-! ### What is due -/

/-- A segment of the send buffer that a flush sends: never sent, past its deadline, or
skipped by enough ACKs and not sent too often for a fast retransmission. -/
def Due (self : KcpEngine) (current : Timestamp) (segment : KcpSegment) : Prop :=
  segment.xmit = 0 ∨ 0 ≤ time_diff current segment.resendts ∨
    self.resend_threshold ≤ segment.fastack ∧ segment.xmit ≤ constants.IKCP_FASTACK_LIMIT

instance decidableDue (self : KcpEngine) (current : Timestamp) (segment : KcpSegment) :
    Decidable (Due self current segment) := inferInstanceAs (Decidable (_ ∨ _ ∨ _))

/-- A segment is due exactly if the scan would send it. -/
theorem due_iff_mark (self : KcpEngine) (current : Timestamp) (segment : KcpSegment) :
    mark_of current self.resend_threshold segment ≠ .hold ↔ Due self current segment := by
  have hlimit : ¬ constants.IKCP_FASTACK_LIMIT = 0 := by decide
  unfold mark_of Due
  simp only [hlimit, or_false]
  split_ifs with hfirst htimeout hfast
  · exact ⟨fun _ => .inl hfirst, fun _ => by decide⟩
  · exact ⟨fun _ => .inr (.inl htimeout), fun _ => by decide⟩
  · exact ⟨fun _ => .inr (.inr hfast), fun _ => by decide⟩
  · exact ⟨fun h => absurd rfl h, fun h => absurd h (by simp only [not_or]; exact ⟨hfirst, htimeout, hfast⟩)⟩

/-- The segments of the send buffer that a flush sends, as it sends them: from those in
flight and those the window has just let in, in buffer order. -/
def sent_segments (self : KcpEngine) (current : Timestamp) : List KcpSegment :=
  ((self.ready current).snd_buf.filter fun segment => Due self current segment).map
    (self.mark_segment current self.resend_threshold self.rto_margin)

/-- The due segments are those that are sent. -/
theorem due_ready_eq (self : KcpEngine) (current : Timestamp) :
    (self.ready current).due current = self.sent_segments current := by
  have hready := self.ready_eq current
  have hmark : (self.ready current).mark_segment current (self.ready current).resend_threshold
      (self.ready current).rto_margin = self.mark_segment current self.resend_threshold self.rto_margin := by
    rw [hready]
    rfl
  have hresend : (self.ready current).resend_threshold = self.resend_threshold := by
    rw [hready]
    rfl
  unfold due picked sent_segments
  rw [hmark, hresend]
  congr 1
  apply List.filter_congr
  intro segment _
  exact decide_eq_decide.mpr (self.due_iff_mark current segment)

end KcpEngine

open KcpEngine

/-- In every run, whatever the settings. -/
theorem Origin.stocked (origin : Origin) (ops : List Op) : Stocked (origin.reached ops) := by
  apply Trace.invariant (P := fun _ e => Stocked e)
  · exact ⟨by simp [Origin.fresh, new], by simp [Origin.fresh, new]⟩
  · intro ops op h
    exact stocked_step h (origin.mtu_eq ops).2 op

/-- A flush that goes through, on any reachable engine with nothing half packed, leaves
nothing half packed. It adds datagrams packed greedily up to the MTU, none of them empty,
out of whole segments: an ACK for each entry of the list, echoing its number and its
timestamp, a window request and a window answer if they are asked for, and the segments
of the send buffer that are due, in order. -/
theorem flush_emits_due (origin : Origin) (ops : List Op) (clk : Clock)
    (hempty : (origin.reached ops).out_buf = []) (hok : ((origin.reached ops).flush clk).2 = .ok ()) :
    ∃ groups acks probes,
      ((origin.reached ops).flush clk).1.output_queue = (origin.reached ops).output_queue ++ groups.map datagram ∧
      ((origin.reached ops).flush clk).1.out_buf = [] ∧
      (∀ group ∈ groups, datagram group ≠ [] ∧
        (datagram group).length ≤ (origin.reached ops).config.mtu.toNat) ∧
      Greedy KcpSegment.size (origin.reached ops).config.mtu.toNat groups ∧
      groups.flatten = acks ++ probes ++ (origin.reached ops).sent_segments clk.now ∧
      (acks.map fun s => (s.header.cmd, s.header.sn, s.header.ts, s.data)) =
        ((origin.reached ops).ack_list.map fun a => (constants.IKCP_CMD_ACK, a.1, a.2, [])) ∧
      (probes.map fun s => s.header.cmd) =
        (if ((origin.reached ops).probe_timer clk.now).flags &&& constants.IKCP_ASK_SEND ≠ 0 then
            [constants.IKCP_CMD_WASK] else []) ++
          (if ((origin.reached ops).probe_timer clk.now).flags &&& constants.IKCP_ASK_TELL ≠ 0 then
            [constants.IKCP_CMD_WINS] else []) := by
  obtain ⟨e, he⟩ : ∃ e, e = origin.reached ops := ⟨_, rfl⟩
  have hlives : ¬ e.flush_dies clk.now = true := by
    intro hdies
    rw [← he, flush_result, if_pos hdies] at hok
    cases hok
  have hsize : ∀ s ∈ e.emissions clk, s.size ≤ e.config.mtu.toNat := by
    apply size_emissions
    · rw [he]
      exact origin.stocked ops
    · rw [he]
      exact (origin.mtu_eq ops).1
  obtain ⟨hgreedy, hflat⟩ := close_fill_greedy hsize
  have hout := e.flush_output clk
  have hpack := pack_eq_fill e.config.mtu.toNat e.output_queue ([], []) (e.emissions clk)
  rw [← he] at hempty ⊢
  rw [if_neg hlives, hempty] at hout
  have hstart : datagram [] = [] := rfl
  simp only [List.map_nil, List.append_nil, hstart] at hpack
  rw [hpack, close_out_datagrams, Prod.mk.injEq] at hout
  refine ⟨_, e.acks_out clk, e.probes_out clk, hout.1, hout.2, ?_, hgreedy, ?_, ?_, ?_⟩
  · intro group hgroup
    rw [ne_eq, datagram_eq_nil_iff, length_datagram]
    exact ⟨hgreedy.ne_nil group hgroup, hgreedy.fits group hgroup⟩
  · rw [hflat, emissions, upto_dead_eq (Bool.eq_false_iff.mpr hlives), due_ready_eq]
  · unfold acks_out
    rw [List.map_map]
    rfl
  · unfold probes_out
    simp only [List.map_append]
    congr 1
    · split
      · rfl
      · rfl
    · split
      · rfl
      · rfl

/-- Two segments in one datagram. -/
theorem flush_emits_due_two :
    ((plain.reached [.send (.at 0) [1], .send (.at 0) [2]]).flush (.at 0)).1.out_buf = [] := by
  obtain ⟨_, _, _, _, hout, _⟩ :=
    flush_emits_due plain.origin [.send (.at 0) [1], .send (.at 0) [2]] (.at 0) (by decide +kernel) (by decide +kernel)
  exact hout

end kcp_core.engine
