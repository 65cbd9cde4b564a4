import Kcp.Engine.Shift
import Kcp.Engine.FlushFrame

open kcp_core.protocol kcp_core.config kcp_core.error

namespace kcp_core.engine

namespace Shift

variable {σ : Shift} {e : KcpEngine} {out : List Bytes × Bytes}

/-! ### The steps of a flush -/

/-- The one state whose probe timer `flush` sets to zero: a wait so long that it wraps
around when it grows by half, in the millisecond in which the clock shows zero. -/
def Overgrown (e : KcpEngine) (now : Timestamp) : Prop :=
  now = 0 ∧ e.wnd.rmt = 0 ∧ e.probe.wait = 0xAAAAAAAB ∧ 0 ≤ time_diff now e.probe.ts

instance decidableOvergrown (e : KcpEngine) (now : Timestamp) : Decidable (Overgrown e now) :=
  inferInstanceAs (Decidable (_ ∧ _))

/-- The wait after an expiry of the probe timer. -/
def backoff (wait : U32) : U32 :=
  let wait := if wait < constants.IKCP_PROBE_INIT then constants.IKCP_PROBE_INIT else wait
  let wait := wait + wait / 2
  if constants.IKCP_PROBE_LIMIT < wait then constants.IKCP_PROBE_LIMIT else wait

/-- There is one wait that backs off to nothing. -/
theorem backoff_eq_zero_iff (wait : U32) : backoff wait = 0 ↔ wait = 0xAAAAAAAB := by
  have hlt := wait.isLt
  have hgrown : ∀ w : U32, (w + w / 2).toNat = (w.toNat + w.toNat / 2) % 2 ^ 32 := by
    intro w
    rw [BitVec.toNat_add, BitVec.toNat_udiv]
    rfl
  have hzero : ∀ x : U32, x = 0 ↔ x.toNat = 0 := fun x => ⟨fun h => by rw [h]; rfl, fun h => BitVec.eq_of_toNat_eq h⟩
  have hbig : wait = 0xAAAAAAAB ↔ wait.toNat = 0xAAAAAAAB := ⟨fun h => by rw [h]; rfl, fun h => BitVec.eq_of_toNat_eq h⟩
  have hinit : constants.IKCP_PROBE_INIT.toNat = 7000 := rfl
  have hlimit : constants.IKCP_PROBE_LIMIT.toNat = 120000 := rfl
  unfold backoff
  dsimp only
  rw [hbig, hzero]
  simp only [BitVec.lt_def, hinit, hlimit]
  by_cases hsmall : wait.toNat < 7000
  · rw [if_pos hsmall]
    have hsame := hgrown constants.IKCP_PROBE_INIT
    rw [hinit] at hsame
    split <;> omega
  · rw [if_neg hsmall]
    have hsame := hgrown wait
    split <;> omega

theorem probe_of_wait {p : ProbeState} (h : p.wait ≠ 0) : σ.probe p = { p with ts := p.ts + σ.clock } :=
  if_neg fun hzero => h hzero.1

@[simp] theorem wait_probe (p : ProbeState) : (σ.probe p).wait = p.wait := by
  unfold probe
  split <;> rfl

/-- The timer commutes with the shift, but for that one wait. -/
theorem probe_timer_image {now : Timestamp} (h : σ.clock = 0 ∨ ¬ Overgrown e now) :
    (σ.image out e).probe_timer (now + σ.clock) = σ.probe (e.probe_timer now) := by
  unfold KcpEngine.probe_timer
  simp only [image, wait_probe, flags_probe]
  by_cases hshut : e.wnd.rmt = 0
  · simp only [hshut, if_true]
    by_cases hunarmed : e.probe.wait = 0
    · simp only [hunarmed, if_true]
      rw [add_right_comm]
      exact (if_neg fun hzero => (by decide : constants.IKCP_PROBE_INIT ≠ 0) hzero.1).symm
    · have hts : (σ.probe e.probe).ts = e.probe.ts + σ.clock := by rw [probe_of_wait hunarmed]
      simp only [hunarmed, if_false]
      rw [hts, time_diff_add]
      by_cases hdue : 0 ≤ time_diff now e.probe.ts
      · rw [if_pos hdue, if_pos hdue]
        change (⟨_, backoff e.probe.wait, now + σ.clock + backoff e.probe.wait⟩ : ProbeState) =
          σ.probe ⟨_, backoff e.probe.wait, now + backoff e.probe.wait⟩
        rw [add_right_comm]
        by_cases hzero : backoff e.probe.wait = 0 ∧ now + backoff e.probe.wait = 0
        · -- the timer ends up unscheduled
          have hnow : now = 0 := by simpa [hzero.1] using hzero.2
          have hover : Overgrown e now := ⟨hnow, hshut, (backoff_eq_zero_iff _).mp hzero.1, hdue⟩
          refine Eq.trans ?_ (if_pos hzero).symm
          rw [h.resolve_right (not_not.mpr hover), add_zero]
        · exact (if_neg hzero).symm
      · rw [if_neg hdue, if_neg hdue]
  · simp only [hshut, if_false]
    exact (if_pos ⟨rfl, rfl⟩).symm

theorem opened_image {now : Timestamp} (h : σ.clock = 0 ∨ ¬ Overgrown e now) :
    (σ.image out e).opened (now + σ.clock) = σ.image out (e.opened now) := by
  unfold KcpEngine.opened
  rw [probe_timer_image h]
  simp only [image, probe_flags, List.map_nil]

theorem admit_count_map (limit sn : SeqNum) (queue : List KcpSegment) :
    KcpEngine.admit_count (limit + σ.snd) (sn + σ.snd) (queue.map σ.queued) = KcpEngine.admit_count limit sn queue := by
  induction queue generalizing sn with
  | nil => rfl
  | cons s rest ih =>
    have hnext := ih (sn + 1)
    rw [add_right_comm] at hnext
    simp only [List.map_cons, KcpEngine.admit_count, time_diff_add, hnext]

/-- The same segments are admitted. -/
theorem admitted_image : (σ.image out e).admitted = e.admitted := by
  have hend : (σ.image out e).window_end = e.window_end + σ.snd := by
    unfold KcpEngine.window_end
    rw [add_right_comm]
    rfl
  unfold KcpEngine.admitted
  rw [hend]
  exact admit_count_map ..

theorem advertised_wnd_image : (σ.image out e).advertised_wnd = e.advertised_wnd := by
  simp only [KcpEngine.advertised_wnd, KcpEngine.wnd_unused, image, List.length_map]

theorem numbered_image (now : Timestamp) (sn : SeqNum) (queue : List KcpSegment) :
    (σ.image out e).numbered (now + σ.clock) (sn + σ.snd) (queue.map σ.queued) = (e.numbered now sn queue).map σ.sent := by
  induction queue generalizing sn with
  | nil => rfl
  | cons s rest ih =>
    have hnext := ih (sn + 1)
    rw [add_right_comm] at hnext
    have himage : (σ.image out e).advertised_wnd = e.advertised_wnd := advertised_wnd_image
    have hwnd : KcpEngine.advertised_wnd { σ.image out e with snd_nxt := sn + σ.snd } = e.advertised_wnd := himage
    rw [List.map_cons, KcpEngine.numbered, KcpEngine.numbered, List.map_cons, hnext]
    unfold KcpEngine.number_segment
    rw [hwnd]
    rfl

theorem move_to_send_buf_image (now : Timestamp) :
    (σ.image out e).move_to_send_buf (now + σ.clock) = σ.image out (e.move_to_send_buf now) := by
  have hnumbered : (σ.image out e).numbered (now + σ.clock) (e.snd_nxt + σ.snd)
      ((e.snd_queue.map σ.queued).take e.admitted) =
      (e.numbered now e.snd_nxt (e.snd_queue.take e.admitted)).map σ.sent := by
    rw [← List.map_take, numbered_image]
  rw [KcpEngine.move_to_send_buf_eq, KcpEngine.move_to_send_buf_eq, admitted_image]
  simp only [image, List.map_append, List.map_drop] at hnumbered ⊢
  rw [hnumbered, add_right_comm]

/-- A shifted engine is made ready as the other is. -/
theorem ready_image {now : Timestamp} (h : σ.clock = 0 ∨ ¬ Overgrown e now) :
    (σ.image out e).ready (now + σ.clock) = σ.image out (e.ready now) := by
  rw [KcpEngine.ready, opened_image h, move_to_send_buf_image]
  rfl

theorem mark_of_sent (now : Timestamp) (resend : U32) (s : KcpSegment) :
    KcpEngine.mark_of (now + σ.clock) resend (σ.sent s) = KcpEngine.mark_of now resend s := by
  have hdiff : time_diff (now + σ.clock) (σ.sent s).resendts = time_diff now s.resendts := time_diff_add ..
  unfold KcpEngine.mark_of
  rw [hdiff]
  rfl

/-- Each segment is marked as it was. -/
theorem mark_segment_image (now : Timestamp) (resend rtomin : U32) (s : KcpSegment) :
    (σ.image out e).mark_segment (now + σ.clock) resend rtomin (σ.sent s) =
      σ.sent (e.mark_segment now resend rtomin s) := by
  unfold KcpEngine.mark_segment
  simp only [mark_of_sent, advertised_wnd_image]
  cases KcpEngine.mark_of now resend s with
  | hold => rfl
  | first =>
    simp only [sent, image]
    rw [add_right_comm now, add_right_comm _ σ.clock]
  | timeout =>
    simp only [sent, image]
    rw [add_right_comm now]
    rfl
  | fast =>
    simp only [sent, image]
    rw [add_right_comm now]

/-- All segments are marked as they were. -/
theorem scanned_image (now : Timestamp) : (σ.image out e).scanned (now + σ.clock) = σ.image out (e.scanned now) := by
  have hmarks : (e.snd_buf.map σ.sent).map (KcpEngine.mark_of (now + σ.clock) e.resend_threshold) =
      e.snd_buf.map (KcpEngine.mark_of now e.resend_threshold) := by
    rw [List.map_map]
    exact List.map_congr_left fun s _ => mark_of_sent ..
  have hbuf : (e.snd_buf.map σ.sent).map
      ((σ.image out e).mark_segment (now + σ.clock) e.resend_threshold e.rto_margin) =
      (e.snd_buf.map (e.mark_segment now e.resend_threshold e.rto_margin)).map σ.sent := by
    rw [List.map_map, List.map_map]
    exact List.map_congr_left fun s _ => mark_segment_image ..
  have hresend : (σ.image out e).resend_threshold = e.resend_threshold := rfl
  have hmargin : (σ.image out e).rto_margin = e.rto_margin := rfl
  unfold KcpEngine.scanned KcpEngine.mark_segments_for_send
  rw [hresend, hmargin]
  simp only [image] at hbuf ⊢
  rw [hmarks, hbuf]

theorem due_image (now : Timestamp) : (σ.image out e).due (now + σ.clock) = (e.due now).map σ.sent := by
  have hresend : (σ.image out e).resend_threshold = e.resend_threshold := rfl
  have hmargin : (σ.image out e).rto_margin = e.rto_margin := rfl
  have hpick : ((fun s => decide (KcpEngine.mark_of (now + σ.clock) e.resend_threshold s ≠ .hold)) ∘ σ.sent) =
      fun s => decide (KcpEngine.mark_of now e.resend_threshold s ≠ .hold) := by
    funext s
    simp only [Function.comp_apply, mark_of_sent]
  unfold KcpEngine.due KcpEngine.picked
  rw [hresend, hmargin]
  change ((e.snd_buf.map σ.sent).filter _).map _ = _
  rw [List.filter_map, hpick, List.map_map, List.map_map]
  exact List.map_congr_left fun s _ => mark_segment_image ..

theorem timeouts_image (now : Timestamp) : (σ.image out e).timeouts (now + σ.clock) = e.timeouts now := by
  unfold KcpEngine.timeouts
  change ((e.snd_buf.map σ.sent).map (KcpEngine.mark_of (now + σ.clock) e.resend_threshold)).count .timeout = _
  rw [List.map_map]
  exact congrArg (List.count KcpEngine.Mark.timeout) (List.map_congr_left fun s _ => mark_of_sent ..)

theorem fasts_image (now : Timestamp) : (σ.image out e).fasts (now + σ.clock) = e.fasts now := by
  unfold KcpEngine.fasts
  change ((e.snd_buf.map σ.sent).map (KcpEngine.mark_of (now + σ.clock) e.resend_threshold)).count .fast = _
  rw [List.map_map]
  exact congrArg (List.count KcpEngine.Mark.fast) (List.map_congr_left fun s _ => mark_of_sent ..)

theorem upto_dead_map (dead_link : U32) (segments : List KcpSegment) :
    KcpEngine.upto_dead dead_link (segments.map σ.sent) = (KcpEngine.upto_dead dead_link segments).map σ.sent := by
  induction segments with
  | nil => rfl
  | cons s rest ih =>
    simp only [List.map_cons, KcpEngine.upto_dead, ih]
    by_cases hdead : dead_link ≤ s.xmit
    · rw [if_pos hdead]
      exact if_pos hdead
    · rw [if_neg hdead]
      exact if_neg hdead

theorem meets_dead_map (dead_link : U32) (segments : List KcpSegment) :
    KcpEngine.meets_dead dead_link (segments.map σ.sent) = KcpEngine.meets_dead dead_link segments := by
  unfold KcpEngine.meets_dead
  rw [List.any_map]
  rfl

/-! ### What a flush encodes -/

end Shift

namespace KcpEngine

/-- What a flush encodes, each segment with the space of its number. -/
def numbered_emissions (self : KcpEngine) (clk : Clock) : List (Space × KcpSegment) :=
  (self.acks_out clk).map (.peer, ·) ++ (self.probes_out clk).map (.neither, ·) ++
    (upto_dead self.dead_link ((self.ready clk.now).due clk.now)).map (.own, ·)

theorem numbered_emissions_snd (self : KcpEngine) (clk : Clock) :
    (self.numbered_emissions clk).map Prod.snd = self.emissions clk := by
  simp [numbered_emissions, emissions, List.map_map, Function.comp_def]

end KcpEngine

namespace Shift

variable {σ : Shift} {e : KcpEngine} {out : List Bytes × Bytes}

/-- A flush sends the shifted segments. -/
theorem numbered_emissions_image {clk : Clock} (h : σ.clock = 0 ∨ ¬ Overgrown e clk.now) :
    (σ.image out e).numbered_emissions (σ.clk clk) = (e.numbered_emissions clk).map σ.outgoing := by
  have hacks : (σ.image out e).acks_out (σ.clk clk) = (e.acks_out clk).map fun s => (σ.outgoing (.peer, s)).2 := by
    unfold KcpEngine.acks_out
    rw [advertised_wnd_image]
    simp only [image, List.map_map]
    rfl
  have hprobe : ∀ cmd i, (σ.image out e).create_probe_segment cmd ((σ.clk clk).hdr i) =
      (σ.outgoing (.neither, e.create_probe_segment cmd (clk.hdr i))).2 := by
    intro cmd i
    unfold KcpEngine.create_probe_segment
    rw [advertised_wnd_image]
    simp only [outgoing, number, image, KcpSegment.new, KcpHeader.new, add_zero]
    rfl
  have hflags : ((σ.image out e).probe_timer (σ.clk clk).now).flags = (e.probe_timer clk.now).flags :=
    (congrArg ProbeState.flags (probe_timer_image h)).trans (flags_probe _)
  have hprobes : (σ.image out e).probes_out (σ.clk clk) =
      (e.probes_out clk).map fun s => (σ.outgoing (.neither, s)).2 := by
    unfold KcpEngine.probes_out
    simp only [hflags, hprobe, List.map_append]
    split_ifs <;> rfl
  have hdue : KcpEngine.upto_dead (σ.image out e).dead_link
      (((σ.image out e).ready (σ.clk clk).now).due (σ.clk clk).now) =
      (KcpEngine.upto_dead e.dead_link ((e.ready clk.now).due clk.now)).map σ.sent := by
    change KcpEngine.upto_dead e.dead_link (((σ.image out e).ready (clk.now + σ.clock)).due (clk.now + σ.clock)) = _
    rw [ready_image h, due_image, upto_dead_map]
  unfold KcpEngine.numbered_emissions
  rw [hacks, hprobes, hdue]
  simp only [List.map_append, List.map_map]
  rfl

/-! ### Where the datagrams are cut -/

/-- Two outputs whose datagrams have the same lengths. -/
structure SameCut (first second : List Bytes × Bytes) : Prop where
  queue : second.1.map List.length = first.1.map List.length
  buf : second.2.length = first.2.length

theorem SameCut.refl (out : List Bytes × Bytes) : SameCut out out := ⟨rfl, rfl⟩

theorem SameCut.empty_iff {first second : List Bytes × Bytes} (h : SameCut first second) :
    second.2 = [] ↔ first.2 = [] := by
  rw [← List.length_eq_zero_iff, ← List.length_eq_zero_iff, h.buf]

/-- Segments of the same size are packed the same way. -/
theorem SameCut.pack_one {first second : List Bytes × Bytes} (h : SameCut first second) (mtu : Nat) {s t : KcpSegment}
    (hsize : t.size = s.size) : SameCut (KcpEngine.pack_one mtu first s) (KcpEngine.pack_one mtu second t) := by
  have htest : (mtu < second.2.length + t.size ∧ second.2 ≠ []) ↔ (mtu < first.2.length + s.size ∧ first.2 ≠ []) := by
    rw [h.buf, hsize, ne_eq, h.empty_iff]
  unfold KcpEngine.pack_one
  by_cases hclose : mtu < first.2.length + s.size ∧ first.2 ≠ []
  · rw [if_pos hclose, if_pos (htest.mpr hclose)]
    exact ⟨by simp [h.queue, h.buf], by simp [hsize]⟩
  · rw [if_neg hclose, if_neg (mt htest.mp hclose)]
    exact ⟨h.queue, by simp [h.buf, hsize]⟩

/-- Lists of segments of the same sizes are packed the same way. -/
theorem SameCut.pack {first second : List Bytes × Bytes} (h : SameCut first second) (mtu : Nat)
    {segments segments' : List KcpSegment} (hsizes : segments'.map KcpSegment.size = segments.map KcpSegment.size) :
    SameCut (KcpEngine.pack mtu first segments) (KcpEngine.pack mtu second segments') := by
  induction segments generalizing first second segments' with
  | nil =>
    rw [List.map_nil, List.map_eq_nil_iff] at hsizes
    rw [hsizes]
    exact h
  | cons s rest ih =>
    obtain ⟨t, rest', rfl, hsize, hrest⟩ := List.map_eq_cons_iff.mp hsizes
    exact ih (h.pack_one mtu hsize) hrest

/-- The datagram being packed is closed. -/
def closed (out : List Bytes × Bytes) : List Bytes × Bytes := if out.2 ≠ [] then (out.1 ++ [out.2], []) else out

theorem SameCut.closed {first second : List Bytes × Bytes} (h : SameCut first second) :
    SameCut (closed first) (closed second) := by
  unfold Shift.closed
  by_cases hempty : first.2 = []
  · rw [if_neg (not_not.mpr hempty), if_neg (not_not.mpr (h.empty_iff.mpr hempty))]
    exact h
  · rw [if_pos hempty, if_pos (mt h.empty_iff.mp hempty)]
    exact ⟨by simp [h.queue, h.buf], rfl⟩

/-- The output of an engine. -/
def output (e : KcpEngine) : List Bytes × Bytes := (e.output_queue, e.out_buf)

theorem with_output_image {segments segments' : List KcpSegment} (hlen : segments'.length = segments.length) :
    (σ.image out e).with_output segments' =
      σ.image (KcpEngine.pack e.config.mtu.toNat out segments') (e.with_output segments) := by
  simp only [KcpEngine.with_output, image, hlen]

/-- The open buffer is handed over at the same moment. -/
theorem flush_out_buf_image (hcut : SameCut (output e) out) :
    (σ.image out e).flush_out_buf = σ.image (closed out) e.flush_out_buf := by
  unfold KcpEngine.flush_out_buf closed
  by_cases hempty : e.out_buf = []
  · rw [if_neg (not_not.mpr hempty), if_neg (not_not.mpr (hcut.empty_iff.mpr hempty))]
    exact if_neg (not_not.mpr (hcut.empty_iff.mpr hempty))
  · rw [if_pos hempty, if_pos (mt hcut.empty_iff.mp hempty)]
    exact if_pos (mt hcut.empty_iff.mp hempty)

theorem output_flush_out_buf (e : KcpEngine) : output e.flush_out_buf = closed (output e) := by
  unfold KcpEngine.flush_out_buf closed output
  split <;> rfl

/-- A loss cuts the window by the same amount. -/
theorem update_congestion_on_loss_image (lost change : Bool) (resend : U32) :
    (σ.image out e).update_congestion_on_loss lost change resend =
      σ.image out (e.update_congestion_on_loss lost change resend) := by
  have hflight : (σ.image out e).snd_nxt - (σ.image out e).snd_una = e.snd_nxt - e.snd_una := add_sub_add_right_eq_sub ..
  rw [KcpEngine.update_congestion_on_loss_eq, KcpEngine.update_congestion_on_loss_eq, hflight]
  rfl

theorem update_congestion_control_image :
    (σ.image out e).update_congestion_control = σ.image out e.update_congestion_control := by
  have hlen := Rekey.length_rekey (add_right_injective σ.rcv) σ.stored e.rcv_buf
  simp only [KcpEngine.update_congestion_control, image, buffer, List.length_map, hlen]

/-- The segments a moved flush encodes have the sizes of those the flush itself encodes. -/
theorem size_outgoing (segments : List (Space × KcpSegment)) :
    ((segments.map σ.outgoing).map Prod.snd).map KcpSegment.size = (segments.map Prod.snd).map KcpSegment.size := by
  rw [List.map_map, List.map_map, List.map_map]
  apply List.map_congr_left
  rintro ⟨space, s⟩ _
  cases space <;> rfl

theorem size_emissions_image {clk : Clock} (h : σ.clock = 0 ∨ ¬ Overgrown e clk.now) :
    ((σ.image out e).emissions (σ.clk clk)).map KcpSegment.size = (e.emissions clk).map KcpSegment.size := by
  have hsizes := size_outgoing (σ := σ) (e.numbered_emissions clk)
  have himage : (σ.image out e).numbered_emissions (σ.clk clk) = _ := numbered_emissions_image h
  rwa [← himage, KcpEngine.numbered_emissions_snd, KcpEngine.numbered_emissions_snd] at hsizes

/-- The output after a flush of the moved engine, but for the closing of the last datagram. -/
def flushed (σ : Shift) (out : List Bytes × Bytes) (e : KcpEngine) (clk : Clock) : List Bytes × Bytes :=
  KcpEngine.pack e.config.mtu.toNat out ((σ.image out e).emissions (σ.clk clk))

/-- A flush that gives up commutes with the shift. -/
theorem flush_lost_image {clk : Clock} (h : σ.clock = 0 ∨ ¬ Overgrown e clk.now) :
    (σ.image out e).flush_lost (σ.clk clk) = σ.image (flushed σ out e clk) (e.flush_lost clk) := by
  have hsizes : ((σ.image out e).emissions (σ.clk clk)).map KcpSegment.size = _ := size_emissions_image h
  have hlen := congrArg List.length hsizes
  rw [List.length_map, List.length_map] at hlen
  obtain ⟨stats, hscan⟩ := e.scanned_ready_eq clk.now
  have hconfig : ((e.ready clk.now).scanned clk.now).config = e.config := by rw [hscan]
  rw [flushed, KcpEngine.flush_lost, KcpEngine.flush_lost, ← hconfig, ← with_output_image hlen, ← scanned_image,
    ← ready_image h]
  rfl

theorem flushed_cut {clk : Clock} (h : σ.clock = 0 ∨ ¬ Overgrown e clk.now) (hcut : SameCut (output e) out) :
    SameCut (output (e.flush_lost clk)) (flushed σ out e clk) := by
  obtain ⟨stats, hscan⟩ := e.scanned_ready_eq clk.now
  have hout : output (e.flush_lost clk) = KcpEngine.pack e.config.mtu.toNat (output e) (e.emissions clk) := by
    rw [KcpEngine.flush_lost, hscan]
    rfl
  rw [hout]
  exact hcut.pack e.config.mtu.toNat (size_emissions_image h)

/-- A flush that goes through commutes with the shift. -/
theorem flush_done_image {clk : Clock} (h : σ.clock = 0 ∨ ¬ Overgrown e clk.now) (hcut : SameCut (output e) out) :
    (σ.image out e).flush_done (σ.clk clk) = σ.image (closed (flushed σ out e clk)) (e.flush_done clk) ∧
      output (e.flush_done clk) = closed (output (e.flush_lost clk)) := by
  have hready : (σ.image out e).ready (σ.clk clk).now = σ.image out (e.ready clk.now) := ready_image h
  have htimeouts : ((σ.image out e).ready (σ.clk clk).now).timeouts (σ.clk clk).now = (e.ready clk.now).timeouts clk.now := by
    rw [hready]
    exact timeouts_image ..
  have hfasts : ((σ.image out e).ready (σ.clk clk).now).fasts (σ.clk clk).now = (e.ready clk.now).fasts clk.now := by
    rw [hready]
    exact fasts_image ..
  have hresend : ((σ.image out e).ready (σ.clk clk).now).resend_threshold = (e.ready clk.now).resend_threshold := by
    rw [hready]
    rfl
  have hout : ∀ lost change resend, output ((e.flush_lost clk).update_congestion_on_loss lost change resend) =
      output (e.flush_lost clk) := by
    intro lost change resend
    rw [KcpEngine.update_congestion_on_loss_eq]
    rfl
  unfold KcpEngine.flush_done
  dsimp only
  rw [htimeouts, hfasts, hresend, flush_lost_image h, update_congestion_on_loss_image, flush_out_buf_image,
    update_congestion_control_image]
  · refine ⟨rfl, ?_⟩
    rw [← hout, ← output_flush_out_buf]
    rfl
  · rw [hout]
    exact flushed_cut h hcut

/-- A flush of the moved engine is the moved flush, with the same result and the same cuts
between its datagrams. -/
theorem flush_image {clk : Clock} (h : σ.clock = 0 ∨ ¬ Overgrown e clk.now) (hcut : SameCut (output e) out) :
    ∃ out', SameCut (output (e.flush clk).1) out' ∧
      (σ.image out e).flush (σ.clk clk) = (σ.image out' (e.flush clk).1, (e.flush clk).2) := by
  have hdies : (σ.image out e).flush_dies (σ.clk clk).now = e.flush_dies clk.now := by
    unfold KcpEngine.flush_dies
    have hready : (σ.image out e).ready (σ.clk clk).now = σ.image out (e.ready clk.now) := ready_image h
    have hdue : (σ.image out (e.ready clk.now)).due (σ.clk clk).now = ((e.ready clk.now).due clk.now).map σ.sent :=
      due_image clk.now
    rw [hready, hdue, meets_dead_map]
    rfl
  have hflushed := flushed_cut h hcut
  rw [KcpEngine.flush_eq, KcpEngine.flush_eq, hdies]
  by_cases hdead : e.flush_dies clk.now = true
  · rw [if_pos hdead, if_pos hdead, flush_lost_image h]
    exact ⟨_, hflushed, rfl⟩
  · obtain ⟨hdone, hout⟩ := flush_done_image h hcut
    rw [if_neg hdead, if_neg hdead, hdone]
    exact ⟨_, by rw [hout]; exact hflushed.closed, rfl⟩

end Shift

end kcp_core.engine
