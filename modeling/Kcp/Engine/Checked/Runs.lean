import Kcp.Engine.Checked.Flush
import Kcp.Engine.Counters

open kcp_core.protocol kcp_core.config kcp_core.error

namespace kcp_core.engine

namespace checked

open KcpEngine (Timed Congested Configured SendWindow Stocked)

/-! ### One call -/

/-- Every counter of the statistics is in its 64 bits. -/
structure CountersFit (stats : KcpStats) : Prop where
  bytes_sent : stats.bytes_sent < 2 ^ 64
  bytes_received : stats.bytes_received < 2 ^ 64
  packets_sent : stats.packets_sent < 2 ^ 64
  packets_received : stats.packets_received < 2 ^ 64
  retransmissions : stats.retransmissions < 2 ^ 64
  fast_retransmissions : stats.fast_retransmissions < 2 ^ 64

/-- The states from which no call takes a word out of range, unless a counter overflows. -/
structure InRange (limit : Nat) (e : KcpEngine) : Prop where
  flush : FlushRange limit e
  smoothed : Smoothed e.rtt
  congested : Congested e
  mss_ge : 40 ≤ e.mss.toNat
  capped : e.rcv_queue.length ≤ e.wnd.rcv.toNat
  short : ∀ s ∈ e.rcv_queue, KcpEngine.Short s
  rcv : e.wnd.rcv.toNat ≤ 65535
  rcv_nxt : e.rcv_nxt.toNat < 2 ^ 30

theorem InRange.mtu_gt {limit : Nat} {e : KcpEngine} (h : InRange limit e) : 24 < e.config.mtu.toNat := by
  have hmss := h.mss_ge
  rw [h.flush.mtu]
  change 24 < 24 + e.mss.toNat
  omega

/-- The clock reading and the probe flags a call sets before it flushes matter to no bound. -/
theorem FlushRange.retimed {limit : Nat} {e : KcpEngine} (h : FlushRange limit e) (last : Timestamp) (flags : U32) :
    FlushRange limit { e with last_update := last, probe := { e.probe with flags } } where
  timed := ⟨h.timed.rtt, h.timed.paced, ⟨h.timed.timer.wait_le, h.timed.timer.deadline⟩, h.timed.probe_le⟩
  preset := h.preset
  mtu := h.mtu
  mss := h.mss
  stocked := ⟨h.stocked.queue, h.stocked.buf⟩
  packed := h.packed
  skipped := h.skipped
  window := h.window.congr rfl rfl rfl rfl
  snd := h.snd
  una := h.una
  nxt := h.nxt

/-- The flush of an `update`, or of a probe, does not fail in range. -/
theorem flush_retimed_eq {limit : Nat} {e : KcpEngine} (h : FlushRange limit e) {clk : Clock}
    (hle : limit ≤ clk.now.toNat) (hnow : clk.now.toNat < 2 ^ 30) (last : Timestamp) (flags : U32)
    (hfits : CountersFit
      (KcpEngine.flush { e with last_update := last, probe := { e.probe with flags } } clk).1.stats) :
    flush { e with last_update := last, probe := { e.probe with flags } } clk =
      some (KcpEngine.flush { e with last_update := last, probe := { e.probe with flags } } clk) := by
  have hcount := KcpEngine.flush_counters { e with last_update := last, probe := { e.probe with flags } } clk
  apply flush_eq (h.retimed last flags) hle hnow
  · rw [← hcount.packets_sent]
    exact hfits.packets_sent
  · rw [← hcount.retransmissions]
    exact hfits.retransmissions
  · rw [← hcount.fast_retransmissions]
    exact hfits.fast_retransmissions

/-- `update` brings a reading from the future back first, so its difference never goes
below zero. -/
theorem update_eq {limit : Nat} {e : KcpEngine} (h : FlushRange limit e) (now : Timestamp) {clk : Clock}
    (hclock : ∀ c, e.flush_of (.update now clk) = some c → limit ≤ c.now.toNat ∧ c.now.toNat < 2 ^ 30)
    (hfits : CountersFit (e.update now clk).1.stats) : update e now clk = some (e.update now clk) := by
  obtain ⟨last, hset, hlast, hback⟩ : ∃ last,
      (if now < e.last_update then { e with last_update := now } else e) = { e with last_update := last } ∧
        (if now < e.last_update then now else e.last_update) = last ∧ last.toNat ≤ now.toNat := by
    split
    · exact ⟨now, rfl, rfl, le_rfl⟩
    · rename_i hlate
      rw [BitVec.lt_def] at hlate
      exact ⟨e.last_update, rfl, rfl, by omega⟩
  unfold KcpEngine.flush_of at hclock
  simp only [hlast] at hclock
  unfold KcpEngine.update at hfits ⊢
  simp only [hset] at hfits ⊢
  unfold update
  simp only [hset, Checked.sub_eq hback, Option.bind_eq_bind, Option.bind_some]
  split
  · rename_i hdue
    rw [if_pos hdue] at hfits
    obtain ⟨hle, hnow⟩ := hclock clk (if_pos hdue)
    exact flush_retimed_eq h hle hnow now e.probe.flags hfits
  · rfl

/-- A datagram does not fail in range. -/
theorem InRange.input_eq {limit : Nat} {e : KcpEngine} (h : InRange limit e) (now : Timestamp) (data : Bytes)
    (hreceived : (e.input now data).1.stats.packets_received < 2 ^ 64) :
    input e now data = some (e.input now data) ∧ Smoothed (e.input now data).1.rtt := by
  have hrcv := h.rcv
  have hnxt := h.rcv_nxt
  have hcount : ∀ s ∈ e.snd_buf, s.fastack.toNat + 1 < 2 ^ 32 := by
    intro s hs
    have hfew := h.flush.skipped s hs
    omega
  exact checked.input_eq h.smoothed (interval_of_preset h.flush.preset) h.capped (by omega) h.mtu_gt.le h.congested
    h.mss_ge h.flush.mss hcount now data hreceived

/-- A call from a state in range does what the engine does, as long as the counters fit. -/
theorem step_eq {limit : Nat} {e : KcpEngine} (h : InRange limit e) (op : Op)
    (hclock : ∀ clk, e.flush_of op = some clk → limit ≤ clk.now.toNat ∧ clk.now.toNat < 2 ^ 30)
    (hfits : CountersFit (e.step op).stats) : step e op = some (e.step op) := by
  have hmtu := h.mtu_gt
  cases op with
  | send clk data =>
    have hsend := send_eq hmtu clk data hfits.bytes_sent
    exact congrArg (Option.map Prod.fst) hsend
  | recv =>
    have hrcv := h.rcv
    have hnxt := h.rcv_nxt
    have hrecv := recv_eq h.short (h.capped.trans hrcv) (by omega) hfits.bytes_received
    exact congrArg (Option.map Prod.fst) hrecv
  | input now data =>
    exact congrArg (Option.map Prod.fst) (h.input_eq now data hfits.packets_received).1
  | flush clk =>
    obtain ⟨hle, hnow⟩ := hclock clk rfl
    have hflush := flush_retimed_eq h.flush hle hnow e.last_update e.probe.flags hfits
    exact congrArg (Option.map Prod.fst) hflush
  | update now clk =>
    have hupdate := update_eq h.flush now hclock hfits
    exact congrArg (Option.map Prod.fst) hupdate
  | keep_alive_probe clk =>
    obtain ⟨hle, hnow⟩ := hclock clk rfl
    have hflush := flush_retimed_eq h.flush hle hnow e.last_update (e.probe.flags ||| constants.IKCP_ASK_SEND) hfits
    exact congrArg (Option.map Prod.fst) hflush
  | drain_output => rfl
  | set_conv conv => rfl

/-! ### What a run counts -/

/-- What counts up over a run, against what has been counted: numbers handed out and
datagrams that came in. -/
structure Tallied (sent inputs : Nat) (e : KcpEngine) : Prop where
  smoothed : Smoothed e.rtt
  packed : e.out_buf.length ≤ e.config.mtu.toNat
  skipped : ∀ s ∈ e.snd_buf, s.fastack.toNat ≤ inputs
  nxt : e.snd_nxt.toNat = sent
  una : e.snd_una.toNat ≤ sent

theorem fastack_mark_segment (e : KcpEngine) (current : Timestamp) (resend rtomin : U32) (s : KcpSegment) :
    (e.mark_segment current resend rtomin s).fastack.toNat ≤ s.fastack.toNat := by
  unfold KcpEngine.mark_segment
  split
  · exact le_rfl
  · exact le_rfl
  · exact Nat.zero_le _
  · exact le_rfl

/-- A skipped ACK is counted once for each datagram. -/
theorem skipped_step {n : Nat} {e : KcpEngine} (h : ∀ s ∈ e.snd_buf, s.fastack.toNat ≤ n) (op : Op) :
    ∀ s ∈ (e.step op).snd_buf, s.fastack.toNat ≤ n + if op.is_input then 1 else 0 := by
  have hkeep : ∀ s ∈ e.snd_buf, s.fastack.toNat ≤ n + if op.is_input then 1 else 0 := fun s hs =>
    (h s hs).trans (Nat.le_add_right _ _)
  apply KcpEngine.step_rule (P := fun e' => ∀ s ∈ e'.snd_buf, s.fastack.toNat ≤ n + if op.is_input then 1 else 0) op
  · intro clk data _
    obtain ⟨queue, sent, heq⟩ := e.send_shape clk data
    rw [heq]
    exact hkeep
  · intro _
    obtain ⟨queue, buf, nxt, flags, received, heq⟩ := e.recv_shape
    rw [heq]
    exact hkeep
  · intro now data hop s hs
    obtain ⟨kept, hsub, hcounted, _⟩ := e.input_snd_buf now data
    obtain ⟨before, hbefore, hcount⟩ := KcpEngine.exists_counted hcounted s hs
    have hold := h before (hsub.subset hbefore)
    rw [hop]
    change s.fastack.toNat ≤ n + 1
    cases hcount with
    | inl heq =>
      rw [heq]
      omega
    | inr heq =>
      have hone : (before.fastack + 1).toNat ≤ before.fastack.toNat + 1 := by
        rw [BitVec.toNat_add]
        exact Nat.mod_le _ _
      rw [heq]
      exact hone.trans (by omega)
  · intro last flags clk _ s hs
    obtain ⟨queue, buf, stats, heq⟩ :=
      KcpEngine.flush_shape { e with last_update := last, probe := { e.probe with flags } } clk
    rw [heq] at hs
    obtain ⟨before, hbefore, rfl⟩ := List.mem_map.mp hs
    refine (fastack_mark_segment _ _ _ _ _).trans ?_
    cases List.mem_append.mp hbefore with
    | inl hold => exact hkeep before hold
    | inr hnew =>
      rw [fastack_numbered _ _ _ _ before hnew]
      exact Nat.zero_le _
  · exact fun _ => hkeep
  · exact hkeep
  · exact fun _ => hkeep

/-- A flush leaves less than a datagram in the open buffer. -/
theorem packed_flush {e : KcpEngine} (h : e.out_buf.length ≤ e.config.mtu.toNat) (hstocked : Stocked e)
    (hmtu : e.config.mtu.toNat = KcpHeader.SIZE + e.mss.toNat) (clk : Clock) :
    (e.flush clk).1.out_buf.length ≤ (e.flush clk).1.config.mtu.toNat := by
  have hconfig : (e.flush clk).1.config = e.config := by
    obtain ⟨queue, buf, stats, heq⟩ := e.flush_shape clk
    rw [heq]
  have hpack := length_pack_le (KcpEngine.size_emissions hstocked hmtu clk)
    (show (e.output_queue, e.out_buf).2.length ≤ e.config.mtu.toNat from h)
  have hout : (e.flush clk).1.out_buf = _ := congrArg Prod.snd (e.flush_output clk)
  rw [hconfig, hout]
  split
  · exact hpack
  · unfold KcpEngine.close_out
    split
    · exact Nat.zero_le _
    · exact hpack

/-- Nothing grows the open datagram past the MTU. -/
theorem packed_step {e : KcpEngine} (h : e.out_buf.length ≤ e.config.mtu.toNat) (hstocked : Stocked e)
    (hmtu : e.config.mtu.toNat = KcpHeader.SIZE + e.mss.toNat) (op : Op) :
    (e.step op).out_buf.length ≤ (e.step op).config.mtu.toNat := by
  apply KcpEngine.step_rule (P := fun e' => e'.out_buf.length ≤ e'.config.mtu.toNat) op
  · intro clk data _
    obtain ⟨queue, sent, heq⟩ := e.send_shape clk data
    rw [heq]
    exact h
  · intro _
    obtain ⟨queue, buf, nxt, flags, received, heq⟩ := e.recv_shape
    rw [heq]
    exact h
  · intro now data _
    have hframe := e.inputFrame_input now data
    rw [hframe.out_buf, hframe.config]
    exact h
  · intro last flags clk _
    apply packed_flush
    · exact h
    · exact ⟨hstocked.queue, hstocked.buf⟩
    · exact hmtu
  · exact fun _ => h
  · exact h
  · exact fun _ => h

/-- Only a datagram moves the smoothed round-trip times. -/
theorem smoothed_step {limit : Nat} {e : KcpEngine} (h : InRange limit e) (op : Op)
    (hfits : CountersFit (e.step op).stats) : Smoothed (e.step op).rtt := by
  have hsame : op.is_input = false → (e.step op).rtt = e.rtt := by
    intro hother
    apply KcpEngine.step_rule (P := fun e' => e'.rtt = e.rtt) op
    · intro clk data _
      obtain ⟨queue, sent, heq⟩ := e.send_shape clk data
      rw [heq]
    · intro _
      obtain ⟨queue, buf, nxt, flags, received, heq⟩ := e.recv_shape
      rw [heq]
    · intro now data hop
      rw [hop] at hother
      cases hother
    · intro last flags clk _
      obtain ⟨queue, buf, stats, heq⟩ :=
        KcpEngine.flush_shape { e with last_update := last, probe := { e.probe with flags } } clk
      rw [heq]
    · exact fun _ => rfl
    · rfl
    · exact fun _ => rfl
  cases hop : op.is_input with
  | false =>
    rw [hsame hop]
    exact h.smoothed
  | true =>
    cases op with
    | input now data => exact (h.input_eq now data hfits.packets_received).2
    | _ => cases hop

/-- The tally after one more call, while no number wraps. -/
theorem Tallied.step {sent inputs limit : Nat} {e : KcpEngine} (h : Tallied sent inputs e) (hrange : InRange limit e)
    (op : Op) (hsent : sent + e.numbers op < 2 ^ 30) (hfits : CountersFit (e.step op).stats) :
    Tallied (sent + e.numbers op) (inputs + if op.is_input then 1 else 0) (e.step op) := by
  have hnxt : (e.step op).snd_nxt.toNat = sent + e.numbers op := by
    rw [← h.nxt] at hsent ⊢
    exact Serial.toNat_add_offset (by unfold KcpEngine.numbers at hsent; omega)
  have huna := h.una
  have hadvances := (KcpEngine.sendWindow_step hrange.flush.window hrange.flush.snd op).2
  have hforward := hadvances.forward
  have hbefore := h.nxt
  rw [Serial.offset_of_le (show e.snd_una.toNat ≤ e.snd_nxt.toNat by omega)] at hforward
  have hmoved : (e.step op).snd_una.toNat = e.snd_una.toNat + Serial.offset e.snd_una (e.step op).snd_una :=
    Serial.toNat_add_offset (by omega)
  exact {
    smoothed := smoothed_step hrange op hfits
    packed := packed_step h.packed hrange.flush.stocked hrange.flush.mtu op
    skipped := skipped_step h.skipped op
    nxt := hnxt
    una := by omega }

end checked

open checked

theorem checked.reached_concat (start : Start) (ops : List Op) (op : Op) :
    checked.reached start (ops ++ [op]) = (checked.reached start ops).bind fun e => checked.step e op := by
  unfold checked.reached
  rw [List.foldlM_append]
  congr 1
  funext e
  rw [List.foldlM_cons]
  exact bind_pure _

/-- The readings before a call are bounded by the reading of the flush it runs, if it runs one. -/
theorem Ordered.limit {ops : List Op} {op : Op} (h : Ordered (ops ++ [op])) (e : KcpEngine) :
    ∃ limit, (∀ t ∈ ops.flatMap Op.readings, t.toNat ≤ limit) ∧
      ∀ clk, e.flush_of op = some clk → limit ≤ clk.now.toNat ∧ clk.now.toNat < 2 ^ 30 := by
  obtain ⟨hbefore, hcross⟩ := h.concat
  cases hflush : e.flush_of op with
  | none => exact ⟨2 ^ 30, fun t ht => (hbefore.early t ht).le, fun clk hclk => by cases hclk⟩
  | some clk =>
    have hmem := mem_readings_of_flush hflush
    refine ⟨clk.now.toNat, fun t ht => hcross t ht clk.now hmem, fun c hc => ?_⟩
    cases hc
    refine ⟨le_rfl, h.early clk.now ?_⟩
    rw [List.flatMap_append]
    exact List.mem_append_right _ (by simpa using hmem)

/-- The runs in question: the clock never goes back and stays below `2 ^ 30`, fewer than
`2 ^ 30` segments are numbered and fewer than that accepted, and fewer than `2 ^ 30`
datagrams come in, none longer than UDP allows. -/
structure Moderate (start : Start) (ops : List Op) : Prop where
  clock : Ordered ops
  numbered : start.numbers ops < 2 ^ 30
  accepted : start.accepts ops < 2 ^ 30
  inputs : ops.countP Op.is_input < 2 ^ 30
  datagrams : ∀ op ∈ ops, op.Datagram

/-- A run that is moderate was so a step before. -/
theorem Moderate.concat {start : Start} {ops : List Op} {op : Op} (h : Moderate start (ops ++ [op])) :
    Moderate start ops ∧ start.numbers ops + (start.reached ops).numbers op < 2 ^ 30 := by
  have hnumbered := h.numbered
  have haccepted := h.accepted
  have hinputs := h.inputs
  unfold Start.numbers at hnumbered
  unfold Start.accepts at haccepted
  rw [Trace.total_concat] at hnumbered haccepted
  rw [List.countP_append] at hinputs
  refine ⟨⟨h.clock.concat.1, ?_, ?_, ?_, fun o ho => h.datagrams o (List.mem_append_left _ ho)⟩, hnumbered⟩
  · exact lt_of_le_of_lt (Nat.le_add_right _ _) hnumbered
  · exact lt_of_le_of_lt (Nat.le_add_right _ _) haccepted
  · exact lt_of_le_of_lt (Nat.le_add_right _ _) hinputs

/-- The engine of a moderate run is in range. -/
theorem Moderate.inRange {start : Start} (hmode : start.config.nodelay.IsPreset) {ops : List Op}
    (h : Moderate start ops) (htally : Tallied (start.numbers ops) (ops.countP Op.is_input) (start.reached ops))
    {limit : Nat} (hlimit : ∀ t ∈ ops.flatMap Op.readings, t.toNat ≤ limit) : InRange limit (start.reached ops) := by
  have hset := start.configured ops
  have hcount := start.recvCount ops
  have haccepted := h.accepted
  have hnumbered := h.numbered
  have hinputs := h.inputs
  obtain ⟨hlow, hhigh⟩ := KcpEngine.mss_bounds hset start.accepted
  have hnxt := htally.nxt
  exact {
    flush := {
      timed := start.timed hmode ops h.clock limit hlimit
      preset := by
        rw [hset.config]
        exact hmode
      mtu := (start.origin.mtu_eq ops).1
      mss := hhigh
      stocked := start.origin.stocked ops
      packed := htally.packed
      skipped := fun s hs => lt_of_le_of_lt (htally.skipped s hs) hinputs
      window := start.sendWindow ops
      snd := start.snd_le ops
      una := htally.una.trans hnxt.ge
      nxt := by omega }
    smoothed := htally.smoothed
    congested := start.congested hmode ops
    mss_ge := hlow
    capped := hcount.window.capped
    short := (start.settled ops h.datagrams).1.queue
    rcv := start.rcv_le ops
    rcv_nxt := by
      rw [hcount.nxt, BitVec.toNat_ofNat]
      omega }

/-- The counters that a caller raises by its calls alone are in their 64 bits. -/
structure SentFit (stats : KcpStats) : Prop where
  bytes_sent : stats.bytes_sent < 2 ^ 64
  packets_sent : stats.packets_sent < 2 ^ 64

/-- The clock, the numbers and the datagrams keep the others low. -/
theorem Moderate.counters {start : Start} (hmode : start.config.nodelay.IsPreset) {ops : List Op} (h : Moderate start ops)
    (hsent : SentFit (start.reached ops).stats) : CountersFit (start.reached ops).stats := by
  have hnumbered := h.numbered
  have haccepted := h.accepted
  have hinputs := h.inputs
  have hreceived := start.packets_received_le ops
  have hbytes := start.bytes_received_le ops h.datagrams
  have hresent := start.resent_le hmode ops h.clock
  unfold KcpEngine.resent at hresent
  exact {
    bytes_sent := hsent.bytes_sent
    bytes_received := by omega
    packets_sent := hsent.packets_sent
    packets_received := by omega
    retransmissions := by omega
    fast_retransmissions := by omega }

/-- In a moderate run the checked engine reaches the same state. -/
theorem Moderate.reached_eq {start : Start} (hmode : start.config.nodelay.IsPreset) {ops : List Op}
    (h : Moderate start ops)
    (hcounters : Trace.Always KcpEngine.step (fun e op => SentFit (e.step op).stats) start.fresh ops) :
    Tallied (start.numbers ops) (ops.countP Op.is_input) (start.reached ops) ∧
      checked.reached start ops = some (start.reached ops) := by
  revert h
  apply Trace.invariant_of_always (P := fun ops e => Moderate start ops →
    Tallied (start.numbers ops) (ops.countP Op.is_input) e ∧ checked.reached start ops = some e) _ _ hcounters
  · intro _
    refine ⟨⟨⟨?_, ?_⟩, Nat.zero_le _, ?_, rfl, le_rfl⟩, rfl⟩
    · exact Nat.zero_le _
    · exact Nat.zero_le _
    · exact fun s hs => by cases hs
  · intro ops op ih hsent h
    obtain ⟨hbefore, hnumbered⟩ := h.concat
    obtain ⟨htally, hreached⟩ := ih hbefore
    obtain ⟨limit, hlimit, hclock⟩ := h.clock.limit (start.reached ops)
    have hrange := hbefore.inRange hmode htally hlimit
    have hfits : CountersFit ((start.reached ops).step op).stats := by
      rw [← Start.reached_concat]
      apply h.counters hmode
      rw [Start.reached_concat]
      exact hsent
    have hstep := step_eq hrange op hclock hfits
    have hnext := htally.step hrange op hnumbered hfits
    have hnumbers : start.numbers (ops ++ [op]) = start.numbers ops + (start.reached ops).numbers op :=
      Trace.total_concat ..
    have hcount : (ops ++ [op]).countP Op.is_input = ops.countP Op.is_input + if op.is_input then 1 else 0 := by
      rw [List.countP_append, List.countP_singleton]
    constructor
    · rw [hnumbers, hcount]
      exact hnext
    · rw [checked.reached_concat, hreached]
      exact hstep

/-- In a moderate run with one of the named modes, a debug build never panics while the counts of what
is sent fit their 64 bits: every plain addition, subtraction, multiplication and division stays
in range, and so does every index and slice. -/
theorem no_panic (start : Start) (hmode : start.config.nodelay.IsPreset) (ops : List Op) (h : Moderate start ops)
    (hcounters : Trace.Always KcpEngine.step (fun e op => SentFit (e.step op).stats) start.fresh ops) :
    checked.reached start ops = some (start.reached ops) := (h.reached_eq hmode hcounters).2

instance decidableSentFit (stats : KcpStats) : Decidable (SentFit stats) :=
  decidable_of_iff (stats.bytes_sent < 2 ^ 64 ∧ stats.packets_sent < 2 ^ 64)
    ⟨fun ⟨h₁, h₂⟩ => ⟨h₁, h₂⟩, fun h => ⟨h.bytes_sent, h.packets_sent⟩⟩

instance decidableDatagram : (op : Op) → Decidable op.Datagram
  | .input _ data => inferInstanceAs (Decidable (data.length ≤ 65535))
  | .send _ _ | .recv | .flush _ | .update _ _ | .keep_alive_probe _ | .drain_output | .set_conv _ =>
    .isTrue trivial

/-- Two messages, a retransmission, and the ACK of the second. -/
def acknowledged_run : List Op :=
  [.send (.at 0) [1], .send (.at 0) [2], .flush (.at 0), .flush (.at 400),
    .input 500 (KcpSegment.ack 7 1 400 0).bytes, .recv]

/-- A segment is sent, acknowledged, and another received. -/
theorem no_panic_acknowledged : checked.reached plain acknowledged_run = some (plain.reached acknowledged_run) :=
  no_panic plain (.inl rfl) acknowledged_run
    ⟨⟨by decide +kernel, by simp [acknowledged_run, Op.readings]⟩, by decide +kernel, by decide +kernel,
      by decide +kernel, by decide +kernel⟩ (by decide +kernel)

/-! ### A counter that overflows -/

/-- An engine that has sent `n` probes and nothing else, and whose output is drained. -/
structure Probed (n : Nat) (e : KcpEngine) : Prop where
  acks : e.ack_list = []
  flags : e.probe.flags = 0
  rmt : e.wnd.rmt ≠ 0
  queue : e.snd_queue = []
  buf : e.snd_buf = []
  output : e.output_queue = []
  packed : e.out_buf = []
  snd_nxt : e.snd_nxt = 0
  rcv_nxt : e.rcv_nxt = 0
  bytes_sent : e.stats.bytes_sent = 0
  packets_sent : e.stats.packets_sent = n

/-- The engine of `keep_alive_probe`, about to flush. -/
def asking (e : KcpEngine) : KcpEngine :=
  { e with probe := { e.probe with flags := e.probe.flags ||| constants.IKCP_ASK_SEND } }

/-- An idle engine that is asked to probe has no timer to set. -/
theorem Probed.timer {n : Nat} {e : KcpEngine} (h : Probed n e) (now : Timestamp) :
    (asking e).probe_timer now = { flags := constants.IKCP_ASK_SEND, wait := 0, ts := 0 } := by
  have hopen : (asking e).wnd.rmt ≠ 0 := h.rmt
  rw [KcpEngine.probe_timer_open hopen]
  unfold asking
  dsimp only
  rw [h.flags]
  rfl

theorem Probed.ready {n : Nat} {e : KcpEngine} (h : Probed n e) (now : Timestamp) :
    (asking e).admitted = 0 ∧ ((asking e).ready now).snd_buf = [] := by
  have hqueue : (asking e).snd_queue = [] := h.queue
  have hbuf : (asking e).snd_buf = [] := h.buf
  have hadmitted : (asking e).admitted = 0 := by
    have hle := (asking e).admitted_le
    rw [hqueue] at hle
    exact Nat.le_zero.mp hle
  refine ⟨hadmitted, ?_⟩
  rw [(asking e).ready_eq]
  dsimp only
  rw [hbuf, hqueue, List.take_nil]
  rfl

/-- One more probe makes one datagram, which is drained. -/
theorem Probed.step {n : Nat} {e : KcpEngine} (h : Probed n e) (clk : Clock) :
    Probed (n + 1) ((e.step (.keep_alive_probe clk)).step .drain_output) ∧
      (e.step (.keep_alive_probe clk)).output_queue.length = 1 := by
  obtain ⟨hadmitted, hready⟩ := h.ready clk.now
  have htimer := h.timer clk.now
  have hdue : ((asking e).ready clk.now).due clk.now = [] := by
    unfold KcpEngine.due KcpEngine.picked
    rw [hready]
    rfl
  obtain ⟨segment, hemit⟩ : ∃ segment, (asking e).emissions clk = [segment] := by
    have hacks : (asking e).ack_list = [] := h.acks
    unfold KcpEngine.emissions KcpEngine.acks_out KcpEngine.probes_out
    rw [hacks, hdue, htimer]
    exact ⟨_, rfl⟩
  have hcount := (asking e).flush_counters clk
  have hbuf : (asking e).flushed_buf clk.now = [] := by
    rw [(asking e).ready_eq] at hready
    dsimp only at hready
    unfold KcpEngine.flushed_buf
    rw [hready]
    rfl
  have hlives : ¬ (asking e).flush_dies clk.now = true := by
    rw [KcpEngine.flush_dies, hdue]
    exact Bool.false_ne_true
  have hout : (((asking e).flush clk).1.output_queue, ((asking e).flush clk).1.out_buf) = ([segment.bytes], []) := by
    have hnone : ((asking e).output_queue, (asking e).out_buf) = ([], []) := Prod.ext h.output h.packed
    have hsome : segment.bytes ≠ [] := by
      rw [← List.length_pos_iff, KcpSegment.length_bytes]
      exact Nat.lt_of_lt_of_le (by decide) (Nat.le_add_right KcpHeader.SIZE _)
    rw [KcpEngine.flush_output, if_neg hlives, hnone, hemit]
    simp [KcpEngine.pack, KcpEngine.pack_one, KcpEngine.close_out, hsome]
  obtain ⟨hqueue, hopen⟩ := Prod.mk.inj hout
  have hrmt := ((asking e).flushed_wnd_frame clk.now).2.2
  rw [hemit] at hcount
  change Probed (n + 1) { ((asking e).flush clk).1 with output_queue := [] } ∧ ((asking e).flush clk).1.output_queue.length = 1
  refine ⟨?_, by rw [hqueue]; rfl⟩
  obtain ⟨queue, buf, stats, heq⟩ := (asking e).flush_shape clk
  rw [heq] at hcount hopen ⊢
  exact {
    acks := rfl
    flags := rfl
    rmt := by
      rw [hrmt]
      exact h.rmt
    queue := by
      change List.drop _ e.snd_queue = []
      rw [h.queue, List.drop_nil]
    buf := hbuf
    output := rfl
    packed := hopen
    snd_nxt := by
      change e.snd_nxt + BitVec.ofNat 32 (asking e).admitted = 0
      rw [hadmitted, h.snd_nxt]
      rfl
    rcv_nxt := h.rcv_nxt
    bytes_sent := hcount.bytes_sent.trans h.bytes_sent
    packets_sent := hcount.packets_sent.trans (congrArg (· + 1) h.packets_sent) }

theorem Probed.fits {n : Nat} {e : KcpEngine} (h : Probed n e) (hn : n < 2 ^ 64) : SentFit e.stats where
  bytes_sent := by rw [h.bytes_sent]; decide
  packets_sent := by rw [h.packets_sent]; exact hn

/-- The next datagram takes the full counter over its width. -/
theorem output_segment_full {e : KcpEngine} (hfull : 2 ^ 64 ≤ e.stats.packets_sent + 1) (segment : KcpSegment) :
    output_segment e segment = none := by
  have hcount : Checked.add64 e.stats.packets_sent 1 = none := if_neg (by omega)
  unfold output_segment
  cases segment_size segment with
  | none => rfl
  | some need =>
    simp only [Option.bind_eq_bind, Option.bind_some]
    cases Checked.add64 e.out_buf.length need with
    | none => rfl
    | some total =>
      simp only [Option.bind_some]
      split
      · simp only [hcount, Option.bind_none]
      · simp only [hcount, Option.bind_none]

/-- The probe itself is one segment too many once the counter stands at its maximum. -/
theorem Probed.overflow {n : Nat} {e : KcpEngine} (h : Probed n e) (hfull : 2 ^ 64 ≤ n + 1) (clk : Clock) :
    checked.step e (.keep_alive_probe clk) = none := by
  have htimer : probe_timer (asking e) clk.now = some { flags := constants.IKCP_ASK_SEND, wait := 0, ts := 0 } := by
    have hopen : ¬ (asking e).wnd.rmt = 0 := h.rmt
    rw [← h.timer clk.now]
    unfold probe_timer KcpEngine.probe_timer
    rw [if_neg hopen, if_neg hopen]
  have hacks : flush_acks (asking e) clk = some (asking e) := by
    have hnone : (asking e).ack_list.isEmpty = true := by
      change e.ack_list.isEmpty = true
      rw [h.acks]
      rfl
    unfold flush_acks
    rw [if_pos hnone]
  have hask : constants.IKCP_ASK_SEND &&& constants.IKCP_ASK_SEND ≠ 0 := by decide
  have hprobe : handle_window_probe (asking e) clk = none := by
    have hsent : (asking e).stats.packets_sent = n := h.packets_sent
    unfold handle_window_probe
    simp only [htimer, create_probe_segment_eq, Option.bind_eq_bind, Option.bind_some, if_pos hask]
    rw [output_segment_full]
    · rfl
    · dsimp only
      omega
  have hflush : flush (asking e) clk = none := by
    unfold flush
    simp only [hacks, hprobe, Option.bind_eq_bind, Option.bind_some, Option.bind_none]
  exact congrArg (Option.map Prod.fst) hflush

/-- The keep-alive probes of an idle connection, each drained when it is made. -/
def probes (n : Nat) : List Op := (List.replicate n [.keep_alive_probe (.at 0), .drain_output]).flatten

theorem probes_succ (n : Nat) : probes (n + 1) = probes n ++ [.keep_alive_probe (.at 0)] ++ [.drain_output] := by
  unfold probes
  rw [List.replicate_succ', List.flatten_append, List.append_assoc]
  rfl

theorem mem_probes {n : Nat} {op : Op} (h : op ∈ probes n) : op = .keep_alive_probe (.at 0) ∨ op = .drain_output := by
  obtain ⟨pair, hpair, hop⟩ := List.mem_flatten.mp h
  rw [List.eq_of_mem_replicate hpair] at hop
  simpa using hop

/-- Each probe is one packet, and leaves nothing behind. -/
theorem probed_reached (n : Nat) : Probed n (plain.reached (probes n)) := by
  induction n with
  | zero => exact ⟨rfl, rfl, by decide, rfl, rfl, rfl, rfl, rfl, rfl, rfl, rfl⟩
  | succ n ih =>
    rw [probes_succ, Start.reached_concat, Start.reached_concat]
    exact (ih.step (.at 0)).1

/-- The run numbers and accepts nothing. -/
theorem totals_probes (n : Nat) : plain.numbers (probes n) = 0 ∧ plain.accepts (probes n) = 0 := by
  induction n with
  | zero => exact ⟨rfl, rfl⟩
  | succ n ih =>
    have hbefore := probed_reached n
    have hafter := (hbefore.step (.at 0)).1
    have hnumbers : (plain.reached (probes n)).numbers (.keep_alive_probe (.at 0)) = 0 := by
      change Serial.offset (plain.reached (probes n)).snd_nxt
        (((plain.reached (probes n)).step (.keep_alive_probe (.at 0))).step .drain_output).snd_nxt = 0
      rw [hbefore.snd_nxt, hafter.snd_nxt, Serial.offset_self]
    have haccepts : (plain.reached (probes n)).accepts (.keep_alive_probe (.at 0)) = 0 := by
      change Serial.offset (plain.reached (probes n)).rcv_nxt
        (((plain.reached (probes n)).step (.keep_alive_probe (.at 0))).step .drain_output).rcv_nxt = 0
      rw [hbefore.rcv_nxt, hafter.rcv_nxt, Serial.offset_self]
    have hdrain : ∀ e : KcpEngine, e.numbers .drain_output = 0 ∧ e.accepts .drain_output = 0 := fun e =>
      ⟨Serial.offset_self _, Serial.offset_self _⟩
    rw [probes_succ]
    unfold Start.numbers Start.accepts at ih ⊢
    rw [Trace.total_concat, Trace.total_concat, Trace.total_concat, Trace.total_concat, ih.1, ih.2, (hdrain _).1,
      (hdrain _).2]
    exact ⟨(Nat.zero_add _).trans hnumbers, (Nat.zero_add _).trans haccepts⟩

/-- Probes number and accept nothing, no datagram comes in, and the clock stands still. -/
theorem moderate_probes (n : Nat) : Moderate plain (probes n) := by
  have hzero : ∀ t ∈ (probes n).flatMap Op.readings, t = 0 := by
    intro t ht
    obtain ⟨op, hop, ht⟩ := List.mem_flatMap.mp ht
    rcases mem_probes hop with rfl | rfl
    · exact List.mem_singleton.mp ht
    · cases ht
  obtain ⟨hnumbers, haccepts⟩ := totals_probes n
  constructor
  · constructor
    · apply List.pairwise_of_forall_mem_list
      intro a ha b hb
      rw [hzero a ha, hzero b hb]
    · intro t ht
      rw [hzero t ht]
      decide
  · rw [hnumbers]
    decide
  · rw [haccepts]
    decide
  · have hnone : (probes n).countP Op.is_input = 0 := by
      rw [List.countP_eq_zero]
      intro op hop
      rcases mem_probes hop with rfl | rfl
      · exact Bool.false_ne_true
      · exact Bool.false_ne_true
    rw [hnone]
    decide
  · intro op hop
    rcases mem_probes hop with rfl | rfl
    · trivial
    · trivial

theorem counters_probes {n : Nat} (hn : n < 2 ^ 64) :
    Trace.Always KcpEngine.step (fun e op => SentFit (e.step op).stats) plain.fresh (probes n) := by
  induction n with
  | zero => trivial
  | succ n ih =>
    have hfits : SentFit ((plain.reached (probes n)).step (.keep_alive_probe (.at 0))).stats :=
      ((probed_reached n).step (.at 0)).1.fits hn
    rw [probes_succ, Trace.always_concat, Trace.always_concat, Trace.run_concat]
    exact ⟨⟨ih (by omega), hfits⟩, hfits⟩

/-- At no call more than one datagram waits to be drained. -/
def Drained (start : Start) (ops : List Op) : Prop :=
  Trace.Always KcpEngine.step (fun e _ => e.output_queue.length ≤ 1) start.fresh ops

/-- Never more than one datagram waits to be drained. -/
theorem drained_probes (n : Nat) : Drained plain (probes n) := by
  induction n with
  | zero => trivial
  | succ n ih =>
    unfold Drained at ih ⊢
    rw [probes_succ, Trace.always_concat, Trace.always_concat, Trace.run_concat]
    refine ⟨⟨ih, ?_⟩, ((probed_reached n).step (.at 0)).2.le⟩
    change (plain.reached (probes n)).output_queue.length ≤ 1
    rw [(probed_reached n).output]
    exact Nat.zero_le _

/-- A counter of 64 bits overflows in the end: an idle engine is asked to probe `2 ^ 64`
times, and drained each time. Nothing is numbered or accepted on the way, no datagram comes in
and the clock stands still, yet the last call panics. -/
theorem counter_overflows : ¬ ∀ start : Start, start.config.nodelay.IsPreset → ∀ ops, Moderate start ops →
    Drained start ops → checked.reached start ops ≠ none := by
  intro hclaim
  obtain ⟨n, hn⟩ : ∃ n, n + 1 = 2 ^ 64 := ⟨2 ^ 64 - 1, by norm_num⟩
  have hmoderate : Moderate plain (probes n ++ [.keep_alive_probe (.at 0)]) := by
    have hwhole := moderate_probes (n + 1)
    rw [probes_succ] at hwhole
    exact hwhole.concat.1
  have hdrained : Drained plain (probes n ++ [.keep_alive_probe (.at 0)]) := by
    have hwhole := drained_probes (n + 1)
    unfold Drained at hwhole ⊢
    rw [probes_succ, Trace.always_concat] at hwhole
    exact hwhole.1
  apply hclaim plain (.inl rfl) _ hmoderate hdrained
  rw [checked.reached_concat, ((moderate_probes n).reached_eq (.inl rfl) (counters_probes (by omega))).2]
  exact (probed_reached n).overflow hn.ge (.at 0)

end kcp_core.engine
