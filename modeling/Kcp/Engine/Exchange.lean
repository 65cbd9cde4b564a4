import Kcp.Engine.Retry

/-! One engine flushes, and another one takes in all that leaves it; then the other way
round. -/

open kcp_core.protocol kcp_core.config kcp_core.error

namespace kcp_core.engine.KcpEngine

/-- What `recv` leaves alone. -/
structure Reads (before after : KcpEngine) : Prop where
  conv : after.conv = before.conv
  snd_buf : after.snd_buf = before.snd_buf
  snd_queue : after.snd_queue = before.snd_queue
  wnd : after.wnd = before.wnd
  ack_list : after.ack_list = before.ack_list
  wait : after.probe.wait = before.probe.wait
  ts : after.probe.ts = before.probe.ts
  output_queue : after.output_queue = before.output_queue
  out_buf : after.out_buf = before.out_buf
  dead_link : after.dead_link = before.dead_link
  asked : Asked before → Asked after

theorem Reads.refl (e : KcpEngine) : Reads e e := ⟨rfl, rfl, rfl, rfl, rfl, rfl, rfl, rfl, rfl, rfl, id⟩

/-- One read after another. -/
theorem Reads.trans {a b c : KcpEngine} (first : Reads a b) (second : Reads b c) : Reads a c where
  conv := second.conv.trans first.conv
  snd_buf := second.snd_buf.trans first.snd_buf
  snd_queue := second.snd_queue.trans first.snd_queue
  wnd := second.wnd.trans first.wnd
  ack_list := second.ack_list.trans first.ack_list
  wait := second.wait.trans first.wait
  ts := second.ts.trans first.ts
  output_queue := second.output_queue.trans first.output_queue
  out_buf := second.out_buf.trans first.out_buf
  dead_link := second.dead_link.trans first.dead_link
  asked := second.asked ∘ first.asked

/-- A `recv` is a read. -/
theorem reads_recv (e : KcpEngine) : Reads e e.recv.1 := by
  have hasked : Asked e → Asked e.recv.1 := asked_recv
  obtain ⟨queue, buf, nxt, flags, received, heq⟩ := e.recv_shape
  rw [heq] at hasked ⊢
  exact ⟨rfl, rfl, rfl, rfl, rfl, rfl, rfl, rfl, rfl, rfl, hasked⟩

/-! ### One way -/

/-- An engine whose receive queue has room, and which reaches no limit by sending anything
once. -/
structure Speaker (e : KcpEngine) : Prop where
  window : SendWindow e
  snd_pos : 0 < e.wnd.snd.toNat
  snd_le : e.wnd.snd.toNat ≤ 65535
  rcv_le : e.wnd.rcv.toNat ≤ 65535
  room : e.rcv_queue.length < e.wnd.rcv.toNat
  addressed : Addressed (· = e.conv) e
  tries : 1 < e.dead_link.toNat

/-- An engine that is fit to speak advertises a window. -/
theorem Speaker.advertises {e : KcpEngine} (h : Speaker e) : e.advertised_wnd ≠ 0 := by
  rw [ne_eq, advertised_wnd_eq_zero_iff h.rcv_le, not_not]
  exact h.room

/-- `x` flushes and its output is drained; `y` takes all of it in, and acknowledges all
the data that was sent. -/
structure Spoke (clk : Clock) (x y x' y' : KcpEngine) : Prop where
  out : x' = (x.flush clk).1.drain_output.1
  took : y' = y.input_all clk.now (x.flush clk).1.output_queue
  heard : ∀ s ∈ x.sent_segments clk.now, s.header.sn ∈ y'.ack_list.map Prod.fst

/-- Before `x` speaks to `y`: all that `x` has in flight can be sent once more, and all that
`y` has, unless `x` is about to acknowledge it. -/
structure Turn (x y : KcpEngine) : Prop where
  spare : ∀ s ∈ x.snd_buf, Spare x s
  answered : ∀ s ∈ y.snd_buf, Spare y s ∨ s.header.sn ∈ x.ack_list.map Prod.fst

/-- In its turn an engine gives up on nothing. -/
theorem Turn.lives {x y : KcpEngine} (h : Turn x y) (hx : Speaker x) (current : Timestamp) :
    x.flush_dies current = false := flush_lives hx.tries h.spare current

/-- Reading does not take the turn away. -/
theorem Turn.reads {x y x' y' : KcpEngine} (h : Turn x y) (hx : Reads x x') (hy : Reads y y') : Turn x' y' := by
  refine ⟨?_, ?_⟩
  · unfold Spare
    rw [hx.snd_buf, hx.dead_link]
    exact h.spare
  · unfold Spare
    rw [hy.snd_buf, hy.dead_link, hx.ack_list]
    exact h.answered

section Spoke

variable {clk : Clock} {x y x' y' : KcpEngine}

/-- What `x` emits arrives at `y`. -/
theorem Speaker.arrives (hx : Speaker x) (hlives : x.flush_dies clk.now = false) {s : KcpSegment}
    (hs : s ∈ x.emissions clk) :
    ∃ data ∈ (x.flush clk).1.output_queue, ∃ t ∈ split_segments data, t.header = s.header ∧ t.header.conv = x.conv := by
  have haddressed : Addressed (fun _ => True) x :=
    ⟨trivial, hx.addressed.queue, fun s hs => ⟨(hx.addressed.buf s hs).1, trivial⟩,
      hx.addressed.half.mono fun _ _ _ => trivial⟩
  obtain ⟨half, hhalf, hsized⟩ := haddressed.half
  have hconv := (hx.addressed.emissions clk s hs).2
  rcases flush_leaves haddressed hhalf (fun s hs => (hsized s hs).1) clk (List.mem_append_right _ hs) with
    ⟨data, hdata, t, ht, hheader⟩ | ⟨hdies, _⟩
  · exact ⟨data, List.mem_of_mem_drop hdata, t, ht, hheader, (congrArg KcpHeader.conv hheader).trans hconv⟩
  · exact absurd (hlives.symm.trans hdies) Bool.false_ne_true

/-- What `x` acknowledges is not in flight at `y` any more. -/
theorem Spoke.clears (h : Spoke clk x y x' y') (hx : Speaker x) (hy : Speaker y) (hconv : y.conv = x.conv)
    (hlives : x.flush_dies clk.now = false) : ∀ sn ∈ x.ack_list.map Prod.fst, sn ∉ y'.snd_sns := by
  intro sn hsn
  obtain ⟨ack, hack, rfl⟩ := List.mem_map.mp hsn
  have hemitted : ack_segment x.conv x.advertised_wnd x.rcv_nxt clk.now ack ∈ x.emissions clk :=
    List.mem_append_left _ (List.mem_append_left _ (List.mem_map_of_mem hack))
  obtain ⟨data, hdata, t, ht, hheader, htconv⟩ := hx.arrives hlives hemitted
  have hcmd : t.header.cmd = constants.IKCP_CMD_ACK := by
    rw [hheader]
    rfl
  have hcleared := input_all_clears hy.window hy.snd_le clk.now hdata ht (htconv.trans hconv.symm) hcmd
  rw [h.took]
  rwa [hheader] at hcleared

/-- To speak leaves the backlog of the speaker as it was. -/
theorem Spoke.backlog_out (h : Spoke clk x y x' y') : x'.backlog = x.backlog := by
  rw [h.out]
  exact x.backlog_flush clk

/-- To listen adds nothing to that of the listener. -/
theorem Spoke.backlog_took (h : Spoke clk x y x' y') : y'.backlog ≤ y.backlog := by
  have hlen := y.length_snd_buf_input_all clk.now (x.flush clk).1.output_queue
  have hqueue := (y.inputFrame_input_all clk.now (x.flush clk).1.output_queue).snd_queue
  rw [h.took]
  unfold backlog
  rw [hqueue]
  omega

/-- Then it is the turn of `y`. -/
theorem Spoke.turn (h : Spoke clk x y x' y') (hx : Speaker x) (hy : Speaker y) (hconv : y.conv = x.conv)
    (hturn : Turn x y) : Turn y' x' := by
  have hclears := h.clears hx hy hconv (hturn.lives hx clk.now)
  have hlink : x'.dead_link = x.dead_link := by
    obtain ⟨queue, buf, stats, heq⟩ := x.flush_shape clk
    rw [h.out, heq]
    rfl
  have hlink' : y'.dead_link = y.dead_link := by
    rw [h.took]
    exact (y.inputFrame_input_all clk.now _).dead_link
  refine ⟨?_, ?_⟩
  · intro s hs
    have hstill : s.header.sn ∈ y'.snd_sns := List.mem_map_of_mem hs
    rw [h.took] at hs
    obtain ⟨before, hbefore, hsn, hxmit, _⟩ := y.xmit_input_all clk.now _ s hs
    unfold Spare
    rw [hlink', ← hxmit]
    rcases hturn.answered before hbefore with hspare | hacked
    · exact hspare
    · exact absurd (hsn ▸ hstill) (hclears _ hacked)
  · intro s hs
    rw [h.out] at hs
    rcases flushed_cases hs with hold | hsent
    · left
      unfold Spare
      rw [hlink]
      exact hturn.spare s hold
    · exact .inr (h.heard s hsent)

/-- If nothing waited to leave, what `x` emits opens its window at `y`. -/
theorem Spoke.opens (h : Spoke clk x y x' y') (hx : Speaker x) (hconv : y.conv = x.conv)
    (hlives : x.flush_dies clk.now = false) (hclean : Clean x) (hsome : y.wnd.rmt ≠ 0 ∨ x.emissions clk ≠ []) :
    y'.wnd.rmt ≠ 0 := by
  have hpacked : Packed (fun header _ => header.wnd ≠ 0) (x.flush clk).1 := by
    apply packed_flush
    · refine ⟨?_, ?_⟩
      · rw [hclean.1]
        exact fun _ h => absurd h List.not_mem_nil
      · rw [hclean.2]
        exact .nil
    · intro s hs
      refine ⟨(hx.addressed.emissions clk s hs).1, ?_⟩
      rw [x.emissions_wnd clk s hs]
      exact hx.advertises
  rw [h.took]
  apply rmt_input_all clk.now hpacked.queue
  refine hsome.imp_right fun hne => ?_
  obtain ⟨s, hs⟩ := List.exists_mem_of_ne_nil _ hne
  obtain ⟨data, hdata, t, ht, _, htconv⟩ := hx.arrives hlives hs
  exact ⟨data, hdata, t, ht, htconv.trans hconv.symm⟩

/-- A window request of `x` is heard. -/
theorem Spoke.asks (h : Spoke clk x y x' y') (hx : Speaker x) (hconv : y.conv = x.conv)
    (hlives : x.flush_dies clk.now = false) (hwask : ∃ s ∈ x.emissions clk, s.header.cmd = constants.IKCP_CMD_WASK) :
    Asked y' := by
  obtain ⟨s, hs, hcmd⟩ := hwask
  obtain ⟨data, hdata, t, ht, hheader, htconv⟩ := hx.arrives hlives hs
  rw [h.took]
  exact asked_input_all clk.now (.inr ⟨data, hdata, t, ht, htconv.trans hconv.symm, hheader ▸ hcmd⟩)

end Spoke

/-! ### And back -/

/-- Reading puts nothing on the way out. -/
theorem Clean.reads {before after : KcpEngine} (h : Clean before) (hreads : Reads before after) : Clean after :=
  ⟨hreads.output_queue.trans h.1, hreads.out_buf.trans h.2⟩

/-- Reading takes nothing off the backlog. -/
theorem Reads.backlog {before after : KcpEngine} (h : Reads before after) : after.backlog = before.backlog := by
  unfold KcpEngine.backlog
  rw [h.snd_buf, h.snd_queue]

/-- Both sides read all they can, `a` speaks to `b`, both read again, and `b` speaks to `a`. -/
inductive Round (clk : Clock) (a b : KcpEngine) : KcpEngine → KcpEngine → Prop where
  | mk {x y x₁ y₁ x₂ y₂ x₃ y₃ : KcpEngine} {back : Clock} (ha : Reads a x) (hb : Reads b y) (hx : Speaker x)
    (hy : Speaker y) (hconv : y.conv = x.conv) (first : Spoke clk x y x₁ y₁) (ha₁ : Reads x₁ x₂) (hb₁ : Reads y₁ y₂)
    (hx₂ : Speaker x₂) (hy₂ : Speaker y₂) (hconv₂ : x₂.conv = y₂.conv) (second : Spoke back y₂ x₂ y₃ x₃) :
    Round clk a b x₃ y₃

section Round

variable {clk : Clock} {a b a' b' : KcpEngine}

/-- In a round no backlog grows. -/
theorem Round.backlog_le (h : Round clk a b a' b') : a'.backlog ≤ a.backlog ∧ b'.backlog ≤ b.backlog := by
  obtain ⟨ha, hb, _, _, _, first, ha₁, hb₁, _, _, _, second⟩ := h
  refine ⟨?_, ?_⟩
  · exact second.backlog_took.trans (ha₁.backlog.trans (first.backlog_out.trans ha.backlog)).le
  · exact second.backlog_out.le.trans (hb₁.backlog.le.trans (first.backlog_took.trans hb.backlog.le))

/-- After a round both can take their turns again. -/
theorem Round.turn (h : Round clk a b a' b') (hturn : Turn a b) : Turn a' b' := by
  obtain ⟨ha, hb, hx, hy, hconv, first, ha₁, hb₁, hx₂, hy₂, hconv₂, second⟩ := h
  have hback := first.turn hx hy hconv (hturn.reads ha hb)
  exact second.turn hy₂ hx₂ hconv₂ (hback.reads hb₁ ha₁)

end Round

end kcp_core.engine.KcpEngine
