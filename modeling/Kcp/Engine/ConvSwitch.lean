import Kcp.Engine.Emission

open kcp_core.protocol kcp_core.config kcp_core.error
open Packing

namespace kcp_core.engine

namespace KcpEngine

/-! ### Datagrams appended by a call -/

/-- The datagrams that a call adds to the output queue. -/
def appended (self : KcpEngine) (op : Op) : List Bytes := (self.step op).output_queue.drop self.output_queue.length

/-- A flush closes datagrams out of the segments that lay half packed and those it emits.
It leaves the last of them half packed only if it runs into a dead link. -/
theorem flush_groups {self : KcpEngine} {half : List KcpSegment} (h : self.out_buf = datagram half) (clk : Clock) :
    ∃ (groups : List (List KcpSegment)) (rest : List KcpSegment),
      (self.flush clk).1.output_queue = self.output_queue ++ groups.map datagram ∧
      (self.flush clk).1.out_buf = datagram rest ∧ groups.flatten ++ rest = half ++ self.emissions clk ∧
      (self.flush_dies clk.now = false → rest = []) := by
  have hout := self.flush_output clk
  have hpack := pack_eq_fill self.config.mtu.toNat self.output_queue ([], half) (self.emissions clk)
  have hflat := @fill_flatten _ KcpSegment.size self.config.mtu.toNat ([], half) (self.emissions clk)
  simp only [List.map_nil, List.append_nil, List.flatten_nil, List.nil_append] at hpack hflat
  rw [h, hpack] at hout
  split at hout
  · rename_i hdies
    obtain ⟨hqueue, hbuf⟩ := Prod.mk.inj hout
    exact ⟨_, _, hqueue, hbuf, hflat, fun hlives => absurd (hlives.symm.trans hdies) Bool.false_ne_true⟩
  · rw [close_out_datagrams] at hout
    obtain ⟨hqueue, hbuf⟩ := Prod.mk.inj hout
    exact ⟨_, [], hqueue, hbuf, by rw [List.append_nil, close_flatten, hflat], fun _ => rfl⟩

/-! ### What carries which conversation -/

variable {Q : ConvId → Prop}

/-- The engine's conversation, and those of the segments in flight and half packed, meet
`Q`; and every header on its way out gives the length of its payload. -/
structure Addressed (Q : ConvId → Prop) (e : KcpEngine) : Prop where
  conv : Q e.conv
  queue : ∀ s ∈ e.snd_queue, Sized s
  buf : ∀ s ∈ e.snd_buf, Sized s ∧ Q s.header.conv
  half : Carries (fun header _ => Q header.conv) e.out_buf

/-- What is numbered gets the conversation of that moment. -/
theorem numbered_conv (self : KcpEngine) (current : Timestamp) (sn : SeqNum) (queue : List KcpSegment) :
    ∀ s ∈ self.numbered current sn queue, s.header.conv = self.conv := by
  induction queue generalizing sn with
  | nil => intro s hs; cases hs
  | cons first queue ih =>
    intro s hs
    rcases List.mem_cons.mp hs with rfl | hs
    · rfl
    · exact ih _ s hs

/-- A segment that is sent again keeps its conversation. -/
theorem mark_segment_conv (self : KcpEngine) (current : Timestamp) (resend rtomin : U32) (segment : KcpSegment) :
    (self.mark_segment current resend rtomin segment).header.conv = segment.header.conv := by
  unfold mark_segment
  split <;> rfl

/-- What a flush finds is addressed as before, or to the conversation of that moment. -/
theorem Addressed.ready {e : KcpEngine} (h : Addressed Q e) (current : Timestamp) :
    ∀ s ∈ (e.ready current).snd_buf, Sized s ∧ Q s.header.conv := by
  intro s hs
  rcases mem_ready.mp hs with hs | hs
  · exact h.buf s hs
  · obtain ⟨i, before, hi, _, _, hlen, hcarried⟩ := e.numbered_carries current _ _ s hs
    have hsized := h.queue before (List.mem_of_mem_take (List.mem_of_getElem? hi))
    have hdata : s.data = before.data := congrArg Fragment.data hcarried
    refine ⟨?_, by rw [e.numbered_conv current _ _ s hs]; exact h.conv⟩
    unfold Sized
    rw [hdata, hlen]
    exact hsized

/-- All that a flush sends is addressed as before, or to the conversation of that moment. -/
theorem Addressed.emissions {e : KcpEngine} (h : Addressed Q e) (clk : Clock) :
    ∀ s ∈ e.emissions clk, Sized s ∧ Q s.header.conv := by
  apply emissions_rule
  · exact fun _ _ => ⟨rfl, h.conv⟩
  · exact fun _ _ _ => ⟨rfl, h.conv⟩
  · intro before hbefore s hheader hdata
    obtain ⟨hsized, hconv⟩ := h.ready clk.now before hbefore
    refine ⟨?_, by rw [hheader]; exact hconv⟩
    unfold Sized
    rw [hdata, hheader]
    exact hsized

/-- All that a flush encodes is addressed as before, or to the conversation of that moment. -/
theorem addressed_flush {e : KcpEngine} (h : Addressed Q e) (clk : Clock) :
    Addressed Q (e.flush clk).1 ∧ ∃ more, (e.flush clk).1.output_queue = e.output_queue ++ more ∧
      ∀ d ∈ more, Carries (fun header _ => Q header.conv) d := by
  obtain ⟨half, hhalf, hall⟩ := h.half
  obtain ⟨groups, rest, hqueue, hbuf, hflat, _⟩ := flush_groups hhalf clk
  have hout : ∀ s ∈ groups.flatten ++ rest, Sized s ∧ Q s.header.conv := by
    intro s hs
    rw [hflat] at hs
    rcases List.mem_append.mp hs with hs | hs
    · exact hall s hs
    · exact h.emissions clk s hs
  refine ⟨?_, groups.map datagram, hqueue, ?_⟩
  · have hrest : Carries (fun header _ => Q header.conv) (e.flush clk).1.out_buf :=
      ⟨rest, hbuf, fun s hs => hout s (List.mem_append_right _ hs)⟩
    obtain ⟨queue, buf, stats, heq⟩ := e.flush_shape clk
    rw [heq] at hrest ⊢
    refine ⟨h.conv, fun s hs => h.queue s (List.mem_of_mem_drop hs), ?_, hrest⟩
    intro s hs
    obtain ⟨before, hbefore, rfl⟩ := List.mem_map.mp hs
    obtain ⟨hsized, hconv⟩ := h.ready clk.now before (mem_ready.mpr (List.mem_append.mp hbefore))
    obtain ⟨_, _, hlen, hcarried⟩ := e.mark_segment_carries clk.now e.resend_threshold e.rto_margin before
    have hdata := congrArg Fragment.data hcarried
    refine ⟨?_, ?_⟩
    · unfold Sized
      rw [hlen]
      exact (congrArg List.length hdata).trans hsized
    · rwa [mark_segment_conv]
  · intro d hd
    obtain ⟨group, hgroup, rfl⟩ := List.mem_map.mp hd
    exact ⟨group, rfl, fun s hs => hout s (List.mem_append_left _ (List.mem_flatten.mpr ⟨group, hgroup, hs⟩))⟩

/-- The conversation that a call switches to, if it does. -/
def switches : Op → Option ConvId
  | .set_conv conv => some conv
  | _ => none

/-- A call encodes segments of the conversations seen so far. -/
theorem addressed_step {e : KcpEngine} (h : Addressed Q e) {op : Op} (hqueue : ∀ s ∈ (e.step op).snd_queue, Sized s)
    (hop : ∀ conv ∈ switches op, Q conv) :
    Addressed Q (e.step op) ∧ ∀ d ∈ e.appended op, Carries (fun header _ => Q header.conv) d := by
  have hkeep : ∀ e' : KcpEngine, e'.output_queue = e.output_queue →
      ∀ d ∈ e'.output_queue.drop e.output_queue.length, Carries (fun header _ => Q header.conv) d := by
    intro e' heq d hd
    rw [heq, List.drop_length] at hd
    cases hd
  unfold appended
  cases hflush : e.flush_of op with
  | some clk =>
    obtain ⟨last, flags, hstep, _⟩ := step_of_flush_of hflush
    have hopen : Addressed Q { e with last_update := last, probe := { e.probe with flags } } :=
      ⟨h.conv, h.queue, h.buf, h.half⟩
    obtain ⟨hdone, more, hmore, hall⟩ := addressed_flush hopen clk
    rw [hstep, hmore]
    refine ⟨hdone, fun d hd => hall d ?_⟩
    simpa using hd
  | none =>
    cases op with
    | send clk data =>
      obtain ⟨queue, sent, heq⟩ := e.send_shape clk data
      simp only [step, heq] at hqueue ⊢
      exact ⟨⟨h.conv, hqueue, h.buf, h.half⟩, hkeep _ rfl⟩
    | recv =>
      obtain ⟨queue, buf, nxt, flags, received, heq⟩ := e.recv_shape
      simp only [step, heq] at hqueue ⊢
      exact ⟨⟨h.conv, h.queue, h.buf, h.half⟩, hkeep _ rfl⟩
    | input now data =>
      have hframe := e.inputFrame_input now data
      obtain ⟨kept, hsub, hcounted, _⟩ := e.input_snd_buf now data
      refine ⟨⟨?_, hqueue, ?_, ?_⟩, hkeep _ hframe.output_queue⟩
      · exact hframe.conv ▸ h.conv
      · intro s hs
        obtain ⟨before, hbefore, hcount⟩ := exists_counted hcounted s hs
        have hold := h.buf before (hsub.subset hbefore)
        rcases hcount with rfl | rfl
        · exact hold
        · exact hold
      · exact hframe.out_buf ▸ h.half
    | drain_output =>
      refine ⟨⟨h.conv, h.queue, h.buf, h.half⟩, fun d hd => ?_⟩
      simp [step, drain_output] at hd
    | set_conv conv => exact ⟨⟨hop conv rfl, h.queue, h.buf, h.half⟩, hkeep _ rfl⟩
    | flush clk => simp [flush_of] at hflush
    | keep_alive_probe clk => simp [flush_of] at hflush
    | update now clk =>
      obtain ⟨last, heq⟩ := update_of_no_flush hflush
      simp only [step, heq]
      exact ⟨⟨h.conv, h.queue, h.buf, h.half⟩, hkeep _ rfl⟩

/-- The numbers in flight go up and span at most what the peer's 16-bit window lets in. -/
structure Spanned (e : KcpEngine) : Prop where
  ascending : Serial.Ascending e.snd_una e.snd_nxt e.snd_sns
  span : Serial.offset e.snd_una e.snd_nxt ≤ 65535
  rmt : e.wnd.rmt.toNat ≤ 65535

/-- The peer's window bounds the effective one. -/
theorem effective_wnd_le_rmt (self : KcpEngine) : self.effective_wnd.toNat ≤ self.wnd.rmt.toNat := by
  unfold effective_wnd
  split <;> simp only [Word.toNat_min] <;> omega

/-- A window told on the wire has 16 bits. -/
theorem rmt_input {e : KcpEngine} (h : e.wnd.rmt.toNat ≤ 65535) (now : Timestamp) (data : Bytes) :
    (e.input now data).1.wnd.rmt.toNat ≤ 65535 := by
  by_cases hshort : data.length < KcpHeader.SIZE
  · rw [input_short hshort]
    exact h
  · have hloop : (e.input_loop now data).1.wnd.rmt.toNat ≤ 65535 := by
      apply input_loop_rule (P := fun e' => e'.wnd.rmt.toNat ≤ 65535)
      · intro segment _ acc hacc
        apply input_segment_rule (P := fun e' => e'.wnd.rmt.toNat ≤ 65535)
        · intro e' wnd _
          have hlt := wnd.isLt
          rw [BitVec.toNat_setWidth, Nat.mod_eq_of_lt (by omega)]
          omega
        · exact fun _ he => he
        · intro _ e' he
          obtain ⟨avg, var, rto, stats, buf, heq, _⟩ := input_ack_shape e' now segment
          rw [heq]
          exact he
        · intro _ e' he
          obtain ⟨queue, buf, nxt, acks, heq⟩ := input_push_shape e' segment
          rw [heq]
          exact he
        · exact fun _ he => he
        · exact hacc
      · exact h
    obtain ⟨buf, cwnd, incr, received, hfinish, _⟩ := input_finish_shape
      (e.input_loop now data).1 e.snd_una (e.input_loop now data).2
    rw [input_eq hshort, hfinish]
    exact hloop

/-- No call takes the numbers in flight out of the half in which they are compared. -/
theorem spanned_step {e : KcpEngine} (h : Spanned e) (op : Op) : Spanned (e.step op) := by
  apply step_rule (P := Spanned) op
  · intro clk data _
    obtain ⟨queue, sent, heq⟩ := e.send_shape clk data
    rw [heq]
    exact ⟨h.ascending, h.span, h.rmt⟩
  · intro _
    obtain ⟨queue, buf, nxt, flags, received, heq⟩ := e.recv_shape
    rw [heq]
    exact ⟨h.ascending, h.span, h.rmt⟩
  · intro now data _
    obtain ⟨hascending, hspan, _⟩ := ascending_input h.ascending now data
    exact ⟨hascending, hspan.trans h.span, rmt_input h.rmt now data⟩
  · intro last flags clk _
    obtain ⟨e', he'⟩ : ∃ e' : KcpEngine, e' = { e with last_update := last, probe := { e.probe with flags } } := ⟨_, rfl⟩
    have hopen : Spanned e' := by
      rw [he']
      exact ⟨h.ascending, h.span, h.rmt⟩
    have hspan := hopen.span
    have hrmt := hopen.rmt
    have heff := e'.effective_wnd_le_rmt
    obtain ⟨hascending, hbound, _⟩ := ascending_flush hopen.ascending hspan (by omega) clk
    rw [← he']
    refine ⟨hascending, by omega, ?_⟩
    obtain ⟨queue, buf, stats, heq⟩ := e'.flush_shape clk
    rw [heq]
    change (e'.flushed_wnd clk.now).rmt.toNat ≤ 65535
    rwa [(e'.flushed_wnd_frame clk.now).2.2]
  · exact fun _ => ⟨h.ascending, h.span, h.rmt⟩
  · exact ⟨h.ascending, h.span, h.rmt⟩
  · exact fun _ => ⟨h.ascending, h.span, h.rmt⟩

end KcpEngine

open KcpEngine

/-- In every run, whatever the settings. -/
theorem Origin.spanned (origin : Origin) (ops : List Op) : Spanned (origin.reached ops) := by
  apply Trace.invariant (P := fun _ e => Spanned e)
  · refine ⟨.nil _ _, by simp [Origin.fresh, new], ?_⟩
    change constants.IKCP_WND_RCV.toNat ≤ 65535
    decide
  · intro _ op h
    exact spanned_step h op

theorem Origin.reached_append (origin : Origin) (first second : List Op) :
    origin.reached (first ++ second) = Trace.run KcpEngine.step (origin.reached first) second := Trace.run_append ..

/-- Every segment on its way out has its length in its header. -/
theorem Origin.addressed (origin : Origin) (ops : List Op) : Addressed (fun _ => True) (origin.reached ops) := by
  induction ops using List.reverseRecOn with
  | nil => exact ⟨trivial, by simp [Origin.reached, Origin.fresh, new], by simp [Origin.reached, Origin.fresh, new], .nil⟩
  | append_singleton ops op ih =>
    have hstocked := origin.stocked (ops ++ [op])
    rw [origin.reached_append] at hstocked ⊢
    exact (addressed_step ih (fun s hs => (hstocked.queue s hs).1) fun _ _ => trivial).1

/-- Once everything in flight and half packed carries the conversation, everything that
calls append from then on carries it too. -/
theorem Origin.appended_addressed (origin : Origin) (ops : List Op) {conv : ConvId}
    (h : Addressed (· = conv) (origin.reached ops)) {later : List Op} (hlater : ∀ op ∈ later, switches op = none) :
    Addressed (· = conv) (origin.reached (ops ++ later)) ∧
      ∀ d ∈ Trace.log KcpEngine.step appended (origin.reached ops) later, Carries (fun header _ => header.conv = conv) d := by
  induction later using List.reverseRecOn with
  | nil =>
    rw [List.append_nil]
    exact ⟨h, by simp⟩
  | append_singleton later op ih =>
    obtain ⟨hbefore, hlog⟩ := ih fun op hop => hlater op (List.mem_append_left _ hop)
    have hstocked := origin.stocked (ops ++ later ++ [op])
    have hnone := hlater op (List.mem_append_right _ List.mem_cons_self)
    rw [origin.reached_append] at hstocked
    obtain ⟨hstep, happended⟩ := addressed_step hbefore (fun s hs => (hstocked.queue s hs).1) (by simp [hnone])
    rw [← List.append_assoc, origin.reached_append]
    refine ⟨hstep, fun d hd => ?_⟩
    rw [Trace.log_concat, ← origin.reached_append] at hd
    rcases List.mem_append.mp hd with hd | hd
    · exact hlog d hd
    · exact happended d hd

/-! ### A switch that leaves something behind -/

namespace KcpEngine

/-- A window answer that shuts the peer's window and acknowledges everything before `una`. -/
def shut_segment (conv : ConvId) (una : SeqNum) : KcpSegment :=
  let segment := KcpSegment.new conv constants.IKCP_CMD_WINS [] 0
  { segment with header := { segment.header with una } }

/-- The datagram has one segment. -/
theorem split_shut (conv : ConvId) (una : SeqNum) :
    split_segments (shut_segment conv una).bytes = [shut_segment conv una] := by
  have hsized : ∀ s ∈ [shut_segment conv una], Sized s := by simp [Sized, shut_segment, KcpSegment.new]
  have hsplit := split_segments_bytes hsized
  have hone : [shut_segment conv una].flatMap KcpSegment.bytes = (shut_segment conv una).bytes := by simp
  rw [← hone, hsplit]
  rfl

/-- What the peer's answer leaves of the sending side. -/
theorem input_shut (self : KcpEngine) (now : Timestamp) (una : SeqNum) :
    (self.input now (shut_segment self.conv una).bytes).1.snd_buf =
        self.snd_buf.dropWhile (fun s => seq_before s.header.sn una) ∧
      (self.input now (shut_segment self.conv una).bytes).1.wnd.rmt = 0 := by
  have hloop : self.input_loop now (shut_segment self.conv una).bytes =
      (KcpEngine.parse_una { self with last_activity := now, wnd := { self.wnd with rmt := 0 } } una,
        { flag := false, max_ack := 0, latest_ts := 0 }) := by
    unfold input_loop
    rw [split_shut]
    simp only [List.foldl_cons, List.foldl_nil, input_segment]
    rw [if_neg (by simp [shut_segment, KcpSegment.new, KcpHeader.new])]
    rfl
  have hlong : ¬ (shut_segment self.conv una).bytes.length < KcpHeader.SIZE := by
    simp [KcpSegment.size, KcpHeader.SIZE]
  rw [input_eq hlong, hloop]
  simp only [input_finish, Bool.false_eq_true, if_false]
  rw [shrink_buf_eq]
  obtain ⟨cwnd, incr, heq⟩ := update_cwnd_shape
    { KcpEngine.parse_una { self with last_activity := now, wnd := { self.wnd with rmt := 0 } } una with
      snd_una := ((KcpEngine.parse_una { self with last_activity := now, wnd := { self.wnd with rmt := 0 } } una).snd_buf.map
        fun s => s.header.sn).headD self.snd_nxt } self.snd_una
  exact ⟨congrArg KcpEngine.snd_buf heq, congrArg (fun e => e.wnd.rmt) heq⟩

/-- Of two numbers within half a turn, the one that was given first comes before. -/
theorem Spanned.before {e : KcpEngine} (h : Spanned e) {a b : SeqNum}
    (hb : Serial.offset e.snd_una b ≤ Serial.offset e.snd_una e.snd_nxt)
    (hlt : Serial.offset e.snd_una a < Serial.offset e.snd_una b) : seq_before a b = true := by
  have hspan := h.span
  unfold seq_before
  rw [decide_eq_true_iff, Serial.diff_neg_iff e.snd_una (by omega) (by omega)]
  exact hlt

/-- With nothing in flight and the peer's window shut, a flush sends no data. -/
theorem flush_shut {e : KcpEngine} (hfront : Front e) (hbuf : e.snd_buf = []) (hrmt : e.wnd.rmt = 0) (current : Timestamp) :
    e.flush_dies current = false := by
  have hwnd : e.effective_wnd = 0 := by
    have hle := e.effective_wnd_le_rmt
    rw [hrmt] at hle
    exact BitVec.eq_of_toNat_eq (by simpa using hle)
  have huna : e.snd_una = e.snd_nxt := by
    unfold Front snd_sns at hfront
    rw [hfront, hbuf]
    rfl
  have hadmitted : e.admitted = 0 := by
    have hshut : ¬ time_diff e.snd_nxt (e.snd_nxt + 0) < 0 := by simp [time_diff, Serial.diff]
    unfold admitted window_end
    rw [hwnd, huna]
    cases e.snd_queue with
    | nil => rfl
    | cons segment queue => exact if_neg hshut
  have hnone : (e.ready current).due current = [] := by
    rw [due_ready_eq_nil_iff, hbuf]
    exact ⟨by simp, hadmitted⟩
  unfold flush_dies
  rw [hnone]
  rfl

/-- Once the peer has everything and shuts its window, no flush runs into a dead link. -/
theorem flush_answered {e : KcpEngine} (h : Spanned e) (hfront : Front e) (current : Timestamp) :
    (e.input 0 (shut_segment e.conv e.snd_nxt).bytes).1.flush_dies current = false := by
  obtain ⟨hbuf, hrmt⟩ := e.input_shut 0 e.snd_nxt
  have hall : e.snd_buf.dropWhile (fun s => seq_before s.header.sn e.snd_nxt) = [] := by
    rw [List.dropWhile_eq_nil_iff]
    intro s hs
    exact h.before le_rfl (h.ascending.below _ (List.mem_map_of_mem hs))
  exact flush_shut (front_input hfront 0 _) (hbuf.trans hall) hrmt current

/-- A segment in flight is sent again by a flush at its deadline, once the peer has
everything before it. -/
theorem stale_sent {e : KcpEngine} (h : Spanned e) {s : KcpSegment} (hs : s ∈ e.snd_buf) :
    ∃ t ∈ (e.input 0 (shut_segment e.conv s.header.sn).bytes).1.emissions (.at s.resendts),
      t.header.conv = s.header.conv := by
  obtain ⟨hbuf, _⟩ := e.input_shut 0 s.header.sn
  obtain ⟨e', he'⟩ : ∃ e', e' = (e.input 0 (shut_segment e.conv s.header.sn).bytes).1 := ⟨_, rfl⟩
  rw [← he'] at hbuf ⊢
  obtain ⟨front, rest, hsplit⟩ := List.append_of_mem hs
  have hnot : ¬ seq_before s.header.sn s.header.sn = true := by
    simp [seq_before, Serial.diff]
  have hleft : e'.snd_buf = s :: rest := by
    have hbefore : ∀ f ∈ front, seq_before f.header.sn s.header.sn = true := by
      intro f hf
      have hincreasing := h.ascending.increasing
      rw [snd_sns, hsplit, List.map_append, List.pairwise_append] at hincreasing
      exact h.before (h.ascending.below _ (List.mem_map_of_mem hs)).le
        (hincreasing.2.2 _ (List.mem_map_of_mem hf) _ (List.mem_map_of_mem List.mem_cons_self))
    rw [hbuf, hsplit, List.dropWhile_append_of_pos hbefore, List.dropWhile_cons_of_neg (p := fun f : KcpSegment => seq_before f.header.sn s.header.sn) hnot]
  have hready : ∃ more, (e'.ready s.resendts).snd_buf = s :: more := by
    rw [ready_eq, hleft]
    exact ⟨_, rfl⟩
  obtain ⟨more, hready⟩ := hready
  have hmark : mark_of s.resendts (e'.ready s.resendts).resend_threshold s ≠ .hold := by
    have hnow : 0 ≤ time_diff s.resendts s.resendts := by simp [time_diff, Serial.diff]
    unfold mark_of
    rw [if_pos hnow]
    split
    · decide
    · decide
  refine ⟨(e'.ready s.resendts).mark_segment s.resendts (e'.ready s.resendts).resend_threshold
    (e'.ready s.resendts).rto_margin s, ?_, mark_segment_conv ..⟩
  unfold emissions
  apply List.mem_append_right
  rw [Clock.at_now, due, picked, hready, List.filter_cons_of_pos (by simpa using hmark), List.map_cons]
  unfold upto_dead
  split
  · exact List.mem_cons_self
  · exact List.mem_cons_self

/-- What a receiver gets out of a datagram, by the segments it was made of. -/
theorem split_datagram {group : List KcpSegment} (h : ∀ s ∈ group, Sized s) {s : KcpSegment} (hs : s ∈ group) :
    ∃ t ∈ split_segments (datagram group), t.header = s.header := by
  refine ⟨received_segment s.header s.data, ?_, rfl⟩
  rw [datagram, split_segments_bytes h]
  exact List.mem_map_of_mem hs

/-- What lies half packed and what a flush emits leaves in a datagram, or stays half packed
when the flush runs into a dead link. -/
theorem flush_leaves {e : KcpEngine} (h : Addressed (fun _ => True) e) {half : List KcpSegment}
    (hhalf : e.out_buf = datagram half) (hsized : ∀ s ∈ half, Sized s) (clk : Clock) {s : KcpSegment}
    (hs : s ∈ half ++ e.emissions clk) :
    (∃ d ∈ e.appended (.flush clk), ∃ t ∈ split_segments d, t.header = s.header) ∨
      e.flush_dies clk.now = true ∧ ∃ rest, (e.flush clk).1.out_buf = datagram rest ∧ (∀ t ∈ rest, Sized t) ∧ s ∈ rest := by
  obtain ⟨groups, rest, hqueue, hout, hflat, hrest⟩ := flush_groups hhalf clk
  have hall : ∀ t ∈ groups.flatten ++ rest, Sized t := by
    intro t ht
    rw [hflat] at ht
    exact (List.mem_append.mp ht).elim (hsized t) fun ht => (h.emissions clk t ht).1
  rw [← hflat] at hs
  rcases List.mem_append.mp hs with hs | hs
  · left
    obtain ⟨group, hgroup, hmem⟩ := List.mem_flatten.mp hs
    refine ⟨datagram group, ?_, split_datagram (fun t ht => hall t ?_) hmem⟩
    · change datagram group ∈ (e.flush clk).1.output_queue.drop _
      rw [hqueue, List.drop_left]
      exact List.mem_map_of_mem hgroup
    · exact List.mem_append_left _ (List.mem_flatten.mpr ⟨group, hgroup, ht⟩)
  · right
    refine ⟨?_, rest, hout, fun t ht => hall t (List.mem_append_right _ ht), hs⟩
    by_contra hlives
    rw [hrest (Bool.eq_false_iff.mpr hlives)] at hs
    cases hs

end KcpEngine

/-- Some calls make a half-packed segment leave as it is. -/
theorem Origin.half_packed_leaves (origin : Origin) (ops : List Op) {half : List KcpSegment}
    (hhalf : (origin.reached ops).out_buf = datagram half) (hsized : ∀ s ∈ half, Sized s) {s : KcpSegment}
    (hs : s ∈ half) :
    ∃ later : List Op, (∀ op ∈ later, switches op = none) ∧
      ∃ d ∈ Trace.log KcpEngine.step appended (origin.reached ops) later, ∃ t ∈ split_segments d, t.header = s.header := by
  obtain ⟨e, he⟩ : ∃ e, e = origin.reached ops := ⟨_, rfl⟩
  have hlives := flush_answered (he ▸ origin.spanned ops) (he ▸ origin.front ops) 0
  -- the bytes of the answer do not matter from here on
  generalize (shut_segment e.conv e.snd_nxt).bytes = answer at hlives
  have haddressed := origin.addressed (ops ++ [.input 0 answer])
  rw [origin.reached_append, ← he] at haddressed
  rw [← he] at hhalf ⊢
  have hout := (e.inputFrame_input 0 answer).out_buf
  refine ⟨[.input 0 answer, .flush (.at 0)], by simp [switches], ?_⟩
  rcases flush_leaves haddressed (hout.trans hhalf) hsized (.at 0) (List.mem_append_left _ hs) with
    ⟨d, hd, hleft⟩ | ⟨hdies, _⟩
  · refine ⟨d, ?_, hleft⟩
    rw [Trace.log, Trace.log, Trace.log_nil, List.append_nil]
    exact List.mem_append_right _ hd
  · exact absurd (hlives.symm.trans hdies) Bool.false_ne_true

/-- Whatever is called after a switch, as long as it is not switched again, every segment
appended to the output carries the new conversation: this holds if and only if everything in
flight and everything half packed carried it before the switch. -/
theorem conv_switch_iff (origin : Origin) (ops : List Op) (conv : ConvId) :
    (∀ later : List Op, (∀ op ∈ later, switches op = none) →
      ∀ d ∈ Trace.log KcpEngine.step appended (origin.reached (ops ++ [.set_conv conv])) later,
        ∀ s ∈ split_segments d, s.header.conv = conv) ↔
      (∀ s ∈ (origin.reached ops).snd_buf, s.header.conv = conv) ∧
        ∀ s ∈ split_segments (origin.reached ops).out_buf, s.header.conv = conv := by
  have hswitched : origin.reached (ops ++ [.set_conv conv]) = (origin.reached ops).set_conv conv := by
    rw [origin.reached_append]
    rfl
  have hbefore := origin.addressed ops
  constructor
  · intro hall
    have hhalf : ∀ later half, (∀ op ∈ later, switches op = none) →
        (origin.reached (ops ++ [.set_conv conv] ++ later)).out_buf = datagram half → (∀ s ∈ half, Sized s) →
        ∀ s ∈ half, s.header.conv = conv := by
      intro later half hlater hout hsized s hs
      obtain ⟨more, hmore, d, hd, t, ht, heq⟩ := origin.half_packed_leaves _ hout hsized hs
      rw [← heq]
      refine hall (later ++ more) ?_ d ?_ t ht
      · intro op hop
        exact (List.mem_append.mp hop).elim (hlater op) (hmore op)
      · rw [Trace.log_append, ← origin.reached_append]
        exact List.mem_append_right _ hd
    constructor
    · intro s hs
      obtain ⟨e, he⟩ : ∃ e, e = origin.reached (ops ++ [.set_conv conv]) := ⟨_, rfl⟩
      have hbuf : s ∈ e.snd_buf := by
        rw [he, hswitched]
        exact hs
      obtain ⟨t, ht, hconv⟩ := stale_sent (he ▸ origin.spanned _) hbuf
      have haddressed := origin.addressed (ops ++ [.set_conv conv] ++ [.input 0 (shut_segment e.conv s.header.sn).bytes])
      rw [origin.reached_append, ← he] at haddressed
      obtain ⟨half, hout, hsized⟩ := haddressed.half
      have hlater : ∀ op ∈ [Op.input 0 (shut_segment e.conv s.header.sn).bytes, .flush (.at s.resendts)],
          switches op = none := by simp [switches]
      rw [← hconv]
      rcases flush_leaves haddressed hout (fun t ht => (hsized t ht).1) (.at s.resendts) (List.mem_append_right _ ht) with
        ⟨d, hd, t', ht', heq⟩ | ⟨_, rest, hrest, hrestsized, hmem⟩
      · rw [← heq]
        refine hall _ hlater d ?_ t' ht'
        rw [← he, Trace.log, Trace.log, Trace.log_nil, List.append_nil]
        exact List.mem_append_right _ hd
      · refine hhalf _ rest hlater ?_ hrestsized t hmem
        rw [origin.reached_append, ← he]
        exact hrest
    · intro s hs
      obtain ⟨half, hout, hsized⟩ := hbefore.half
      rw [hout, split_segments_bytes fun t ht => (hsized t ht).1] at hs
      obtain ⟨t, ht, rfl⟩ := List.mem_map.mp hs
      refine hhalf [] half (by simp) ?_ (fun t ht => (hsized t ht).1) t ht
      rw [List.append_nil, hswitched]
      exact hout
  · rintro ⟨hbuf, hhalf⟩ later hlater d hd
    have haddressed : Addressed (· = conv) (origin.reached (ops ++ [.set_conv conv])) := by
      rw [hswitched]
      refine ⟨rfl, hbefore.queue, fun s hs => ⟨(hbefore.buf s hs).1, hbuf s hs⟩, ?_⟩
      obtain ⟨half, hout, hsized⟩ := hbefore.half
      refine ⟨half, hout, fun s hs => ⟨(hsized s hs).1, ?_⟩⟩
      apply hhalf (received_segment s.header s.data)
      rw [hout, split_segments_bytes fun t ht => (hsized t ht).1]
      exact List.mem_map_of_mem hs
    exact ((origin.appended_addressed _ haddressed hlater).2 d hd).split

/-- One byte sent under conversation 7 is sent again under it after a switch to 9. -/
theorem conv_switch_resends_old :
    ∃ d ∈ Trace.log KcpEngine.step appended
      (plain.origin.reached ([.send (.at 0) [1], .flush (.at 0)] ++ [.set_conv 9])) [.flush (.at 1000)],
      ∃ s ∈ split_segments d, s.header.cmd = constants.IKCP_CMD_PUSH ∧ s.header.conv = 7 := by
  decide +kernel

end kcp_core.engine
