import Mathlib.Data.List.TakeWhile
import Kcp.Engine.Fragment
import Kcp.Engine.RecvInvariant
import Kcp.Engine.SendWindow

open kcp_core.protocol kcp_core.config kcp_core.error
open kcp_tokio.config

namespace kcp_core.engine.KcpEngine

/-! ### The log of a sender -/

/-- A header and a payload of the log: its number is the position, and that entry is
what it carries. -/
def Logged (log : List Fragment) (header : KcpHeader) (data : Bytes) : Prop :=
  ∃ k, header.sn = BitVec.ofNat 32 k ∧ log[k]? = some ⟨header.frg, data⟩

/-- What is logged stays logged. -/
theorem Logged.append {log : List Fragment} {header : KcpHeader} {data : Bytes} (h : Logged log header data)
    (more : List Fragment) : Logged (log ++ more) header data := by
  obtain ⟨k, hsn, hk⟩ := h
  obtain ⟨hlt, _⟩ := List.getElem?_eq_some_iff.mp hk
  exact ⟨k, hsn, by rw [List.getElem?_append_left hlt]; exact hk⟩

/-- A fragment as an engine with these settings makes it: it fits a datagram, and in
stream mode it stands for itself. -/
def Proper (c : KcpCoreConfig) (f : Fragment) : Prop :=
  f.Fits (c.mtu - constants.IKCP_OVERHEAD).toNat ∧ (c.stream_mode = true → f.left = 0)

/-- The send side of an engine that has numbered the fragments of `log`, in order. What
is queued will be numbered next, and what is in flight is in the log. -/
structure Sender (log : List Fragment) (e : KcpEngine) : Prop where
  window : SendWindow e
  nxt : e.snd_nxt = BitVec.ofNat 32 log.length
  proper : ∀ f ∈ log, Proper e.config f
  queue : ∀ s ∈ e.snd_queue, Sized s ∧ Proper e.config (carried s)
  buf : ∀ s ∈ e.snd_buf, Sized s ∧ s.header.cmd = constants.IKCP_CMD_PUSH ∧ Logged log s.header s.data

/-- How many segments a call numbers: how far it moves `snd_nxt`. -/
def numbers (self : KcpEngine) (op : Op) : Nat := Serial.offset self.snd_nxt (self.step op).snd_nxt

/-- The fragments that were numbered between two states, the first of the queue. -/
def news (before after : KcpEngine) : List Fragment :=
  (before.snd_queue.take (Serial.offset before.snd_nxt after.snd_nxt)).map carried

/-- A call that gives no number adds nothing to the log. -/
theorem news_same {before after : KcpEngine} (h : after.snd_nxt = before.snd_nxt) : news before after = [] := by
  unfold news
  rw [h, Serial.offset_self]
  rfl

/-! ### Admission and marking -/

/-- A segment that enters the send buffer keeps what it carries and gets the next number. -/
theorem numbered_carries (self : KcpEngine) (current : Timestamp) (queue : List KcpSegment) :
    ∀ sn, ∀ s ∈ self.numbered current sn queue, ∃ i before, queue[i]? = some before ∧
      s.header.sn = sn + BitVec.ofNat 32 i ∧ s.header.cmd = constants.IKCP_CMD_PUSH ∧
      s.header.len = before.header.len ∧ carried s = carried before := by
  induction queue with
  | nil => intro sn s hs; cases hs
  | cons first queue ih =>
    intro sn s hs
    rcases List.mem_cons.mp hs with rfl | hs
    · exact ⟨0, first, rfl, by simp [number_segment], rfl, rfl, rfl⟩
    · obtain ⟨i, before, hi, hsn, hrest⟩ := ih (sn + 1) s hs
      refine ⟨i + 1, before, hi, ?_, hrest⟩
      rw [hsn, Serial.add_one_add_ofNat]

/-- The scan changes neither what a segment carries nor its number. -/
theorem mark_segment_carries (self : KcpEngine) (current : Timestamp) (resend rtomin : U32) (s : KcpSegment) :
    (self.mark_segment current resend rtomin s).header.sn = s.header.sn ∧
      (self.mark_segment current resend rtomin s).header.cmd = s.header.cmd ∧
      (self.mark_segment current resend rtomin s).header.len = s.header.len ∧
      carried (self.mark_segment current resend rtomin s) = carried s := by
  unfold mark_segment carried
  cases mark_of current resend s with
  | hold => exact ⟨rfl, rfl, rfl, rfl⟩
  | first => exact ⟨rfl, rfl, rfl, rfl⟩
  | timeout => exact ⟨rfl, rfl, rfl, rfl⟩
  | fast => exact ⟨rfl, rfl, rfl, rfl⟩

/-- What is said of a segment in flight depends on its number, its length and what it carries. -/
theorem inFlight_congr {log : List Fragment} {s s' : KcpSegment} (hsn : s'.header.sn = s.header.sn)
    (hcmd : s'.header.cmd = s.header.cmd) (hlen : s'.header.len = s.header.len) (hcarried : carried s' = carried s)
    (h : Sized s ∧ s.header.cmd = constants.IKCP_CMD_PUSH ∧ Logged log s.header s.data) :
    Sized s' ∧ s'.header.cmd = constants.IKCP_CMD_PUSH ∧ Logged log s'.header s'.data := by
  obtain ⟨hsized, hpush, k, hk, hlog⟩ := h
  have hdata : s'.data = s.data := congrArg Fragment.data hcarried
  refine ⟨?_, hcmd.trans hpush, k, hsn.trans hk, ?_⟩
  · unfold Sized
    rw [hdata, hlen]
    exact hsized
  · exact hlog.trans (congrArg some hcarried.symm)

/-- The segments that a flush scans are in the log once those let in are added to it. -/
theorem Sender.ready {log : List Fragment} {self : KcpEngine} (h : Sender log self) (current : Timestamp) :
    ∀ s ∈ (self.ready current).snd_buf, Sized s ∧ s.header.cmd = constants.IKCP_CMD_PUSH ∧
      Logged (log ++ (self.snd_queue.take self.admitted).map carried) s.header s.data := by
  intro s hs
  rcases mem_ready.mp hs with hs | hs
  · obtain ⟨hsized, hpush, hlog⟩ := h.buf s hs
    exact ⟨hsized, hpush, hlog.append _⟩
  · obtain ⟨i, before, hi, hsn, hpush, hlen, hcarried⟩ := self.numbered_carries current _ _ s hs
    have hqueued := h.queue before (List.mem_of_mem_take (List.mem_of_getElem? hi))
    have hdata : s.data = before.data := congrArg Fragment.data hcarried
    refine ⟨?_, hpush, log.length + i, ?_, ?_⟩
    · unfold Sized
      rw [hdata, hlen]
      exact hqueued.1
    · rw [hsn, h.nxt, BitVec.ofNat_add]
    · rw [List.getElem?_append_right (Nat.le_add_right _ _), Nat.add_sub_cancel_left, List.getElem?_map, hi]
      exact congrArg some hcarried.symm

/-- A flush admits a window at most. -/
theorem admitted_lt {self : KcpEngine} (h : SendWindow self) (hsnd : self.wnd.snd.toNat ≤ 65535) :
    self.admitted ≤ 65535 := by
  have hspan := h.span
  have heff := self.effective_wnd_le
  obtain ⟨_, hbound, _⟩ := admit_count_spec self.snd_una (le_trans heff hsnd) self.snd_queue self.snd_nxt (by omega)
  have hadmitted : admit_count (self.snd_una + self.effective_wnd) self.snd_nxt self.snd_queue = self.admitted := rfl
  rw [hadmitted] at hbound
  omega

/-- A flush numbers what the window lets in. -/
theorem news_flush {self : KcpEngine} (h : SendWindow self) (hsnd : self.wnd.snd.toNat ≤ 65535) (clk : Clock) :
    news self (self.flush clk).1 = (self.snd_queue.take self.admitted).map carried := by
  have hbound := admitted_lt h hsnd
  obtain ⟨queue, buf, stats, heq⟩ := self.flush_shape clk
  unfold news
  rw [heq]
  dsimp only
  rw [Serial.offset_add (by rw [Serial.offset_self]; omega), Serial.offset_self, Nat.zero_add]

/-- What a flush numbers is what it logs. -/
theorem sender_flush {log : List Fragment} {self : KcpEngine} (h : Sender log self) (hsnd : self.wnd.snd.toNat ≤ 65535)
    (clk : Clock) : Sender (log ++ news self (self.flush clk).1) (self.flush clk).1 := by
  have hnews := news_flush h.window hsnd clk
  have hwindow := (sendWindow_flush h.window hsnd clk).1
  have hle := self.admitted_le
  obtain ⟨queue, buf, stats, heq⟩ := self.flush_shape clk
  rw [hnews]
  rw [heq] at hwindow ⊢
  refine ⟨hwindow, ?_, ?_, fun s hs => h.queue s (List.mem_of_mem_drop hs), ?_⟩
  · rw [List.length_append, List.length_map, List.length_take, Nat.min_eq_left hle, BitVec.ofNat_add]
    exact congrArg (· + BitVec.ofNat 32 self.admitted) h.nxt
  · intro f hf
    rcases List.mem_append.mp hf with hf | hf
    · exact h.proper f hf
    · obtain ⟨s, hs, rfl⟩ := List.mem_map.mp hf
      exact (h.queue s (List.mem_of_mem_take hs)).2
  · intro s hs
    obtain ⟨before, hbefore, rfl⟩ := List.mem_map.mp hs
    obtain ⟨hsn, hcmd, hlen, hcarried⟩ := self.mark_segment_carries clk.now self.resend_threshold self.rto_margin before
    apply inFlight_congr hsn hcmd hlen hcarried
    apply h.ready clk.now
    exact mem_ready.mpr (List.mem_append.mp hbefore)

/-! ### Every call -/

/-- Whatever is sent, what is queued keeps its length in its header and fits a datagram. -/
theorem queued_send {self : KcpEngine} (hall : ∀ s ∈ self.snd_queue, Sized s ∧ Proper self.config (carried s))
    (hmss : 0 < self.mss.toNat) (clk : Clock) (data : Bytes) :
    ∀ s ∈ (self.send clk data).1.snd_queue, Sized s ∧ Proper self.config (carried s) := by
  cases hmode : self.config.stream_mode with
  | false =>
    rcases send_message hmode hmss clk data with ⟨hqueue, _⟩ | ⟨hqueue, _, hne, _⟩
    · rw [hqueue]
      exact hall
    · rw [hqueue]
      intro s hs
      rcases List.mem_append.mp hs with hs | hs
      · exact hall s hs
      · obtain ⟨hsized, hfits⟩ := (fragments_spec hmss clk (List.length_pos_of_ne_nil hne)).2 s hs
        exact ⟨hsized, hfits, fun hstream => absurd (hmode.symm.trans hstream) Bool.false_ne_true⟩
  | true =>
    obtain ⟨k, _, _, hsent⟩ := send_stream hmode hmss
      (fun s hs => ⟨⟨(hall s hs).1, (hall s hs).2.1⟩, (hall s hs).2.2 hmode⟩) clk data
    intro s hs
    obtain ⟨⟨hsized, hfits⟩, hleft⟩ := hsent s hs
    exact ⟨hsized, hfits, fun _ => hleft⟩

/-- A datagram logs nothing. -/
theorem sender_input {log : List Fragment} {self : KcpEngine} (h : Sender log self) (current : Timestamp)
    (data : Bytes) : Sender log (self.input current data).1 := by
  have hframe := self.inputFrame_input current data
  have hwindow := (sendWindow_input h.window current data).1
  obtain ⟨kept, hsub, hcounted, _⟩ := self.input_snd_buf current data
  refine ⟨hwindow, hframe.snd_nxt.trans h.nxt, ?_, ?_, ?_⟩
  · rw [hframe.config]
    exact h.proper
  · rw [hframe.snd_queue, hframe.config]
    exact h.queue
  · intro s hs
    obtain ⟨before, hbefore, hcount⟩ := exists_counted hcounted s hs
    have hold := h.buf before (hsub.subset hbefore)
    rcases hcount with rfl | rfl
    · exact hold
    · exact hold

/-- Every call extends the log by what it numbers. -/
theorem sender_step {log : List Fragment} {self : KcpEngine} (h : Sender log self) (hmss : 0 < self.mss.toNat)
    (hsnd : self.wnd.snd.toNat ≤ 65535) (op : Op) :
    Sender (log ++ news self (self.step op)) (self.step op) := by
  have hwindow := (sendWindow_step h.window hsnd op).1
  have hsame : ∀ e : KcpEngine, SendWindow e → e.snd_nxt = self.snd_nxt → e.config = self.config →
      (∀ s ∈ e.snd_queue, Sized s ∧ Proper self.config (carried s)) → e.snd_buf = self.snd_buf →
      Sender (log ++ news self e) e := by
    intro e hwindow hnxt hconfig hqueue hbuf
    rw [news_same hnxt, List.append_nil]
    exact ⟨hwindow, hnxt.trans h.nxt, hconfig ▸ h.proper, hconfig ▸ hqueue, hbuf ▸ h.buf⟩
  revert hwindow
  apply step_rule (P := fun e => SendWindow e → Sender (log ++ news self e) e) op
  · intro clk data _ hwindow
    have hqueue := queued_send h.queue hmss clk data
    obtain ⟨queue, sent, heq⟩ := self.send_shape clk data
    rw [heq] at hwindow hqueue ⊢
    exact hsame _ hwindow rfl rfl hqueue rfl
  · intro _ hwindow
    obtain ⟨queue, buf, nxt, flags, received, heq⟩ := self.recv_shape
    rw [heq] at hwindow ⊢
    exact hsame _ hwindow rfl rfl h.queue rfl
  · intro now data _ _
    rw [news_same (self.inputFrame_input now data).snd_nxt, List.append_nil]
    exact sender_input h now data
  · intro last flags clk _ _
    have hopen : Sender log { self with last_update := last, probe := { self.probe with flags } } :=
      ⟨h.window.congr rfl rfl rfl rfl, h.nxt, h.proper, h.queue, h.buf⟩
    exact sender_flush hopen hsnd clk
  · exact fun last hwindow => hsame _ hwindow rfl rfl h.queue rfl
  · exact fun hwindow => hsame _ hwindow rfl rfl h.queue rfl
  · exact fun conv hwindow => hsame _ hwindow rfl rfl h.queue rfl

/-- What was numbered and what is still queued are together what was queued before, except
for what `send` adds. -/
theorem news_append_queue {self : KcpEngine} (h : SendWindow self) (hsnd : self.wnd.snd.toNat ≤ 65535) (op : Op)
    (hop : ∀ clk data, op ≠ .send clk data) :
    news self (self.step op) ++ (self.step op).snd_queue.map carried = self.snd_queue.map carried := by
  have hsame : ∀ e : KcpEngine, e.snd_nxt = self.snd_nxt → e.snd_queue = self.snd_queue →
      news self e ++ e.snd_queue.map carried = self.snd_queue.map carried := by
    intro e hnxt hqueue
    rw [news_same hnxt, hqueue, List.nil_append]
  apply step_rule (P := fun e => news self e ++ e.snd_queue.map carried = self.snd_queue.map carried) op
  · exact fun clk data heq => absurd heq (hop clk data)
  · intro _
    obtain ⟨queue, buf, nxt, flags, received, heq⟩ := self.recv_shape
    rw [heq]
    exact hsame _ rfl rfl
  · intro now data _
    have hframe := self.inputFrame_input now data
    exact hsame _ hframe.snd_nxt hframe.snd_queue
  · intro last flags clk _
    have hopen : SendWindow { self with last_update := last, probe := { self.probe with flags } } :=
      h.congr rfl rfl rfl rfl
    have hnews := news_flush hopen hsnd clk
    change news self _ = _ at hnews
    obtain ⟨queue, buf, stats, heq⟩ :=
      flush_shape { self with last_update := last, probe := { self.probe with flags } } clk
    rw [hnews, heq]
    change (self.snd_queue.take self.admitted).map carried ++ (self.snd_queue.drop self.admitted).map carried = _
    rw [← List.map_append, List.take_append_drop]
  · exact fun last => hsame _ rfl rfl
  · exact hsame _ rfl rfl
  · exact fun conv => hsame _ rfl rfl

/-- The numbers in flight after a call that is not an `input`: those from before, and
the ones just handed out. -/
theorem sns_step {self : KcpEngine} (h : SendWindow self) (hsnd : self.wnd.snd.toNat ≤ 65535) (op : Op)
    (hop : ∀ now data, op ≠ .input now data) :
    (self.step op).snd_sns =
      self.snd_sns ++ (List.range (self.numbers op)).map fun i => self.snd_nxt + BitVec.ofNat 32 i := by
  have hsame : ∀ e : KcpEngine, e.snd_nxt = self.snd_nxt → e.snd_buf = self.snd_buf → e.snd_sns =
      self.snd_sns ++ (List.range (Serial.offset self.snd_nxt e.snd_nxt)).map
        fun i => self.snd_nxt + BitVec.ofNat 32 i := by
    intro e hnxt hbuf
    simp [snd_sns, hnxt, hbuf]
  unfold numbers
  apply step_rule (P := fun e => e.snd_sns =
    self.snd_sns ++ (List.range (Serial.offset self.snd_nxt e.snd_nxt)).map
      fun i => self.snd_nxt + BitVec.ofNat 32 i) op
  · intro clk data _
    obtain ⟨queue, sent, heq⟩ := self.send_shape clk data
    rw [heq]
    exact hsame _ rfl rfl
  · intro _
    obtain ⟨queue, buf, nxt, flags, received, heq⟩ := self.recv_shape
    rw [heq]
    exact hsame _ rfl rfl
  · exact fun now data heq => absurd heq (hop now data)
  · intro last flags clk _
    have hbound := admitted_lt h hsnd
    have hle := self.admitted_le
    have hsns := sns_flushed_buf { self with last_update := last, probe := { self.probe with flags } } clk.now
    obtain ⟨queue, buf, stats, heq⟩ :=
      flush_shape { self with last_update := last, probe := { self.probe with flags } } clk
    rw [heq]
    refine hsns.trans ?_
    change self.snd_sns ++ (List.range (self.snd_queue.take self.admitted).length).map _ =
      self.snd_sns ++ (List.range (Serial.offset self.snd_nxt (self.snd_nxt + BitVec.ofNat 32 self.admitted))).map _
    rw [List.length_take, Nat.min_eq_left hle, Serial.offset_add (by rw [Serial.offset_self]; omega),
      Serial.offset_self, Nat.zero_add]
  · exact fun last => hsame _ rfl rfl
  · exact hsame _ rfl rfl
  · exact fun conv => hsame _ rfl rfl

/-! ### What leaves the send buffer -/

/-- A segment acknowledges `sn`: cumulatively, or as the one number of an ACK. -/
def Acknowledges (segment : KcpSegment) (sn : SeqNum) : Prop :=
  seq_before sn segment.header.una = true ∨ segment.header.cmd = constants.IKCP_CMD_ACK ∧ segment.header.sn = sn

/-- A UNA removes what is before it, and nothing else. -/
theorem sns_parse_una (self : KcpEngine) (una : SeqNum) :
    ∀ sn ∈ self.snd_sns, sn ∈ (self.parse_una una).snd_sns ∨ seq_before sn una = true := by
  intro sn hsn
  obtain ⟨s, hs, rfl⟩ := List.mem_map.mp hsn
  rw [← List.takeWhile_append_dropWhile (p := fun segment => seq_before segment.header.sn una) (l := self.snd_buf)] at hs
  rcases List.mem_append.mp hs with hs | hs
  · have hbefore := List.mem_takeWhile_imp hs
    exact .inr hbefore
  · exact .inl (List.mem_map_of_mem hs)

/-- An ACK removes its own number, and nothing else. -/
theorem sns_parse_ack (self : KcpEngine) (acked : SeqNum) :
    ∀ sn ∈ self.snd_sns, sn ∈ (self.parse_ack acked).snd_sns ∨ sn = acked := by
  intro sn hsn
  unfold parse_ack
  split
  · exact .inl hsn
  · cases hfound : BinarySearch.binary_search_by self.snd_buf fun s => compare (time_diff s.header.sn acked) 0 with
    | none => exact .inl hsn
    | some pos =>
      obtain ⟨found, hget, hcmp⟩ := BinarySearch.binary_search_by_some hfound
      have hsame : found.header.sn = acked := Serial.diff_eq_zero_iff.mp (compare_eq_iff_eq.mp hcmp)
      obtain ⟨hlt, hat⟩ := List.getElem?_eq_some_iff.mp hget
      obtain ⟨s, hs, rfl⟩ := List.mem_map.mp hsn
      have hsplit : self.snd_buf = self.snd_buf.take pos ++ found :: self.snd_buf.drop (pos + 1) := by
        rw [← hat, List.getElem_cons_drop, List.take_append_drop]
      rw [hsplit] at hs
      have hkept : ∀ s ∈ self.snd_buf.take pos ++ self.snd_buf.drop (pos + 1),
          s.header.sn ∈ snd_sns { self with snd_buf := self.snd_buf.eraseIdx pos } := by
        intro s hs
        rw [← List.eraseIdx_eq_take_drop_succ] at hs
        exact List.mem_map_of_mem hs
      rcases List.mem_append.mp hs with hs | hs
      · exact .inl (hkept s (List.mem_append_left _ hs))
      · rcases List.mem_cons.mp hs with rfl | hs
        · exact .inr hsame
        · exact .inl (hkept s (List.mem_append_right _ hs))

/-- `input` removes from the send buffer only what a segment of the datagram acknowledges. -/
theorem sns_input (self : KcpEngine) (current : Timestamp) (data : Bytes) :
    ∀ sn ∈ self.snd_sns, sn ∈ (self.input current data).1.snd_sns ∨
      ∃ segment ∈ split_segments data, Acknowledges segment sn := by
  by_cases hshort : data.length < KcpHeader.SIZE
  · rw [input_short hshort]
    exact fun sn hsn => .inl hsn
  · have hloop : ∀ sn ∈ self.snd_sns, sn ∈ (self.input_loop current data).1.snd_sns ∨
        ∃ segment ∈ split_segments data, Acknowledges segment sn := by
      apply input_loop_rule (P := fun e => ∀ sn ∈ self.snd_sns, sn ∈ e.snd_sns ∨
        ∃ segment ∈ split_segments data, Acknowledges segment sn)
      · intro segment hmem acc hacc
        apply input_segment_rule (P := fun e => ∀ sn ∈ self.snd_sns, sn ∈ e.snd_sns ∨
          ∃ segment ∈ split_segments data, Acknowledges segment sn)
        · exact fun _ _ h => h
        · intro e h sn hsn
          rcases h sn hsn with hin | hacked
          · exact (e.sns_parse_una segment.header.una sn hin).imp_right fun hb => ⟨segment, hmem, .inl hb⟩
          · exact .inr hacked
        · intro hcmd e h sn hsn
          rcases h sn hsn with hin | hacked
          · unfold input_ack
            dsimp only
            have hrtt : sn ∈ snd_sns (if 0 ≤ time_diff current segment.header.ts then
                e.update_ack (time_diff current segment.header.ts) else e) := by
              split
              · exact hin
              · exact hin
            exact (sns_parse_ack _ segment.header.sn sn hrtt).imp_right fun heq => ⟨segment, hmem, .inr ⟨hcmd, heq.symm⟩⟩
          · exact .inr hacked
        · intro _ e h
          obtain ⟨queue, buf, nxt, acks, heq⟩ := input_push_shape e segment
          rw [heq]
          exact h
        · exact fun _ h => h
        · exact hacc
      · exact fun sn hsn => .inl hsn
    rw [input_eq hshort]
    obtain ⟨buf, cwnd, incr, received, hfinish, hcounted⟩ := input_finish_shape
      (self.input_loop current data).1 self.snd_una (self.input_loop current data).2
    have hsns : ((self.input_loop current data).1.input_finish self.snd_una (self.input_loop current data).2).snd_sns =
        (self.input_loop current data).1.snd_sns := by
      rw [hfinish]
      exact forall₂_counted_map (fun _ _ => rfl) hcounted
    rw [hsns]
    exact hloop

end kcp_core.engine.KcpEngine
