import Kcp.Engine.RecvWindow

open kcp_core.protocol kcp_core.config kcp_core.error
open kcp_tokio.config

namespace kcp_core.engine

/-- How many segments one call accepts: how far it moves `rcv_nxt`. -/
def KcpEngine.accepts (self : KcpEngine) (op : Op) : Nat := Serial.offset self.rcv_nxt (self.step op).rcv_nxt

/-- How many segments a run accepts. -/
def Start.accepts (start : Start) (ops : List Op) : Nat :=
  Trace.total KcpEngine.step KcpEngine.accepts start.fresh ops

/-- An input is no longer than a UDP datagram can be. -/
def Op.Datagram : Op → Prop
  | .input _ data => data.length ≤ 65535
  | _ => True

namespace KcpEngine

/-! ### One step -/

/-- Counts that are close are as far apart as their numbers. -/
theorem offset_ofNat {n m : Nat} (hle : n ≤ m) (hspan : m < n + 2 ^ 32) :
    Serial.offset (BitVec.ofNat 32 n) (BitVec.ofNat 32 m) = m - n := by
  obtain ⟨d, rfl⟩ := Nat.exists_eq_add_of_le hle
  rw [BitVec.ofNat_add, Serial.offset_add (by rw [Serial.offset_self]; omega), Serial.offset_self]
  omega

/-- The count of what is accepted depends on the receiving side alone. -/
theorem RecvCount.congr {n : Nat} {e e' : KcpEngine} (h : RecvCount n e) (hqueue : e'.rcv_queue = e.rcv_queue)
    (hbuf : e'.rcv_buf = e.rcv_buf) (hnxt : e'.rcv_nxt = e.rcv_nxt) (hacks : ∀ a ∈ e'.ack_list, a ∈ e.ack_list)
    (hrcv : e'.wnd.rcv = e.wnd.rcv) : RecvCount n e' where
  window := by
    constructor
    · rw [hqueue, hrcv]; exact h.window.capped
    · rw [hbuf, hnxt, hrcv]; exact h.window.inside
  order := by unfold InOrder; rw [hqueue, hnxt]; exact h.order
  nxt := hnxt.trans h.nxt
  acks := by
    intro a ha
    unfold Kept
    rw [hbuf]
    exact h.acks a (hacks a ha)

/-- Every call keeps the receive window, and only `recv` takes segments off the queue. -/
theorem moved_step {self : KcpEngine} {n : Nat} (h : RecvCount n self) (hwnd : self.wnd.rcv.toNat ≤ 65535)
    (hpos : 0 < self.wnd.rcv.toNat) (op : Op) :
    ∃ k m, Moved self n k m (self.step op) ∧ (op ≠ .recv → k = 0) := by
  have hsame : ∀ e : KcpEngine, e.rcv_queue = self.rcv_queue → e.rcv_buf = self.rcv_buf → e.rcv_nxt = self.rcv_nxt →
      (∀ a ∈ e.ack_list, a ∈ self.ack_list) → e.wnd.rcv = self.wnd.rcv →
      ∃ k m, Moved self n k m e ∧ (op ≠ .recv → k = 0) := by
    intro e hqueue hbuf hnxt hacks hrcv
    exact ⟨0, n, .still (h.congr hqueue hbuf hnxt hacks hrcv) hqueue hbuf, fun _ => rfl⟩
  apply step_rule (P := fun e => ∃ k m, Moved self n k m e ∧ (op ≠ .recv → k = 0)) op
  · intro clk data _
    obtain ⟨queue, sent, heq⟩ := self.send_shape clk data
    rw [heq]
    exact hsame _ rfl rfl rfl (fun _ ha => ha) rfl
  · intro hop
    obtain ⟨k, m, hmoved, _⟩ := moved_recv h hwnd
    exact ⟨k, m, hmoved, fun hne => absurd hop hne⟩
  · intro now data _
    obtain ⟨⟨m, hrec⟩, _⟩ := received_input h hwnd hpos now data
    exact ⟨0, m, hrec.moved hwnd rfl rfl, fun _ => rfl⟩
  · intro last flags clk _
    obtain ⟨queue, buf, stats, heq⟩ :=
      flush_shape { self with last_update := last, probe := { self.probe with flags } } clk
    obtain ⟨_, hrcv, _⟩ := flushed_wnd_frame
      { self with last_update := last, probe := { self.probe with flags } } clk.now
    rw [heq]
    exact hsame _ rfl rfl rfl (by simp) hrcv
  · exact fun last => hsame _ rfl rfl rfl (fun _ ha => ha) rfl
  · exact hsame _ rfl rfl rfl (fun _ ha => ha) rfl
  · exact fun conv => hsame _ rfl rfl rfl (fun _ ha => ha) rfl

/-- The segments moved are those accepted. -/
theorem Moved.accepted {before after : KcpEngine} {n k m : Nat} (h : Moved before n k m after)
    (hnxt : before.rcv_nxt = BitVec.ofNat 32 n) : n + Serial.offset before.rcv_nxt after.rcv_nxt = m := by
  have hle := h.le
  have hnear := h.near
  rw [hnxt, h.count.nxt, offset_ofNat hle (by omega), Nat.add_sub_cancel' hle]

/-- Every call counts what it accepts. -/
theorem recvCount_step {self : KcpEngine} {n : Nat} (h : RecvCount n self) (hwnd : self.wnd.rcv.toNat ≤ 65535)
    (hpos : 0 < self.wnd.rcv.toNat) (op : Op) : RecvCount (n + self.accepts op) (self.step op) := by
  obtain ⟨k, m, hmoved, _⟩ := moved_step h hwnd hpos op
  unfold accepts
  rw [hmoved.accepted h.nxt]
  exact hmoved.count

/-! ### The head of the buffer waits only for room -/

/-- Payloads that came out of datagrams of at most 65535 bytes. -/
def Short (segment : KcpSegment) : Prop := segment.data.length ≤ 65511

/-- Short segments make a message of bounded length. -/
theorem message_length_le {queue : List KcpSegment} (h : ∀ segment ∈ queue, Short segment) :
    message_length queue ≤ queue.length * 65511 := by
  induction queue with
  | nil => simp [message_length]
  | cons segment rest ih =>
    have hhead := h segment List.mem_cons_self
    have hrest := ih fun s hs => h s (List.mem_cons_of_mem _ hs)
    unfold Short at hhead
    unfold message_length
    simp only [List.length_cons, Nat.add_mul, Nat.one_mul]
    split <;> omega

/-- Every call keeps a property of the segments held that the data of its datagram has. -/
theorem stored_step {P : KcpSegment → Prop} {self : KcpEngine} (h : Stored P self) (op : Op)
    (hop : ∀ now data, op = .input now data → ∀ segment ∈ split_segments data,
      segment.header.cmd = constants.IKCP_CMD_PUSH → P segment) : Stored P (self.step op) := by
  apply step_rule (P := Stored P) op
  · intro clk data _
    obtain ⟨queue, sent, heq⟩ := self.send_shape clk data
    rw [heq]
    exact ⟨h.queue, h.buf⟩
  · intro _
    exact stored_recv h
  · intro now data heq
    exact stored_input h now fun segment hmem _ hcmd => hop now data heq segment hmem hcmd
  · intro last flags clk _
    obtain ⟨queue, buf, stats, heq⟩ :=
      flush_shape { self with last_update := last, probe := { self.probe with flags } } clk
    rw [heq]
    exact ⟨h.queue, h.buf⟩
  · exact fun _ => ⟨h.queue, h.buf⟩
  · exact ⟨h.queue, h.buf⟩
  · exact fun _ => ⟨h.queue, h.buf⟩

/-- Datagrams of UDP carry short segments. -/
theorem stored_short_step {self : KcpEngine} (h : Stored Short self) (op : Op) (hop : op.Datagram) :
    Stored Short (self.step op) := by
  apply stored_step h
  rintro now data rfl segment hmem _
  have hsize := split_segments_size segment hmem
  change data.length ≤ 65535 at hop
  simp only [KcpSegment.size, KcpHeader.SIZE] at hsize
  unfold Short
  omega

/-- A `recv` that pops anything pops the whole head message and then refills the queue. -/
theorem settled_recv {self : KcpEngine} (h : RecvWindow self) (hset : Settled self) (hshort : Stored Short self)
    (hwnd : self.wnd.rcv.toNat ≤ 65535) : Settled self.recv.1 := by
  obtain ⟨_, heq⟩ | ⟨hready, hpos, _⟩ := self.recv_cases
  · rw [heq]
    exact hset
  · have hlen := message_length_le hshort.queue
    have hcap := h.capped
    have hbound : self.rcv_queue.length * 65511 ≤ 65535 * 65511 := Nat.mul_le_mul_right _ (by omega)
    have hsmall : 0 < message_length self.rcv_queue ∧ message_length self.rcv_queue < 2 ^ 31 :=
      Word.pos_and_lt_of_as_i32_pos hpos (by omega)
    rw [recv_of_ready hready hsmall.1 hsmall.2]
    obtain ⟨flags, hflags⟩ := tell_window_shape self (self.popped (head_len self.rcv_queue)).move_to_recv_queue
    have hdrop := h.drop (head_len self.rcv_queue)
    have hmove : Settled (self.popped (head_len self.rcv_queue)).move_to_recv_queue := by
      apply settled_move_to_recv_queue
      exact ⟨hdrop.capped, hdrop.inside⟩
    simp only [hflags]
    exact hmove

/-- No call leaves a segment waiting that could move on. -/
theorem settled_step {self : KcpEngine} {n : Nat} (h : RecvCount n self) (hset : Settled self)
    (hshort : Stored Short self) (hwnd : self.wnd.rcv.toNat ≤ 65535) (hpos : 0 < self.wnd.rcv.toNat) (op : Op) :
    Settled (self.step op) := by
  apply step_rule (P := Settled) op
  · intro clk data _
    obtain ⟨queue, sent, heq⟩ := self.send_shape clk data
    rw [heq]
    exact hset
  · intro _
    exact settled_recv h.window hset hshort hwnd
  · intro now data _
    exact (received_input h hwnd hpos now data).2 hset
  · intro last flags clk _
    obtain ⟨queue, buf, stats, heq⟩ :=
      flush_shape { self with last_update := last, probe := { self.probe with flags } } clk
    obtain ⟨_, hrcv, _⟩ := flushed_wnd_frame
      { self with last_update := last, probe := { self.probe with flags } } clk.now
    rw [heq]
    unfold Settled
    dsimp only
    rw [hrcv]
    exact hset
  · exact fun _ => hset
  · exact hset
  · exact fun _ => hset

/-! ### How much is buffered -/

/-- Distinct numbers that lie in a window are no more than the window is wide. -/
theorem nodup_length_le (base : SeqNum) {sns : List SeqNum} {width : Nat} (hnodup : sns.Nodup)
    (h : ∀ sn ∈ sns, Serial.offset base sn < width) : sns.length ≤ width := by
  have hmap : (sns.map (Serial.offset base)).Nodup :=
    hnodup.map fun _ _ => Serial.offset_injective base
  have hsub : sns.map (Serial.offset base) ⊆ List.range width := by
    intro d hd
    obtain ⟨sn, hsn, rfl⟩ := List.mem_map.mp hd
    exact List.mem_range.mpr (h sn hsn)
  have hle := (List.subperm_of_subset hmap hsub).length_le
  rwa [List.length_map, List.length_range] at hle

/-- The reorder buffer holds no more than a window. -/
theorem RecvWindow.buffered_le {e : KcpEngine} (h : RecvWindow e) : e.rcv_buf.entries.length ≤ e.wnd.rcv.toNat := by
  have hkeys : e.rcv_buf.keys.length ≤ e.wnd.rcv.toNat := by
    apply nodup_length_le e.rcv_nxt e.rcv_buf.keys_nodup
    intro k hk
    obtain ⟨segment, hlookup⟩ := Option.isSome_iff_exists.mp (AList.lookup_isSome.mpr (AList.mem_keys.mpr hk))
    exact (h.inside k segment hlookup).1
  simpa [AList.keys, List.keys] using hkeys

end KcpEngine

open KcpEngine

/-! ### Runs -/

instance decidableHeld (e : KcpEngine) (sn : SeqNum) : Decidable (Held e sn) := inferInstanceAs (Decidable (_ ∨ _))

theorem Start.rcv_le (start : Start) (ops : List Op) : (start.reached ops).wnd.rcv.toNat ≤ 65535 := by
  rw [(start.configured ops).rcv]
  exact start.accepted.rcv_le

theorem Start.rcv_pos (start : Start) (ops : List Op) : 0 < (start.reached ops).wnd.rcv.toNat := by
  rw [(start.configured ops).rcv]
  exact start.accepted.rcv_pos

/-- In every run the segments accepted are counted by `rcv_nxt`. -/
theorem Start.recvCount (start : Start) (ops : List Op) : RecvCount (start.accepts ops) (start.reached ops) := by
  apply Trace.invariant (P := fun ops e => RecvCount (start.accepts ops) e)
  · exact ⟨⟨Nat.zero_le _, fun k segment h => by simp [Start.fresh, new] at h⟩,
      fun i segment h => by simp [Start.fresh, new] at h, rfl, by simp [Start.fresh, new]⟩
  · intro ops op h
    have hstep := recvCount_step h (start.rcv_le ops) (start.rcv_pos ops) op
    simpa [Start.accepts, Start.reached] using hstep

/-- In every run of datagrams nothing waits that could move on. -/
theorem Start.settled (start : Start) (ops : List Op) (h : ∀ op ∈ ops, op.Datagram) :
    Stored Short (start.reached ops) ∧ Settled (start.reached ops) := by
  revert h
  apply Trace.invariant (P := fun (ops : List Op) (e : KcpEngine) => (∀ op ∈ ops, op.Datagram) → Stored Short e ∧ Settled e)
  · exact fun _ => ⟨⟨by simp [Start.fresh, new], fun k segment h => by simp [Start.fresh, new] at h⟩,
      fun h => by simp [Start.fresh, new] at h⟩
  · intro ops op ih h
    obtain ⟨hshort, hset⟩ := ih fun o ho => h o (List.mem_append_left _ ho)
    exact ⟨stored_short_step hshort op (h op (by simp)),
      settled_step (start.recvCount ops) hset hshort (start.rcv_le ops) (start.rcv_pos ops) op⟩

/-- Against an arbitrary peer, while fewer than `2 ^ 31` segments are accepted: the queue
and the reorder buffer stay within the window, the next segment in order waits only for
room in the queue (as long as no datagram is longer than UDP allows), and every queued ACK
for a number of the lower half is for one that is held. Every ACK that `input` queues is
for a number held when it returns. -/
theorem rcv_window_invariant (start : Start) (ops : List Op) (hcount : start.accepts ops < 2 ^ 31) :
    (start.reached ops).rcv_queue.length ≤ start.config.rcv_wnd.toNat ∧
      (∀ k segment, (start.reached ops).rcv_buf.lookup k = some segment →
        Serial.offset (start.reached ops).rcv_nxt k < start.config.rcv_wnd.toNat ∧ segment.header.sn = k) ∧
      (start.reached ops).rcv_queue.length + (start.reached ops).rcv_buf.entries.length ≤
        2 * start.config.rcv_wnd.toNat ∧
      ((∀ op ∈ ops, op.Datagram) → (start.reached ops).rcv_nxt ∈ (start.reached ops).rcv_buf →
        (start.reached ops).rcv_queue.length = start.config.rcv_wnd.toNat) ∧
      (∀ a ∈ (start.reached ops).ack_list, a.1.toNat ≤ 2 ^ 31 → Held (start.reached ops) a.1) ∧
      ∀ now data, ∃ acks, ((start.reached ops).input now data).1.ack_list = (start.reached ops).ack_list ++ acks ∧
        ∀ a ∈ acks, Held ((start.reached ops).input now data).1 a.1 := by
  have h := start.recvCount ops
  have hrcv : (start.reached ops).wnd.rcv = start.config.rcv_wnd := (start.configured ops).rcv
  have hcap := h.window.capped
  have hbuf := h.window.buffered_le
  rw [← hrcv]
  refine ⟨hcap, h.window.inside, by omega, fun hdata => (start.settled ops hdata).2, ?_, ?_⟩
  · intro a ha hlow
    rcases h.acks a ha with hin | hbehind
    · exact .inr hin
    · have hlt := hbehind.lt hcount hlow
      left
      rw [seq_before_iff, h.nxt, Serial.offset, BitVec.toNat_sub, BitVec.toNat_ofNat]
      omega
  · intro now data
    obtain ⟨⟨m, hrec⟩, _⟩ := received_input h (start.rcv_le ops) (start.rcv_pos ops) now data
    obtain ⟨acks, hacks, hok⟩ := hrec.fresh
    exact ⟨acks, hacks, fun a ha => (hok a ha).held hrec.count.window⟩

/-! ### A queued ACK can go stale -/

/-- A receiver with a window of one segment. -/
def narrow : Start where
  conv := 7
  config := { kcp_tokio.config.KcpConfig.default with rcv_wnd := 1, accepted := rfl }
  updated := 0
  active := 0

/-- The datagram of one PUSH that carries one byte. -/
def one_push (sn : SeqNum) : Bytes := (KcpSegment.push 7 sn [0] 0).bytes

/-- The number half the space ahead is acknowledged as an old one; two segments later
it no longer counts as before `rcv_nxt`. -/
def stale_ack_run : List Op :=
  [.input 0 (one_push 0x80000001), .input 0 (one_push 0), .recv, .input 0 (one_push 1)]

theorem rcv_window_invariant_two :
    narrow.accepts stale_ack_run < 2 ^ 31 ∧ (narrow.reached stale_ack_run).rcv_queue.length ≤ 1 := by
  have hcount : narrow.accepts stale_ack_run < 2 ^ 31 := by decide
  exact ⟨hcount, (rcv_window_invariant narrow stale_ack_run hcount).1⟩

/-- An old copy from half a turn ago is acknowledged, and not held. -/
theorem stale_ack_not_held :
    narrow.accepts stale_ack_run < 2 ^ 31 ∧
      (0x80000001, 0) ∈ (narrow.reached stale_ack_run).ack_list ∧
      ¬ Held (narrow.reached stale_ack_run) 0x80000001 := by
  decide

end kcp_core.engine
