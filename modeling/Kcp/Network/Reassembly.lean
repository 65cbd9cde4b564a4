import Kcp.Network.Model

open kcp_core.protocol kcp_core.config kcp_core.error kcp_core.engine
open kcp_core.engine.KcpEngine

/-! One engine against an arbitrary peer: what its application gets is what arrived
first under each number. -/

namespace kcp_core.network

/-! ### Arrivals -/

/-- Data of the conversation whose number lies in the receive window when it comes up. -/
def Arrives (e : KcpEngine) (segment : KcpSegment) : Prop :=
  segment.header.conv = e.conv ∧ segment.header.cmd = constants.IKCP_CMD_PUSH ∧
    Serial.offset e.rcv_nxt segment.header.sn < e.wnd.rcv.toNat

instance decidableArrives (e : KcpEngine) (segment : KcpSegment) : Decidable (Arrives e segment) :=
  inferInstanceAs (Decidable (_ ∧ _ ∧ _))

/-- What one turn of the segment loop adds to the arrivals. -/
def arrival (e : KcpEngine) (segment : KcpSegment) : List KcpSegment := if Arrives e segment then [segment] else []

/-- The arrivals of a segment loop, in order. -/
def loop_arrivals (current : Timestamp) : KcpEngine × AckTrack → List KcpSegment → List KcpSegment
  | _, [] => []
  | acc, segment :: rest => arrival acc.1 segment ++ loop_arrivals current (input_segment current acc segment) rest

/-- The arrivals of one call. -/
def arrivals (e : KcpEngine) : Op → List KcpSegment
  | .input now data =>
    loop_arrivals now ({ e with last_activity := now }, { flag := false, max_ack := 0, latest_ts := 0 })
      (split_segments data)
  | _ => []

/-- The first arrival under a number. -/
def first (log : List KcpSegment) (sn : SeqNum) : Option KcpSegment := log.find? fun s => decide (s.header.sn = sn)

def first_payload (log : List KcpSegment) (sn : SeqNum) : Bytes := (first log sn).elim [] KcpSegment.data

/-- The payloads of the first arrivals under the numbers below `n`, put together. -/
def assembled (log : List KcpSegment) (n : Nat) : Bytes :=
  (List.range n).flatMap fun i => first_payload log (BitVec.ofNat 32 i)

/-- One more number brings the first segment that arrived with it. -/
theorem assembled_succ (log : List KcpSegment) (n : Nat) :
    assembled log (n + 1) = assembled log n ++ first_payload log (BitVec.ofNat 32 n) := by
  simp [assembled, List.range_succ]

/-- A first arrival stays the first. -/
theorem first_append {log : List KcpSegment} {sn : SeqNum} {segment : KcpSegment} (h : first log sn = some segment)
    (more : List KcpSegment) : first (log ++ more) sn = some segment := by
  unfold first at *
  rw [List.find?_append, h]
  rfl

/-- The first segment of a number has arrived, and has that number. -/
theorem first_sn {log : List KcpSegment} {sn : SeqNum} {segment : KcpSegment} (h : first log sn = some segment) :
    segment ∈ log ∧ segment.header.sn = sn :=
  ⟨List.mem_of_find?_eq_some h, by simpa using List.find?_some h⟩

/-! ### The invariant -/

/-- What has been returned and what is queued is what arrived first under the numbers
below `n`; what waits in the reorder buffer is what arrived first under its key; and
everything that arrived lies below `n` or waits there. -/
structure Assembled (log : List KcpSegment) (n : Nat) (out : Bytes) (e : KcpEngine) : Prop where
  bytes : out ++ payload e.rcv_queue = assembled log n
  done : ∀ i < n, ∃ segment, first log (BitVec.ofNat 32 i) = some segment
  held : ∀ k segment, e.rcv_buf.lookup k = some segment → first log k = some segment
  placed : ∀ segment ∈ log, ∃ p < n + e.wnd.rcv.toNat, segment.header.sn = BitVec.ofNat 32 p ∧
    (n ≤ p → segment.header.sn ∈ e.rcv_buf)

variable {log : List KcpSegment} {out : Bytes}

/-- Assembly reads two buffers and the size of the window. -/
theorem Assembled.congr {n : Nat} {e e' : KcpEngine} (h : Assembled log n out e) (hqueue : e'.rcv_queue = e.rcv_queue)
    (hbuf : e'.rcv_buf = e.rcv_buf) (hrcv : e'.wnd.rcv = e.wnd.rcv) : Assembled log n out e' where
  bytes := by rw [hqueue]; exact h.bytes
  done := h.done
  held := by rw [hbuf]; exact h.held
  placed := by rw [hbuf, hrcv]; exact h.placed

/-- Positions less than the number space apart are told apart by their numbers. -/
theorem ofNat_inj {p q : Nat} (hp : p < 2 ^ 32) (hq : q < 2 ^ 32) (h : BitVec.ofNat 32 p = BitVec.ofNat 32 q) : p = q := by
  have hval := congrArg BitVec.toNat h
  rwa [BitVec.toNat_ofNat, BitVec.toNat_ofNat, Nat.mod_eq_of_lt hp, Nat.mod_eq_of_lt hq] at hval

/-- The segment that moves to the queue is the first that arrived with the next number. -/
theorem Assembled.refill {n : Nat} {e : KcpEngine} (h : Assembled log n out e) (hnxt : e.rcv_nxt = BitVec.ofNat 32 n)
    (hsmall : n + e.wnd.rcv.toNat < 2 ^ 32) {segment : KcpSegment} (hnext : e.rcv_buf.lookup e.rcv_nxt = some segment) :
    Assembled log (n + 1) out (e.refill segment) := by
  have hfirst := h.held _ _ hnext
  rw [hnxt] at hfirst
  constructor
  · simp only [KcpEngine.refill, payload_append, payload_cons, payload_nil, List.append_nil]
    rw [← List.append_assoc, h.bytes, assembled_succ, first_payload, hfirst]
    rfl
  · intro i hi
    cases Nat.lt_succ_iff_lt_or_eq.mp hi with
    | inl hlt => exact h.done i hlt
    | inr heq => exact ⟨segment, heq ▸ hfirst⟩
  · intro k s hk
    have hne : k ≠ e.rcv_nxt := by
      rintro rfl
      simp [KcpEngine.refill, AList.lookup_erase] at hk
    simp only [KcpEngine.refill, AList.lookup_erase_ne hne] at hk
    exact h.held k s hk
  · intro s hs
    obtain ⟨p, hp, hsn, hin⟩ := h.placed s hs
    refine ⟨p, by change p < n + 1 + e.wnd.rcv.toNat; omega, hsn, fun hle => ?_⟩
    have hne : s.header.sn ≠ e.rcv_nxt := by
      intro heq
      have hpn := ofNat_inj (by omega) (by omega) (hsn.symm.trans (heq.trans hnxt))
      omega
    exact AList.mem_erase.mpr ⟨hne, hin (by omega)⟩

/-- A segment in the window is stored unless one with its number was before. -/
theorem Assembled.arrive {n : Nat} {e : KcpEngine} (h : Assembled log n out e) (hnxt : e.rcv_nxt = BitVec.ofNat 32 n)
    (hsmall : n + e.wnd.rcv.toNat < 2 ^ 32) {segment : KcpSegment}
    (hin : Serial.offset e.rcv_nxt segment.header.sn < e.wnd.rcv.toNat) :
    Assembled (log ++ [segment]) n out { e with
      rcv_buf := if segment.header.sn ∈ e.rcv_buf then e.rcv_buf
        else e.rcv_buf.insert segment.header.sn segment } := by
  obtain ⟨hmem, hkept⟩ := mem_insert_or_kept e.rcv_buf segment.header.sn segment
  have hsn : segment.header.sn = BitVec.ofNat 32 (n + Serial.offset e.rcv_nxt segment.header.sn) := by
    have hlt := hin
    rw [hnxt] at hlt
    apply Serial.offset_injective e.rcv_nxt
    rw [hnxt, offset_ofNat (Nat.le_add_right _ _) (by omega)]
    omega
  constructor
  · have hsame : assembled (log ++ [segment]) n = assembled log n := by
      apply List.flatMap_congr
      intro i hi
      obtain ⟨s, hs⟩ := h.done i (List.mem_range.mp hi)
      rw [first_payload, first_payload, hs, first_append hs]
    rw [hsame]
    exact h.bytes
  · intro i hi
    obtain ⟨s, hs⟩ := h.done i hi
    exact ⟨s, first_append hs _⟩
  · intro k s hk
    dsimp only at hk
    split at hk
    · exact first_append (h.held k s hk) _
    · rename_i hnew
      by_cases heq : k = segment.header.sn
      · subst heq
        rw [AList.lookup_insert, Option.some.injEq] at hk
        subst hk
        have hnone : first log segment.header.sn = none := by
          cases hfirst : first log segment.header.sn with
          | none => rfl
          | some t =>
            obtain ⟨ht, htsn⟩ := first_sn hfirst
            obtain ⟨p, hp, htp, hbuf⟩ := h.placed t ht
            have hpq := ofNat_inj (by omega) (by omega) (htp.symm.trans (htsn.trans hsn))
            exact absurd (htsn ▸ hbuf (by omega)) hnew
        unfold first at *
        rw [List.find?_append, hnone]
        simp
      · rw [AList.lookup_insert_ne heq] at hk
        exact first_append (h.held k s hk) _
  · intro s hs
    cases List.mem_append.mp hs with
    | inl hold =>
      obtain ⟨p, hp, hsp, hbuf⟩ := h.placed s hold
      exact ⟨p, hp, hsp, fun hle => hkept _ (hbuf hle)⟩
    | inr hnew =>
      rw [List.mem_singleton.mp hnew]
      exact ⟨_, Nat.add_lt_add_left hin n, hsn, fun _ => hmem⟩

/-! ### Preservation -/

/-- The receive side during a call: how far it has got, and what it has put together so
far, as long as the numbers are not used up. -/
def Progress (before : KcpEngine) (n : Nat) (log : List KcpSegment) (out : Bytes) (e : KcpEngine) : Prop :=
  ∃ m, Received before n m e ∧ (m ≤ 2 ^ 31 → Assembled log m out e)

/-- Progress reads the receiving side alone. -/
theorem Progress.congr {before e e' : KcpEngine} {n : Nat} (h : Progress before n log out e)
    (hqueue : e'.rcv_queue = e.rcv_queue) (hbuf : e'.rcv_buf = e.rcv_buf) (hnxt : e'.rcv_nxt = e.rcv_nxt)
    (hacks : e'.ack_list = e.ack_list) (hrcv : e'.wnd.rcv = e.wnd.rcv) (hconv : e'.conv = e.conv) :
    Progress before n log out e' := by
  obtain ⟨m, hrec, hasm⟩ := h
  exact ⟨m, hrec.congr hqueue hbuf hnxt hacks hrcv hconv, fun hm => (hasm hm).congr hqueue hbuf hrcv⟩

/-- The loop that fills the queue takes what is next, as often as it goes around. -/
theorem Progress.move_to_recv_queue {before e : KcpEngine} {n : Nat} (h : Progress before n log out e)
    (hwnd : before.wnd.rcv.toNat ≤ 65535) : Progress before n log out e.move_to_recv_queue := by
  refine move_to_recv_queue_rule (P := Progress before n log out) ?_ h
  rintro e segment ⟨m, hrec, hasm⟩ hnext hroom
  have hrcv := congrArg BitVec.toNat hrec.rcv
  exact ⟨m + 1, hrec.refill hwnd hnext hroom,
    fun hm => (hasm (by omega)).refill hrec.count.nxt (by omega) hnext⟩

/-- The PUSH arm logs the segment exactly when it lies in the window. -/
theorem Progress.input_push {before e : KcpEngine} {n : Nat} (h : Progress before n log out e)
    (hwnd : before.wnd.rcv.toNat ≤ 65535) (hpos : 0 < before.wnd.rcv.toNat) {segment : KcpSegment}
    (hconv : segment.header.conv = e.conv) (hcmd : segment.header.cmd = constants.IKCP_CMD_PUSH) :
    Progress before n (log ++ arrival e segment) out (e.input_push segment) := by
  obtain ⟨m, hrec, hasm⟩ := h
  have hrcv := congrArg BitVec.toNat hrec.rcv
  unfold arrival
  by_cases hin : Serial.offset e.rcv_nxt segment.header.sn < e.wnd.rcv.toNat
  · rw [if_pos ⟨hconv, hcmd, hin⟩, input_push_new (by omega) hin]
    apply Progress.move_to_recv_queue
    · refine ⟨m, (hrec.insert hin).ack_push ?_ _ _ (.inl (mem_insert_or_kept e.rcv_buf _ segment).1), fun hm => ?_⟩
      · change 0 < e.wnd.rcv.toNat
        omega
      · exact ((hasm hm).arrive hrec.count.nxt (by omega) hin).congr rfl rfl rfl
    · exact hwnd
  · rw [if_neg (fun harr => hin harr.2.2), List.append_nil, input_push_old (by omega) (by omega)]
    split
    · exact ⟨m, hrec.ack_push (by omega) _ _ (.inr ‹_›), fun hm => (hasm hm).congr rfl rfl rfl⟩
    · exact ⟨m, hrec, hasm⟩

/-- A segment of the datagram takes its place in the log if it arrives in the window. -/
theorem Progress.input_segment {before : KcpEngine} {n : Nat} {acc : KcpEngine × AckTrack}
    (h : Progress before n log out acc.1) (hwnd : before.wnd.rcv.toNat ≤ 65535) (hpos : 0 < before.wnd.rcv.toNat)
    (current : Timestamp) (segment : KcpSegment) :
    Progress before n (log ++ arrival acc.1 segment) out (input_segment current acc segment).1 := by
  obtain ⟨e, track⟩ := acc
  have hskip : segment.header.cmd ≠ constants.IKCP_CMD_PUSH → arrival e segment = [] :=
    fun hcmd => if_neg fun harr => hcmd harr.2.1
  have hopen : Progress before n log out
      (KcpEngine.parse_una { e with wnd := { e.wnd with rmt := segment.header.wnd.setWidth 32 } } segment.header.una) :=
    h.congr rfl rfl rfl rfl rfl rfl
  unfold KcpEngine.input_segment
  dsimp only
  by_cases hconv : segment.header.conv = e.conv
  · rw [if_neg (not_not.mpr hconv)]
    by_cases hpush : segment.header.cmd = constants.IKCP_CMD_PUSH
    · have hnot : ¬ segment.header.cmd = constants.IKCP_CMD_ACK := by
        rw [hpush]
        decide
      rw [if_neg hnot, if_pos hpush]
      exact hopen.input_push hwnd hpos hconv hpush
    · rw [hskip hpush, List.append_nil, if_neg hpush]
      split
      · obtain ⟨avg, var, rto, stats, buf, heq, _⟩ := input_ack_shape
          (KcpEngine.parse_una { e with wnd := { e.wnd with rmt := segment.header.wnd.setWidth 32 } }
            segment.header.una) current segment
        rw [heq]
        exact hopen.congr rfl rfl rfl rfl rfl rfl
      · split
        · exact hopen.congr rfl rfl rfl rfl rfl rfl
        · exact hopen
  · have hnone : arrival e segment = [] := if_neg fun harr => hconv harr.1
    rw [hnone, List.append_nil, if_pos hconv]
    exact h

/-- A datagram adds its arrivals to the log, each in the place where it was looked at. -/
theorem Progress.input {e : KcpEngine} {n : Nat} (h : RecvCount n e) (hasm : n ≤ 2 ^ 31 → Assembled log n out e)
    (hwnd : e.wnd.rcv.toNat ≤ 65535) (hpos : 0 < e.wnd.rcv.toNat) (now : Timestamp) (data : Bytes) :
    Progress e n (log ++ arrivals e (.input now data)) out (e.input now data).1 := by
  have hstart : Progress e n log out { e with last_activity := now } :=
    ⟨n, (Received.refl h).congr rfl rfl rfl rfl rfl rfl, fun hn => (hasm hn).congr rfl rfl rfl⟩
  have hloop : ∀ (segments : List KcpSegment) (log : List KcpSegment) (acc : KcpEngine × AckTrack),
      Progress e n log out acc.1 →
      Progress e n (log ++ loop_arrivals now acc segments) out (segments.foldl (KcpEngine.input_segment now) acc).1 := by
    intro segments
    induction segments with
    | nil => intro log acc hacc; simpa [loop_arrivals] using hacc
    | cons segment rest ih =>
      intro log acc hacc
      have hrest := ih _ _ (hacc.input_segment hwnd hpos now segment)
      rwa [List.append_assoc] at hrest
  have hall := hloop (split_segments data) log
    ({ e with last_activity := now }, { flag := false, max_ack := 0, latest_ts := 0 }) hstart
  by_cases hshort : data.length < KcpHeader.SIZE
  · have hnone : split_segments data = [] := by
      cases hsplit : split_segments data with
      | nil => rfl
      | cons segment rest =>
        have hsize := split_segments_size segment (by rw [hsplit]; exact List.mem_cons_self)
        simp only [KcpSegment.size] at hsize
        omega
    rw [hnone] at hall
    simp only [arrivals, hnone, input_short hshort]
    exact hall
  · obtain ⟨buf, cwnd, incr, received, hfinish, _⟩ := input_finish_shape
      (e.input_loop now data).1 e.snd_una (e.input_loop now data).2
    rw [input_eq hshort, hfinish]
    exact Progress.congr hall rfl rfl rfl rfl rfl rfl

/-- The same once the call is over: how many segments are accepted after it, and what has
been put together. -/
def Advanced (n : Nat) (log : List KcpSegment) (out : Bytes) (e : KcpEngine) : Prop :=
  ∃ m, n ≤ m ∧ m ≤ n + 65535 ∧ RecvCount m e ∧ (m ≤ 2 ^ 31 → Assembled log m out e)

/-- A call accepts no more segments than the window holds. -/
theorem Progress.advanced {before e : KcpEngine} {n : Nat} (h : Progress before n log out e)
    (hwnd : before.wnd.rcv.toNat ≤ 65535) : Advanced n log out e := by
  obtain ⟨m, hrec, hasm⟩ := h
  have hgrown := hrec.grown
  have hcap := hrec.count.window.capped
  rw [hrec.rcv] at hcap
  exact ⟨m, hrec.le, by omega, hrec.count, hasm⟩

/-- What `recv` returns comes off the front of what has been assembled. -/
theorem advanced_recv {e : KcpEngine} {n : Nat} (h : RecvCount n e) (hasm : n ≤ 2 ^ 31 → Assembled log n out e)
    (hwnd : e.wnd.rcv.toNat ≤ 65535) : Advanced n log (out ++ (returned e .recv).flatten) e.recv.1 := by
  obtain ⟨_, heq⟩ | ⟨_, _, k, _, heq⟩ := e.recv_cases
  · simp only [returned, heq, List.flatten_nil, List.append_nil]
    exact ⟨n, le_rfl, by omega, h, hasm⟩
  · have hcount : RecvCount n { e with rcv_queue := e.rcv_queue.drop k } :=
      ⟨h.window.drop k, h.order.drop k, h.nxt, h.acks⟩
    have hpop : n ≤ 2 ^ 31 →
        Assembled log n (out ++ payload (e.rcv_queue.take k)) { e with rcv_queue := e.rcv_queue.drop k } := by
      intro hn
      have hbytes := (hasm hn).bytes
      rw [← List.take_append_drop k e.rcv_queue, payload_append, ← List.append_assoc] at hbytes
      exact ⟨hbytes, (hasm hn).done, (hasm hn).held, (hasm hn).placed⟩
    by_cases hdata : payload (e.rcv_queue.take k) = []
    · rw [hdata, List.append_nil] at hpop
      simp only [returned, heq, if_pos hdata, List.flatten_nil, List.append_nil]
      exact ⟨n, le_rfl, by omega, hcount, hpop⟩
    · obtain ⟨flags, hflags⟩ := tell_window_shape e (e.popped k).move_to_recv_queue
      have hrest : Progress (e.popped k) n log (out ++ payload (e.rcv_queue.take k)) (e.popped k) :=
        ⟨n, .refl ⟨⟨hcount.window.capped, hcount.window.inside⟩, hcount.order, hcount.nxt, hcount.acks⟩,
          fun hn => (hpop hn).congr rfl rfl rfl⟩
      have htold : Progress (e.popped k) n log (out ++ payload (e.rcv_queue.take k))
          (tell_window e (e.popped k).move_to_recv_queue) := by
        rw [hflags]
        exact (hrest.move_to_recv_queue hwnd).congr rfl rfl rfl rfl rfl rfl
      simp only [returned, heq, if_neg hdata, List.flatten_cons, List.flatten_nil, List.append_nil]
      exact htold.advanced hwnd

/-- Besides `input` and `recv`, no call touches the receive side. -/
theorem receive_side_step (e : KcpEngine) (op : Op) :
    (∃ now data, op = .input now data) ∨ op = .recv ∨
      (e.step op).rcv_queue = e.rcv_queue ∧ (e.step op).rcv_buf = e.rcv_buf ∧ (e.step op).rcv_nxt = e.rcv_nxt ∧
        (∀ a ∈ (e.step op).ack_list, a ∈ e.ack_list) ∧ (e.step op).wnd.rcv = e.wnd.rcv := by
  apply step_rule (P := fun e' => (∃ now data, op = .input now data) ∨ op = .recv ∨
    e'.rcv_queue = e.rcv_queue ∧ e'.rcv_buf = e.rcv_buf ∧ e'.rcv_nxt = e.rcv_nxt ∧
      (∀ a ∈ e'.ack_list, a ∈ e.ack_list) ∧ e'.wnd.rcv = e.wnd.rcv) op
  · intro clk data _
    obtain ⟨queue, sent, heq⟩ := e.send_shape clk data
    rw [heq]
    exact .inr (.inr ⟨rfl, rfl, rfl, fun _ ha => ha, rfl⟩)
  · exact fun hop => .inr (.inl hop)
  · exact fun now data hop => .inl ⟨now, data, hop⟩
  · intro last flags clk _
    obtain ⟨queue, buf, stats, heq⟩ :=
      flush_shape { e with last_update := last, probe := { e.probe with flags } } clk
    obtain ⟨_, hrcv, _⟩ := flushed_wnd_frame
      { e with last_update := last, probe := { e.probe with flags } } clk.now
    rw [heq]
    exact .inr (.inr ⟨rfl, rfl, rfl, by simp, hrcv⟩)
  · exact fun _ => .inr (.inr ⟨rfl, rfl, rfl, fun _ ha => ha, rfl⟩)
  · exact .inr (.inr ⟨rfl, rfl, rfl, fun _ ha => ha, rfl⟩)
  · exact fun _ => .inr (.inr ⟨rfl, rfl, rfl, fun _ ha => ha, rfl⟩)

/-- No call disturbs the assembly, and `input` and `recv` alone move it on. -/
theorem advanced_step {e : KcpEngine} {n : Nat} (h : RecvCount n e) (hasm : n ≤ 2 ^ 31 → Assembled log n out e)
    (hwnd : e.wnd.rcv.toNat ≤ 65535) (hpos : 0 < e.wnd.rcv.toNat) (op : Op) :
    Advanced n (log ++ arrivals e op) (out ++ (returned e op).flatten) (e.step op) := by
  obtain ⟨now, data, rfl⟩ | rfl | ⟨hqueue, hbuf, hnxt, hacks, hrcv⟩ := receive_side_step e op
  · simp only [returned, List.flatten_nil, List.append_nil]
    exact (Progress.input h hasm hwnd hpos now data).advanced hwnd
  · simp only [arrivals, List.append_nil]
    exact advanced_recv h hasm hwnd
  · cases op with
    | input now data =>
      simp only [returned, List.flatten_nil, List.append_nil]
      exact (Progress.input h hasm hwnd hpos now data).advanced hwnd
    | recv =>
      simp only [arrivals, List.append_nil]
      exact advanced_recv h hasm hwnd
    | _ =>
      simp only [arrivals, returned, List.flatten_nil, List.append_nil]
      exact ⟨n, le_rfl, by omega, h.congr hqueue hbuf hnxt hacks hrcv, fun hn => (hasm hn).congr hqueue hbuf hrcv⟩

/-! ### Runs -/

/-- All arrivals of a run, in order. -/
def all_arrivals (start : Start) (ops : List Op) : List KcpSegment :=
  Trace.log KcpEngine.step arrivals start.fresh ops

/-- All values that `recv` returned in a run, in order. -/
def all_returned (start : Start) (ops : List Op) : List Bytes :=
  Trace.log KcpEngine.step returned start.fresh ops

/-- In every run the bytes returned and those in the queue are the first arrivals of each number, in
order. -/
theorem assembled_run (start : Start) (ops : List Op) (hcount : start.accepts ops ≤ 2 ^ 31) :
    Assembled (all_arrivals start ops) (start.accepts ops) (all_returned start ops).flatten (start.reached ops) := by
  have hall : RecvCount (start.accepts ops) (start.reached ops) ∧ (start.accepts ops ≤ 2 ^ 31 →
      Assembled (all_arrivals start ops) (start.accepts ops) (all_returned start ops).flatten (start.reached ops)) := by
    apply Trace.invariant (P := fun ops e => RecvCount (start.accepts ops) e ∧ (start.accepts ops ≤ 2 ^ 31 →
      Assembled (all_arrivals start ops) (start.accepts ops) (all_returned start ops).flatten e))
    · refine ⟨start.recvCount [], fun _ => ?_⟩
      constructor
      · rfl
      · intro i hi
        exact absurd hi (Nat.not_lt_zero i)
      · intro k segment hk
        simp [Start.fresh, new] at hk
      · intro segment hmem
        cases hmem
    · rintro ops op ⟨hrecv, hasm⟩
      obtain ⟨m, hle, hnear, hcount, hnext⟩ :=
        advanced_step hrecv hasm (start.rcv_le ops) (start.rcv_pos ops) op
      have hm : start.accepts (ops ++ [op]) = m := by
        have hoff : (start.reached ops).accepts op = m - start.accepts ops := by
          unfold KcpEngine.accepts
          rw [(start.recvCount ops).nxt]
          exact (congrArg (Serial.offset _) hcount.nxt).trans (offset_ofNat hle (by omega))
        have htotal : start.accepts (ops ++ [op]) = start.accepts ops + (start.reached ops).accepts op :=
          Trace.total_concat ..
        omega
      rw [hm]
      refine ⟨hcount, fun hsmall => ?_⟩
      have hdone := hnext hsmall
      rw [← List.flatten_append] at hdone
      unfold all_arrivals all_returned
      rw [Trace.log_concat, Trace.log_concat]
      exact hdone
  exact hall.2 hcount

/-- Against an arbitrary peer, while fewer than `2 ^ 31` segments are accepted: every
number below `rcv_nxt` has arrived inside the window, and what `recv` has returned,
followed by what is queued for it, is the data that arrived first under each of these
numbers, in order and each once. -/
theorem delivered_once_in_order (start : Start) (ops : List Op) (hcount : start.accepts ops < 2 ^ 31) :
    (start.reached ops).rcv_nxt.toNat = start.accepts ops ∧
      (∀ i < (start.reached ops).rcv_nxt.toNat,
        ∃ segment, first (all_arrivals start ops) (BitVec.ofNat 32 i) = some segment) ∧
      (all_returned start ops).flatten ++ payload (start.reached ops).rcv_queue =
        assembled (all_arrivals start ops) (start.reached ops).rcv_nxt.toNat := by
  have hasm := assembled_run start ops hcount.le
  have hnxt : (start.reached ops).rcv_nxt.toNat = start.accepts ops := by
    rw [(start.recvCount ops).nxt, BitVec.toNat_ofNat]
    omega
  rw [hnxt]
  exact ⟨rfl, hasm.done, hasm.bytes⟩

/-- Two segments of a message arrive in the wrong order, the first of them twice and with
different contents. -/
def swapped : List Op :=
  [.input 0 (KcpSegment.push 7 1 [2] 0).bytes,
    .input 0 ((KcpSegment.push 7 0 [1] 0).bytes ++ (KcpSegment.push 7 0 [9] 0).bytes), .recv]

/-- Two datagrams in the wrong order. -/
theorem delivered_once_in_order_swapped :
    (all_returned plain swapped).flatten ++ payload (plain.reached swapped).rcv_queue =
      assembled (all_arrivals plain swapped) (plain.reached swapped).rcv_nxt.toNat :=
  (delivered_once_in_order plain swapped (by decide +kernel)).2.2

end kcp_core.network
