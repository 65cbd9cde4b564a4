import Kcp.Engine.RecvWindow
import Kcp.Engine.Wire

/-! Data that arrives in order. -/

open kcp_core.protocol kcp_core.config kcp_core.error

namespace kcp_core.engine.KcpEngine

/-- With nothing waiting, the segment expected next goes straight on to the queue. -/
theorem input_push_next {e : KcpEngine} {segment : KcpSegment} (hbuf : e.rcv_buf = ∅)
    (hsn : segment.header.sn = e.rcv_nxt) (hroom : e.rcv_queue.length < e.wnd.rcv.toNat)
    (hwnd : e.wnd.rcv.toNat ≤ 65535) :
    e.input_push segment = { e with
      rcv_queue := e.rcv_queue ++ [segment]
      rcv_nxt := e.rcv_nxt + 1
      ack_list := e.ack_list ++ [(segment.header.sn, segment.header.ts)] } := by
  have hin : Serial.offset e.rcv_nxt segment.header.sn < e.wnd.rcv.toNat := by
    rw [hsn, Serial.offset_self]
    omega
  have hnew : segment.header.sn ∉ e.rcv_buf := by
    rw [hbuf]
    exact AList.notMem_empty _
  have hlookup : (e.rcv_buf.insert segment.header.sn segment).lookup e.rcv_nxt = some segment := by
    rw [← hsn, AList.lookup_insert]
  have herase : (e.rcv_buf.insert segment.header.sn segment).erase e.rcv_nxt = e.rcv_buf := by
    apply AList.ext
    change (e.rcv_buf.insert segment.header.sn segment).entries.kerase e.rcv_nxt = _
    rw [AList.entries_insert_of_notMem hnew, ← hsn]
    exact List.kerase_cons_eq rfl
  have hlen : (e.rcv_buf.insert segment.header.sn segment).entries.length = 1 := by
    rw [AList.entries_insert_of_notMem hnew, hbuf]
    rfl
  rw [input_push_new hwnd hin, if_neg hnew]
  unfold move_to_recv_queue
  have hfuel : (KcpEngine.ack_push { e with rcv_buf := e.rcv_buf.insert segment.header.sn segment }
      segment.header.sn segment.header.ts).rcv_buf.entries.length = 0 + 1 := hlen
  rw [hfuel]
  have hrefill : move_to_recv_queue_loop (0 + 1) (KcpEngine.ack_push
      { e with rcv_buf := e.rcv_buf.insert segment.header.sn segment } segment.header.sn segment.header.ts) = _ :=
    move_to_recv_queue_loop_refill 0 hlookup hroom
  refine hrefill.trans ?_
  simp only [move_to_recv_queue_loop, refill, ack_push, herase]

/-- What such a segment does in the loop. -/
theorem input_segment_next {e : KcpEngine} {segment : KcpSegment} (track : AckTrack) (current : Timestamp)
    (hbuf : e.rcv_buf = ∅) (hconv : segment.header.conv = e.conv) (hcmd : segment.header.cmd = constants.IKCP_CMD_PUSH)
    (hsn : segment.header.sn = e.rcv_nxt) (hroom : e.rcv_queue.length < e.wnd.rcv.toNat)
    (hwnd : e.wnd.rcv.toNat ≤ 65535) :
    ∃ next, input_segment current (e, track) segment = (next, track) ∧ next.rcv_buf = ∅ ∧ next.conv = e.conv ∧
      next.rcv_nxt = e.rcv_nxt + 1 ∧ next.wnd.rcv = e.wnd.rcv ∧ next.rcv_queue = e.rcv_queue ++ [segment] ∧
      next.ack_list = e.ack_list ++ [(segment.header.sn, segment.header.ts)] ∧ next.probe = e.probe := by
  have hpush := input_push_next
    (e := parse_una { e with wnd := { e.wnd with rmt := segment.header.wnd.setWidth 32 } } segment.header.una)
    hbuf hsn hroom hwnd
  have hack : ¬ segment.header.cmd = constants.IKCP_CMD_ACK := by
    rw [hcmd]
    decide
  have hsegment : input_segment current (e, track) segment =
      ((parse_una { e with wnd := { e.wnd with rmt := segment.header.wnd.setWidth 32 } }
        segment.header.una).input_push segment, track) := by
    simp only [input_segment]
    rw [if_neg (not_not.mpr hconv), if_neg hack, if_pos hcmd]
  rw [hsegment, hpush]
  exact ⟨_, rfl, hbuf, rfl, rfl, rfl, rfl, rfl, rfl⟩

/-- Segments of the conversation that arrive in order, with nothing waiting and room for
all of them, are queued as they come and acknowledged one by one. -/
theorem loop_in_order (current : Timestamp) (segments : List KcpSegment) (e : KcpEngine) (track : AckTrack)
    (hbuf : e.rcv_buf = ∅)
    (hnext : ∀ i s, segments[i]? = some s → s.header.conv = e.conv ∧
      s.header.cmd = constants.IKCP_CMD_PUSH ∧ s.header.sn = e.rcv_nxt + BitVec.ofNat 32 i)
    (hroom : e.rcv_queue.length + segments.length ≤ e.wnd.rcv.toNat) (hwnd : e.wnd.rcv.toNat ≤ 65535) :
    ∃ next, segments.foldl (input_segment current) (e, track) = (next, track) ∧
      next.rcv_queue = e.rcv_queue ++ segments ∧
      next.ack_list = e.ack_list ++ segments.map (fun s => (s.header.sn, s.header.ts)) ∧
      next.probe = e.probe := by
  induction segments generalizing e with
  | nil => exact ⟨e, rfl, by simp⟩
  | cons segment rest ih =>
    obtain ⟨hconv, hcmd, hsn⟩ := hnext 0 segment rfl
    rw [List.length_cons] at hroom
    obtain ⟨next, hsegment, hempty, hsame, hnxt, hrcv, hqueue, hacks, hprobe⟩ :=
      input_segment_next track current hbuf hconv hcmd (by simpa using hsn) (by omega) hwnd
    obtain ⟨last, hloop, hqueue', hacks', hprobe'⟩ := ih next hempty
      (by
        intro i s hs
        obtain ⟨hc, hp, hn⟩ := hnext (i + 1) s hs
        refine ⟨hc.trans hsame.symm, hp, ?_⟩
        rw [hnxt, Serial.add_one_add_ofNat, hn])
      (by rw [hqueue, hrcv, List.length_append, List.length_singleton]; omega) (by rw [hrcv]; exact hwnd)
    refine ⟨last, ?_, ?_, ?_, hprobe'.trans hprobe⟩
    · rw [List.foldl_cons, hsegment, hloop]
    · rw [hqueue', hqueue, List.append_assoc]
      rfl
    · rw [hacks', hacks, List.append_assoc]
      rfl

/-- A datagram of such segments. -/
theorem input_in_order (current : Timestamp) {datagram : Bytes} {segments : List KcpSegment} {e : KcpEngine}
    (hlong : ¬ datagram.length < KcpHeader.SIZE) (hsplit : split_segments datagram = segments) (hbuf : e.rcv_buf = ∅)
    (hnext : ∀ i s, segments[i]? = some s → s.header.conv = e.conv ∧
      s.header.cmd = constants.IKCP_CMD_PUSH ∧ s.header.sn = e.rcv_nxt + BitVec.ofNat 32 i)
    (hroom : e.rcv_queue.length + segments.length ≤ e.wnd.rcv.toNat) (hwnd : e.wnd.rcv.toNat ≤ 65535) :
    (e.input current datagram).1.rcv_queue = e.rcv_queue ++ segments ∧
      (e.input current datagram).1.ack_list = e.ack_list ++ segments.map (fun s => (s.header.sn, s.header.ts)) ∧
      (e.input current datagram).1.probe = e.probe := by
  obtain ⟨last, hloop, hqueue, hacks, hprobe⟩ := loop_in_order current segments
    { e with last_activity := current } { flag := false, max_ack := 0, latest_ts := 0 } hbuf hnext hroom hwnd
  have hfold : e.input_loop current datagram = (last, { flag := false, max_ack := 0, latest_ts := 0 }) := by
    rw [input_loop, hsplit]
    exact hloop
  obtain ⟨buf, cwnd, incr, received, hfinish, _⟩ :=
    input_finish_shape last e.snd_una { flag := false, max_ack := 0, latest_ts := 0 }
  rw [input_eq hlong, hfold, hfinish]
  exact ⟨hqueue, hacks, hprobe⟩

end kcp_core.engine.KcpEngine
