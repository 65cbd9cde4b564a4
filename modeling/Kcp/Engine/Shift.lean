import Kcp.Rekey
import Kcp.Engine.Reopen
import Kcp.Engine.Fragment

/-! An engine whose clock readings and segment numbers are all moved by fixed amounts,
modulo `2 ^ 32`, next to the engine itself. -/

open kcp_core.protocol kcp_core.config kcp_core.error

namespace kcp_core.engine

/-- What is added to the readings of the clock, to the numbers of the segments sent, and to
those of the segments received. -/
structure Shift where
  clock : U32
  snd : U32
  rcv : U32

/-- Where a segment on its way out takes its number from: the engine's own segments, the
peer's segments (an ACK), or neither (a probe). -/
inductive Space where
  | own
  | peer
  | neither
  deriving DecidableEq, Repr

namespace Shift

variable (σ : Shift)

def number : Space → U32
  | .own => σ.snd
  | .peer => σ.rcv
  | .neither => 0

/-- A segment queued by `send`. It gets its numbers and its deadline later on. -/
def queued (s : KcpSegment) : KcpSegment := { s with header := { s.header with ts := s.header.ts + σ.clock } }

/-- A segment in the send buffer. -/
def sent (s : KcpSegment) : KcpSegment :=
  { s with
    header := { s.header with ts := s.header.ts + σ.clock, sn := s.header.sn + σ.snd, una := s.header.una + σ.rcv }
    resendts := s.resendts + σ.clock }

/-- A segment in the reorder buffer or the receive queue. -/
def stored (s : KcpSegment) : KcpSegment :=
  { s with header := { s.header with
      ts := s.header.ts + σ.clock, sn := s.header.sn + σ.rcv, una := s.header.una + σ.snd } }

/-- A segment that is encoded, with the space of its number. -/
def outgoing : Space × KcpSegment → Space × KcpSegment
  | (.own, s) => (.own, σ.sent s)
  | (space, s) =>
    (space, { s with header := { s.header with
      ts := s.header.ts + σ.clock, sn := s.header.sn + σ.number space, una := s.header.una + σ.rcv } })

/-- The header of a segment that arrives. -/
def incoming (h : KcpHeader) : KcpHeader :=
  if h.cmd = constants.IKCP_CMD_ACK then
    { h with ts := h.ts + σ.clock, sn := h.sn + σ.snd, una := h.una + σ.snd }
  else if h.cmd = constants.IKCP_CMD_PUSH then
    { h with ts := h.ts + σ.clock, sn := h.sn + σ.rcv, una := h.una + σ.snd }
  else { h with una := h.una + σ.snd }

def arriving (s : KcpSegment) : KcpSegment := { s with header := σ.incoming s.header }

/-- A datagram that arrives: every segment the loop of `input` splits off, and what it
leaves unread as it is. -/
def datagram_loop : Nat → Bytes → Bytes
  | 0, buf => buf
  | fuel + 1, buf =>
    match KcpEngine.next_segment buf with
    | none => buf
    | some (segment, rest) => (σ.arriving segment).bytes ++ datagram_loop fuel rest

def datagram (buf : Bytes) : Bytes := σ.datagram_loop buf.length buf

/-- The probe timer holds a reading when it is scheduled. -/
def probe (p : ProbeState) : ProbeState :=
  if p.wait = 0 ∧ p.ts = 0 then p else { p with ts := p.ts + σ.clock }

def clk (c : Clock) : Clock where
  now := c.now + σ.clock
  hdr i := c.hdr i + σ.clock

def ack (a : SeqNum × Timestamp) : SeqNum × Timestamp := (a.1 + σ.rcv, a.2 + σ.clock)

theorem add_right_injective (k : U32) : Function.Injective fun x : U32 => x + k :=
  fun _ _ h => add_right_cancel h

def buffer (buf : RecvBuf) : RecvBuf := Rekey.rekey (add_right_injective σ.rcv) σ.stored buf

/-- The engine moved, with the datagrams `out` encoded so far. -/
def image (out : List Bytes × Bytes) (e : KcpEngine) : KcpEngine :=
  { e with
    snd_una := e.snd_una + σ.snd
    snd_nxt := e.snd_nxt + σ.snd
    rcv_nxt := e.rcv_nxt + σ.rcv
    probe := σ.probe e.probe
    snd_queue := e.snd_queue.map σ.queued
    rcv_queue := e.rcv_queue.map σ.stored
    snd_buf := e.snd_buf.map σ.sent
    rcv_buf := σ.buffer e.rcv_buf
    ack_list := e.ack_list.map σ.ack
    output_queue := out.1
    out_buf := out.2
    last_update := e.last_update + σ.clock
    last_activity := e.last_activity + σ.clock }

/-- The engine moved. What it has already encoded stays. -/
def moved (e : KcpEngine) : KcpEngine := σ.image (e.output_queue, e.out_buf) e

def op : Op → Op
  | .send clk data => .send (σ.clk clk) data
  | .recv => .recv
  | .input now data => .input (now + σ.clock) (σ.datagram data)
  | .flush clk => .flush (σ.clk clk)
  | .update now clk => .update (now + σ.clock) (σ.clk clk)
  | .keep_alive_probe clk => .keep_alive_probe (σ.clk clk)
  | .drain_output => .drain_output
  | .set_conv conv => .set_conv conv

variable {σ} {e : KcpEngine} {out : List Bytes × Bytes}

/-- Numbers are compared by their distance. -/
theorem seq_before_add (a b k : SeqNum) : seq_before (a + k) (b + k) = seq_before a b := by
  rw [seq_before, seq_before, Serial.diff_add_right]

theorem seq_after_add (a b k : SeqNum) : seq_after (a + k) (b + k) = seq_after a b := by
  rw [seq_after, seq_after, Serial.diff_add_right]

theorem time_diff_add (a b k : Timestamp) : time_diff (a + k) (b + k) = time_diff a b := Serial.diff_add_right a b k

@[simp] theorem stored_data (s : KcpSegment) : (σ.stored s).data = s.data := rfl

@[simp] theorem stored_frg (s : KcpSegment) : (σ.stored s).header.frg = s.header.frg := rfl

theorem probe_flags (p : ProbeState) (flags : U32) : σ.probe { p with flags } = { σ.probe p with flags } := by
  unfold probe
  dsimp only
  split <;> rfl

@[simp] theorem flags_probe (p : ProbeState) : (σ.probe p).flags = p.flags := by
  unfold probe
  split <;> rfl

/-! ### `recv` -/

/-- The length of a message does not depend on its numbers. -/
theorem message_length_map (queue : List KcpSegment) :
    KcpEngine.message_length (queue.map σ.stored) = KcpEngine.message_length queue := by
  induction queue with
  | nil => rfl
  | cons s rest ih => simp only [List.map_cons, KcpEngine.message_length, ih, stored]

/-- What is received does not depend on the numbers. -/
theorem recv_loop_map (peek_size : Nat) (queue : List KcpSegment) (data : Bytes) :
    KcpEngine.recv_loop peek_size (queue.map σ.stored) data =
      ((KcpEngine.recv_loop peek_size queue data).1, (KcpEngine.recv_loop peek_size queue data).2.map σ.stored) := by
  induction queue generalizing data with
  | nil => rfl
  | cons s rest ih =>
    simp only [List.map_cons, KcpEngine.recv_loop, ih, stored_data, stored_frg]
    by_cases hbig : peek_size < data.length + s.data.length
    · simp only [if_pos hbig, List.map_cons]
    · by_cases hlast : s.header.frg = 0
      · simp only [if_neg hbig, if_pos hlast]
      · simp only [if_neg hbig, if_neg hlast]

/-- To move a segment on and to shift commute. -/
theorem refill_image (segment : KcpSegment) :
    (σ.image out e).refill (σ.stored segment) = σ.image out (e.refill segment) := by
  have herase := Rekey.rekey_erase (add_right_injective σ.rcv) σ.stored e.rcv_buf e.rcv_nxt
  simp only [KcpEngine.refill, image, buffer, List.map_append, List.map_cons, List.map_nil, herase]
  rw [add_right_comm]

/-- To fill the queue commutes with the shift. -/
theorem move_to_recv_queue_image :
    (σ.image out e).move_to_recv_queue = σ.image out e.move_to_recv_queue := by
  have hloop : ∀ fuel e, KcpEngine.move_to_recv_queue_loop fuel (σ.image out e) =
      σ.image out (KcpEngine.move_to_recv_queue_loop fuel e) := by
    intro fuel
    induction fuel with
    | zero => intro e; rfl
    | succ fuel ih =>
      intro e
      have hlookup := Rekey.lookup_rekey (add_right_injective σ.rcv) σ.stored e.rcv_buf e.rcv_nxt
      have hlen : (σ.image out e).rcv_queue.length = e.rcv_queue.length := List.length_map _
      cases hnext : e.rcv_buf.lookup e.rcv_nxt with
      | none =>
        rw [hnext] at hlookup
        rw [KcpEngine.move_to_recv_queue_loop_none _ hnext, KcpEngine.move_to_recv_queue_loop_none _ hlookup]
      | some segment =>
        rw [hnext] at hlookup
        by_cases hfull : e.wnd.rcv.toNat ≤ e.rcv_queue.length
        · rw [KcpEngine.move_to_recv_queue_loop_full _ hfull,
            KcpEngine.move_to_recv_queue_loop_full _ (by rw [hlen]; exact hfull)]
        · rw [KcpEngine.move_to_recv_queue_loop_refill _ hnext (by omega),
            KcpEngine.move_to_recv_queue_loop_refill _ hlookup (by rw [hlen]; exact not_le.mp hfull),
            refill_image, ih]
  unfold KcpEngine.move_to_recv_queue
  have hlen := Rekey.length_rekey (add_right_injective σ.rcv) σ.stored e.rcv_buf
  rw [← hloop]
  exact congrArg (KcpEngine.move_to_recv_queue_loop · (σ.image out e)) hlen

theorem headReady_image : KcpEngine.HeadReady (σ.image out e).rcv_queue ↔ KcpEngine.HeadReady e.rcv_queue := by
  unfold image KcpEngine.HeadReady
  constructor
  · rintro ⟨s, rest, hqueue, hready⟩
    obtain ⟨t, more, heq, rfl, rfl⟩ := List.map_eq_cons_iff.mp hqueue
    rw [List.length_map] at hready
    exact ⟨t, more, heq, hready⟩
  · rintro ⟨s, rest, hqueue, hready⟩
    refine ⟨σ.stored s, rest.map σ.stored, by rw [hqueue, List.map_cons], ?_⟩
    rw [List.length_map]
    exact hready

theorem payload_map (queue : List KcpSegment) :
    KcpEngine.payload (queue.map σ.stored) = KcpEngine.payload queue := by
  unfold KcpEngine.payload
  rw [List.flatMap_map]
  rfl

theorem tell_window_image (before after : KcpEngine) :
    KcpEngine.tell_window (σ.image out before) (σ.image out after) =
      σ.image out (KcpEngine.tell_window before after) := by
  have hbefore : (σ.image out before).rcv_queue.length = before.rcv_queue.length := List.length_map _
  have hafter : (σ.image out after).rcv_queue.length = after.rcv_queue.length := List.length_map _
  unfold KcpEngine.tell_window
  rw [hbefore, hafter]
  by_cases htell : before.wnd.rcv.toNat ≤ before.rcv_queue.length ∧ after.rcv_queue.length < after.wnd.rcv.toNat
  · rw [if_pos htell]
    refine (if_pos htell).trans ?_
    simp only [image, probe_flags, flags_probe]
  · rw [if_neg htell]
    exact if_neg htell

/-- `recv` commutes with the shift. -/
theorem recv_image : (σ.image out e).recv = (σ.image out e.recv.1, e.recv.2) := by
  have hlen : KcpEngine.message_length (σ.image out e).rcv_queue = KcpEngine.message_length e.rcv_queue :=
    message_length_map e.rcv_queue
  obtain ⟨hnone, heq⟩ | ⟨hready, hpos, k, hloop, heq⟩ := e.recv_cases
  · rw [heq, KcpEngine.recv_of_none]
    rw [headReady_image, hlen]
    exact hnone
  · have hmoved := recv_loop_map (σ := σ) (Word.as_i32 (KcpEngine.message_length e.rcv_queue)).toNat e.rcv_queue []
    have htake : KcpEngine.payload ((e.rcv_queue.map σ.stored).take k) = KcpEngine.payload (e.rcv_queue.take k) := by
      rw [← List.map_take, payload_map]
    rw [hloop, List.map_drop, ← htake] at hmoved
    rw [KcpEngine.recv_of_loop (k := k) (headReady_image.mpr hready) (by rw [hlen]; exact hpos) (by rw [hlen]; exact hmoved)]
    have hpopped : (σ.image out e).popped k = σ.image out (e.popped k) := by
      simp only [KcpEngine.popped, image, htake, List.map_drop]
    have hsame : KcpEngine.payload ((σ.image out e).rcv_queue.take k) = KcpEngine.payload (e.rcv_queue.take k) := htake
    rw [hsame, hpopped, move_to_recv_queue_image, tell_window_image, heq]
    by_cases hdata : KcpEngine.payload (e.rcv_queue.take k) = []
    · rw [if_pos hdata, if_pos hdata]
      simp only [image, List.map_drop]
    · rw [if_neg hdata, if_neg hdata]

/-! ### `send` -/

/-- Merging looks at no number. -/
theorem merge_into_last_map (mss : Nat) (queue : List KcpSegment) (data : Bytes) :
    KcpEngine.merge_into_last mss (queue.map σ.queued) data =
      ((KcpEngine.merge_into_last mss queue data).1.map σ.queued, (KcpEngine.merge_into_last mss queue data).2) := by
  unfold KcpEngine.merge_into_last
  rw [List.getLast?_map]
  cases hlast : queue.getLast? with
  | none => rfl
  | some last =>
    by_cases hroom : last.data.length < mss
    · simp only [Option.map_some, queued, hroom, if_true, List.map_append, List.map_dropLast, List.map_cons, List.map_nil]
    · simp only [Option.map_some, queued, hroom, if_false]

theorem fragment_loop_clk (conv : ConvId) (stream_mode : Bool) (mss count : Nat) (clk : Clock) (data : Bytes)
    (remaining offset : Nat) :
    KcpEngine.fragment_loop conv stream_mode mss count (σ.clk clk) data remaining offset =
      (KcpEngine.fragment_loop conv stream_mode mss count clk data remaining offset).map σ.queued := by
  induction remaining generalizing offset with
  | zero => rfl
  | succ remaining ih =>
    simp only [KcpEngine.fragment_loop, ih, List.map_cons]
    congr 1
    cases stream_mode with
    | false => rfl
    | true => rfl

theorem merged_image (data : Bytes) :
    (σ.image out e).merged data = ((e.merged data).1.map σ.queued, (e.merged data).2) := by
  have hmerge := merge_into_last_map (σ := σ) e.mss.toNat e.snd_queue data
  unfold KcpEngine.merged
  by_cases hmode : e.config.stream_mode = true
  · rw [if_pos hmode]
    exact (if_pos hmode).trans hmerge
  · rw [if_neg hmode]
    exact if_neg hmode

/-- `send` commutes with the shift. -/
theorem send_image (clk : Clock) (data : Bytes) :
    (σ.image out e).send (σ.clk clk) data = (σ.image out (e.send clk data).1, (e.send clk data).2) := by
  have hfragments : ∀ data, (σ.image out e).fragments (σ.clk clk) data = (e.fragments clk data).map σ.queued :=
    fun data => fragment_loop_clk ..
  rw [KcpEngine.send_eq, KcpEngine.send_eq, merged_image, hfragments]
  by_cases hempty : data.isEmpty = true
  · rw [if_pos hempty, if_pos hempty]
    rfl
  · rw [if_neg hempty, if_neg hempty]
    by_cases hrest : (data.drop (e.merged data).2).isEmpty = true
    · rw [if_pos hrest, if_pos hrest]
      rfl
    · rw [if_neg hrest, if_neg hrest]
      by_cases hlong : KcpEngine.max_frags e.config <
          KcpEngine.fragment_count e.mss.toNat (data.drop (e.merged data).2).length
      · rw [if_pos hlong]
        exact if_pos hlong
      · rw [if_neg hlong]
        refine (if_neg hlong).trans ?_
        simp only [image, List.map_append]
        rfl

/-! ### Datagrams that arrive -/

theorem sized_arriving {s : KcpSegment} (h : KcpEngine.Sized s) : KcpEngine.Sized (σ.arriving s) := by
  unfold KcpEngine.Sized arriving incoming
  dsimp only
  split_ifs <;> exact h

/-- A shifted segment is read back from its bytes. -/
theorem next_segment_arriving {buf rest : Bytes} {segment : KcpSegment}
    (h : KcpEngine.next_segment buf = some (segment, rest)) (tail : Bytes) :
    KcpEngine.next_segment ((σ.arriving segment).bytes ++ tail) = some (σ.arriving segment, tail) := by
  rw [KcpEngine.next_segment_bytes (sized_arriving (KcpEngine.next_segment_some h).1)]
  conv_rhs => rw [KcpEngine.next_segment_received h]
  rfl

theorem length_datagram_loop (fuel : Nat) (buf : Bytes) : (σ.datagram_loop fuel buf).length = buf.length := by
  induction fuel generalizing buf with
  | zero => rfl
  | succ fuel ih =>
    unfold datagram_loop
    cases hnext : KcpEngine.next_segment buf with
    | none => rfl
    | some out =>
      obtain ⟨segment, rest⟩ := out
      have hlen := (KcpEngine.next_segment_some hnext).2
      simp only [List.length_append, KcpSegment.length_bytes, ih]
      exact hlen

theorem length_datagram (data : Bytes) : (σ.datagram data).length = data.length := length_datagram_loop ..

/-- A shifted datagram has the shifted segments. -/
theorem split_segments_datagram (data : Bytes) :
    KcpEngine.split_segments (σ.datagram data) = (KcpEngine.split_segments data).map σ.arriving := by
  have hloop : ∀ fuel buf, KcpEngine.split_loop fuel (σ.datagram_loop fuel buf) =
      (KcpEngine.split_loop fuel buf).map σ.arriving := by
    intro fuel
    induction fuel with
    | zero => intro buf; rfl
    | succ fuel ih =>
      intro buf
      cases hnext : KcpEngine.next_segment buf with
      | none => simp only [datagram_loop, KcpEngine.split_loop, hnext, List.map_nil]
      | some out =>
        obtain ⟨segment, rest⟩ := out
        have hagain := next_segment_arriving (σ := σ) hnext (σ.datagram_loop fuel rest)
        simp only [datagram_loop, KcpEngine.split_loop, hnext, hagain, ih, List.map_cons]
  unfold KcpEngine.split_segments
  rw [length_datagram]
  exact hloop data.length data

/-! ### `input` -/

/-- A UNA removes the same segments. -/
theorem parse_una_image (una : SeqNum) :
    (σ.image out e).parse_una (una + σ.snd) = σ.image out (e.parse_una una) := by
  have hcmp : ((fun s : KcpSegment => seq_before s.header.sn (una + σ.snd)) ∘ σ.sent) =
      fun s => seq_before s.header.sn una := funext fun s => seq_before_add ..
  have hdrop : (e.snd_buf.map σ.sent).dropWhile (fun s => seq_before s.header.sn (una + σ.snd)) =
      (e.snd_buf.dropWhile fun s => seq_before s.header.sn una).map σ.sent := by
    rw [List.dropWhile_map, hcmp]
  simp only [KcpEngine.parse_una, image, hdrop]

/-- An ACK removes the same segment. -/
theorem parse_ack_image (sn : SeqNum) : (σ.image out e).parse_ack (sn + σ.snd) = σ.image out (e.parse_ack sn) := by
  have hcmp : ((fun s : KcpSegment => compare (time_diff s.header.sn (sn + σ.snd)) 0) ∘ σ.sent) =
      fun s => compare (time_diff s.header.sn sn) 0 :=
    funext fun s => congrArg (compare · 0) (time_diff_add s.header.sn sn σ.snd)
  have hfind : BinarySearch.binary_search_by (e.snd_buf.map σ.sent)
      (fun s => compare (time_diff s.header.sn (sn + σ.snd)) 0) =
      BinarySearch.binary_search_by e.snd_buf (fun s => compare (time_diff s.header.sn sn) 0) := by
    rw [BinarySearch.binary_search_by_map, hcmp]
  have hout : (seq_before (sn + σ.snd) (e.snd_una + σ.snd) || !seq_before (sn + σ.snd) (e.snd_nxt + σ.snd)) =
      (seq_before sn e.snd_una || !seq_before sn e.snd_nxt) := by
    rw [seq_before_add, seq_before_add]
  unfold KcpEngine.parse_ack
  simp only [image, hout, hfind]
  by_cases hskip : (seq_before sn e.snd_una || !seq_before sn e.snd_nxt) = true
  · rw [if_pos hskip, if_pos hskip]
  · rw [if_neg hskip, if_neg hskip]
    cases BinarySearch.binary_search_by e.snd_buf fun s => compare (time_diff s.header.sn sn) 0 with
    | none => rfl
    | some pos =>
      dsimp only
      rw [List.eraseIdx_map]

theorem parse_fastack_loop_map (sn : SeqNum) (ts : Timestamp) (buf : List KcpSegment) :
    KcpEngine.parse_fastack_loop (sn + σ.snd) (ts + σ.clock) (buf.map σ.sent) =
      (KcpEngine.parse_fastack_loop sn ts buf).map σ.sent := by
  induction buf with
  | nil => rfl
  | cons s rest ih =>
    have hbefore : seq_before (σ.sent s).header.sn (sn + σ.snd) = seq_before s.header.sn sn := seq_before_add ..
    have hnewer : time_diff (ts + σ.clock) (σ.sent s).header.ts = time_diff ts s.header.ts := time_diff_add ..
    simp only [List.map_cons, KcpEngine.parse_fastack_loop, hbefore, hnewer, ih]
    split_ifs <;> rfl

/-- Duplicate ACKs are counted for the same segments. -/
theorem parse_fastack_image (sn : SeqNum) (ts : Timestamp) :
    (σ.image out e).parse_fastack (sn + σ.snd) (ts + σ.clock) = σ.image out (e.parse_fastack sn ts) := by
  have hout : (seq_before (sn + σ.snd) (e.snd_una + σ.snd) || !seq_before (sn + σ.snd) (e.snd_nxt + σ.snd)) =
      (seq_before sn e.snd_una || !seq_before sn e.snd_nxt) := by
    rw [seq_before_add, seq_before_add]
  unfold KcpEngine.parse_fastack
  simp only [image, hout, parse_fastack_loop_map]
  split_ifs <;> rfl

theorem shrink_buf_image : (σ.image out e).shrink_buf = σ.image out e.shrink_buf := by
  unfold KcpEngine.shrink_buf image
  cases e.snd_buf with
  | nil => rfl
  | cons s rest => rfl

/-- The window grows by the same amount. -/
theorem update_cwnd_image (prev_una : SeqNum) :
    (σ.image out e).update_cwnd (prev_una + σ.snd) = σ.image out (e.update_cwnd prev_una) := by
  have hafter : seq_after (e.snd_una + σ.snd) (prev_una + σ.snd) = seq_after e.snd_una prev_una := seq_after_add ..
  unfold KcpEngine.update_cwnd
  simp only [image, hafter]
  split_ifs <;> rfl

theorem update_ack_image (rtt : Int) : (σ.image out e).update_ack rtt = σ.image out (e.update_ack rtt) := rfl

theorem arriving_header (s : KcpSegment) :
    ∃ ts sn, (σ.arriving s).header = { s.header with ts, sn, una := s.header.una + σ.snd } := by
  unfold arriving incoming
  dsimp only
  split_ifs <;> exact ⟨_, _, rfl⟩

/-- An ACK commutes with the shift. -/
theorem input_ack_image (current : Timestamp) {s : KcpSegment} (hack : s.header.cmd = constants.IKCP_CMD_ACK) :
    (σ.image out e).input_ack (current + σ.clock) (σ.arriving s) = σ.image out (e.input_ack current s) := by
  have hheader : (σ.arriving s).header =
      { s.header with ts := s.header.ts + σ.clock, sn := s.header.sn + σ.snd, una := s.header.una + σ.snd } := by
    simp only [arriving, incoming, hack, if_true]
  have hdiff : time_diff (current + σ.clock) (s.header.ts + σ.clock) = time_diff current s.header.ts := time_diff_add ..
  simp only [KcpEngine.input_ack, hheader, hdiff]
  split_ifs
  · rw [update_ack_image, parse_ack_image]
  · rw [parse_ack_image]

theorem parse_data_image {s : KcpSegment} :
    (σ.image out e).parse_data (σ.stored s) = σ.image out (e.parse_data s) := by
  have hbefore : seq_before (s.header.sn + σ.rcv) (e.rcv_nxt + σ.rcv + e.wnd.rcv) =
      seq_before s.header.sn (e.rcv_nxt + e.wnd.rcv) := by
    rw [add_right_comm, seq_before_add]
  have hold : seq_before (s.header.sn + σ.rcv) (e.rcv_nxt + σ.rcv) = seq_before s.header.sn e.rcv_nxt := seq_before_add ..
  have hout : (!seq_before (σ.stored s).header.sn ((σ.image out e).rcv_nxt + (σ.image out e).wnd.rcv) ||
      seq_before (σ.stored s).header.sn (σ.image out e).rcv_nxt) =
      (!seq_before s.header.sn (e.rcv_nxt + e.wnd.rcv) || seq_before s.header.sn e.rcv_nxt) := by
    rw [← hbefore, ← hold]
    rfl
  have hmem : (σ.stored s).header.sn ∈ (σ.image out e).rcv_buf ↔ s.header.sn ∈ e.rcv_buf :=
    Rekey.mem_rekey (add_right_injective σ.rcv) σ.stored e.rcv_buf s.header.sn
  have hinsert := Rekey.rekey_insert (add_right_injective σ.rcv) σ.stored e.rcv_buf s.header.sn s
  unfold KcpEngine.parse_data
  simp only [hout]
  by_cases hskip : (!seq_before s.header.sn (e.rcv_nxt + e.wnd.rcv) || seq_before s.header.sn e.rcv_nxt) = true
  · rw [if_pos hskip, if_pos hskip]
  · rw [if_neg hskip, if_neg hskip, ← move_to_recv_queue_image]
    by_cases hheld : s.header.sn ∈ e.rcv_buf
    · rw [if_pos hheld, if_pos (hmem.mpr hheld)]
    · rw [if_neg hheld, if_neg (mt hmem.mp hheld)]
      simp only [image, buffer, hinsert]
      rfl

/-- A PUSH commutes with the shift. -/
theorem input_push_image {s : KcpSegment} (hpush : s.header.cmd = constants.IKCP_CMD_PUSH) :
    (σ.image out e).input_push (σ.arriving s) = σ.image out (e.input_push s) := by
  have hack : ¬ s.header.cmd = constants.IKCP_CMD_ACK := by
    rw [hpush]
    decide
  have hstored : σ.arriving s = σ.stored s := by
    unfold arriving incoming stored
    rw [if_neg hack, if_pos hpush]
  have hshift := seq_before_add s.header.sn (e.rcv_nxt + e.wnd.rcv) σ.rcv
  rw [add_right_comm] at hshift
  have hwindow : seq_before (σ.stored s).header.sn ((σ.image out e).rcv_nxt + (σ.image out e).wnd.rcv) =
      seq_before s.header.sn (e.rcv_nxt + e.wnd.rcv) := hshift
  have hold : seq_before (σ.stored s).header.sn (σ.image out e).rcv_nxt = seq_before s.header.sn e.rcv_nxt :=
    seq_before_add ..
  have hacks : (σ.image out e).ack_push (σ.stored s).header.sn (σ.stored s).header.ts =
      σ.image out (e.ack_push s.header.sn s.header.ts) := by
    simp only [KcpEngine.ack_push, image, List.map_append]
    rfl
  rw [hstored]
  unfold KcpEngine.input_push
  rw [hwindow]
  by_cases hin : seq_before s.header.sn (e.rcv_nxt + e.wnd.rcv) = true
  · rw [if_pos hin, if_pos hin]
    simp only [hacks]
    have hnxt : (σ.image out (e.ack_push s.header.sn s.header.ts)).rcv_nxt = (σ.image out e).rcv_nxt := rfl
    have hsame : (e.ack_push s.header.sn s.header.ts).rcv_nxt = e.rcv_nxt := rfl
    rw [hnxt, hold, hsame, parse_data_image]
    split_ifs <;> rfl
  · rw [if_neg hin, if_neg hin]

theorem input_wask_image : (σ.image out e).input_wask = σ.image out e.input_wask := by
  simp only [KcpEngine.input_wask, image, probe_flags, flags_probe]

/-- What the loop carries, moved: nothing is remembered before the first ACK. -/
def track (σ : Shift) (t : KcpEngine.AckTrack) : KcpEngine.AckTrack :=
  if t.flag then { t with max_ack := t.max_ack + σ.snd, latest_ts := t.latest_ts + σ.clock } else t

theorem record_track (t : KcpEngine.AckTrack) (sn : SeqNum) (ts : Timestamp) :
    (σ.track t).record (sn + σ.snd) (ts + σ.clock) = σ.track (t.record sn ts) := by
  obtain ⟨flag, max_ack, latest_ts⟩ := t
  cases flag with
  | false => rfl
  | true =>
    simp only [track, KcpEngine.AckTrack.record, if_true, Bool.not_true, Bool.false_eq_true, if_false, seq_after_add,
      time_diff_add]
    by_cases hnewer : seq_after sn max_ack = true ∧ 0 < time_diff ts latest_ts
    · rw [if_pos hnewer, if_pos hnewer]
      rfl
    · rw [if_neg hnewer, if_neg hnewer]
      rfl

/-- Every segment commutes with the shift. -/
theorem input_segment_image (current : Timestamp) (t : KcpEngine.AckTrack) (s : KcpSegment) :
    KcpEngine.input_segment (current + σ.clock) (σ.image out e, σ.track t) (σ.arriving s) =
      (σ.image out (KcpEngine.input_segment current (e, t) s).1,
        σ.track (KcpEngine.input_segment current (e, t) s).2) := by
  obtain ⟨ts, sn, hheader⟩ := arriving_header (σ := σ) s
  have hconv : (σ.arriving s).header.conv = s.header.conv := by rw [hheader]
  have hcmd : (σ.arriving s).header.cmd = s.header.cmd := by rw [hheader]
  have huna : (σ.image out { e with wnd := { e.wnd with rmt := s.header.wnd.setWidth 32 } }).parse_una
      (s.header.una + σ.snd) = _ := parse_una_image s.header.una
  have hopen : KcpEngine.parse_una
      { σ.image out e with wnd := { (σ.image out e).wnd with rmt := (σ.arriving s).header.wnd.setWidth 32 } }
      (σ.arriving s).header.una =
      σ.image out (KcpEngine.parse_una { e with wnd := { e.wnd with rmt := s.header.wnd.setWidth 32 } } s.header.una) := by
    rw [hheader]
    exact huna
  simp only [KcpEngine.input_segment, hopen, hconv, hcmd]
  by_cases hforeign : s.header.conv ≠ e.conv
  · rw [if_pos hforeign]
    exact if_pos hforeign
  · rw [if_neg hforeign]
    refine (if_neg hforeign).trans ?_
    by_cases hack : s.header.cmd = constants.IKCP_CMD_ACK
    · have hsn : (σ.arriving s).header.sn = s.header.sn + σ.snd ∧ (σ.arriving s).header.ts = s.header.ts + σ.clock := by
        simp only [arriving, incoming, hack, if_true, and_self]
      rw [if_pos hack, if_pos hack, input_ack_image current hack, hsn.1, hsn.2, record_track]
    · rw [if_neg hack, if_neg hack]
      by_cases hpush : s.header.cmd = constants.IKCP_CMD_PUSH
      · rw [if_pos hpush, if_pos hpush, input_push_image hpush]
      · rw [if_neg hpush, if_neg hpush, input_wask_image]
        split_ifs <;> rfl

theorem input_finish_image (prev_una : SeqNum) (t : KcpEngine.AckTrack) :
    (σ.image out e).input_finish (prev_una + σ.snd) (σ.track t) = σ.image out (e.input_finish prev_una t) := by
  have hflag : (σ.track t).flag = t.flag := by
    unfold track
    split <;> rfl
  have hcount : (if (σ.track t).flag then (σ.image out e).shrink_buf.parse_fastack (σ.track t).max_ack (σ.track t).latest_ts
      else (σ.image out e).shrink_buf) =
      σ.image out (if t.flag then e.shrink_buf.parse_fastack t.max_ack t.latest_ts else e.shrink_buf) := by
    rw [hflag, shrink_buf_image]
    by_cases hsome : t.flag = true
    · rw [if_pos hsome, if_pos hsome, ← parse_fastack_image]
      simp only [track, hsome, if_true]
    · rw [if_neg hsome, if_neg hsome]
  simp only [KcpEngine.input_finish, hcount, update_cwnd_image]
  rfl

/-- `input` commutes with the shift. -/
theorem input_image (current : Timestamp) (data : Bytes) :
    (σ.image out e).input (current + σ.clock) (σ.datagram data) =
      (σ.image out (e.input current data).1, (e.input current data).2) := by
  have hfold : ∀ (segments : List KcpSegment) (e : KcpEngine) (t : KcpEngine.AckTrack),
      (segments.map σ.arriving).foldl (KcpEngine.input_segment (current + σ.clock)) (σ.image out e, σ.track t) =
        (σ.image out (segments.foldl (KcpEngine.input_segment current) (e, t)).1,
          σ.track (segments.foldl (KcpEngine.input_segment current) (e, t)).2) := by
    intro segments
    induction segments with
    | nil => intro e t; rfl
    | cons s rest ih =>
      intro e t
      rw [List.map_cons, List.foldl_cons, List.foldl_cons, input_segment_image, ih]
  by_cases hshort : data.length < KcpHeader.SIZE
  · rw [KcpEngine.input_short hshort, KcpEngine.input_short (by rw [length_datagram]; exact hshort)]
    rfl
  · have hloop : (σ.image out e).input_loop (current + σ.clock) (σ.datagram data) =
        (σ.image out (e.input_loop current data).1, σ.track (e.input_loop current data).2) := by
      rw [KcpEngine.input_loop, split_segments_datagram]
      exact hfold (KcpEngine.split_segments data) { e with last_activity := current }
        { flag := false, max_ack := 0, latest_ts := 0 }
    have hfinish : (σ.image out (e.input_loop current data).1).input_finish (e.snd_una + σ.snd)
        (σ.track (e.input_loop current data).2) = _ := input_finish_image e.snd_una (e.input_loop current data).2
    rw [KcpEngine.input_eq hshort, KcpEngine.input_eq (by rw [length_datagram]; exact hshort), hloop, ← hfinish]
    rfl

end Shift

end kcp_core.engine
