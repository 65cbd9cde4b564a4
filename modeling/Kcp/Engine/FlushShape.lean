import Kcp.Engine.Output

open kcp_core.protocol kcp_core.config kcp_core.error

namespace kcp_core.engine.KcpEngine

/-! ### ACKs and probes -/

def acks_out (self : KcpEngine) (clk : Clock) : List KcpSegment :=
  self.ack_list.map (ack_segment self.conv self.advertised_wnd self.rcv_nxt clk.now)

def probes_out (self : KcpEngine) (clk : Clock) : List KcpSegment :=
  let flags := (self.probe_timer clk.now).flags
  (if flags &&& constants.IKCP_ASK_SEND ≠ 0 then
      [self.create_probe_segment constants.IKCP_CMD_WASK (clk.hdr 0)] else []) ++
    (if flags &&& constants.IKCP_ASK_TELL ≠ 0 then
      [self.create_probe_segment constants.IKCP_CMD_WINS (clk.hdr 1)] else [])

/-- The engine once the ACK list is drained and the probe flags are served, apart
from the output. -/
def opened (self : KcpEngine) (current : Timestamp) : KcpEngine :=
  { self with ack_list := [], probe := { self.probe_timer current with flags := 0 } }

/-- All ACKs leave, and the list is empty. -/
theorem flush_acks_eq (self : KcpEngine) (clk : Clock) :
    self.flush_acks clk = { self with ack_list := [] }.with_output (self.acks_out clk) := by
  have hfold : ∀ (acks : List (SeqNum × Timestamp)) (e : KcpEngine), e.conv = self.conv →
      acks.foldl (fun e ack =>
          e.output_segment (ack_segment e.conv self.advertised_wnd self.rcv_nxt clk.now ack)) e =
        e.with_output (acks.map (ack_segment self.conv self.advertised_wnd self.rcv_nxt clk.now)) := by
    intro acks
    induction acks with
    | nil => intro e _; rfl
    | cons ack rest ih =>
      intro e hconv
      rw [List.foldl_cons, ih _ (by rw [output_segment_eq]; exact hconv), List.map_cons,
        with_output_cons, hconv]
  unfold flush_acks
  split
  · rename_i hempty
    rw [List.isEmpty_iff] at hempty
    have hself : { self with ack_list := [] } = self := by rw [← hempty]
    rw [hself, acks_out, hempty]
    rfl
  · exact hfold self.ack_list { self with ack_list := [] } rfl

private theorem output_if (self : KcpEngine) (c : Prop) [Decidable c] (segment : KcpSegment) :
    (if c then self.output_segment segment else self) = self.with_output (if c then [segment] else []) := by
  split
  · exact output_segment_eq self segment
  · rfl

/-- The probes leave that are asked for, and the flags are cleared. -/
theorem handle_window_probe_eq (self : KcpEngine) (clk : Clock) :
    self.handle_window_probe clk =
      { self with probe := { self.probe_timer clk.now with flags := 0 } }.with_output (self.probes_out clk) := by
  unfold handle_window_probe
  simp only [output_if]
  rw [probes_out, with_output_append]
  rfl

/-! ### Admission -/

/-- The segments of `queue` as they enter the send buffer, numbered from `sn`. -/
def numbered (self : KcpEngine) (current : Timestamp) : SeqNum → List KcpSegment → List KcpSegment
  | _, [] => []
  | sn, segment :: queue =>
    { self with snd_nxt := sn }.number_segment current segment :: self.numbered current (sn + 1) queue

/-- What a queued segment becomes depends on four fields of the engine. -/
theorem numbered_congr {a b : KcpEngine} (hconv : a.conv = b.conv) (hwnd : a.advertised_wnd = b.advertised_wnd)
    (hnxt : a.rcv_nxt = b.rcv_nxt) (hrto : a.rtt.rto = b.rtt.rto) (current : Timestamp) (sn : SeqNum)
    (queue : List KcpSegment) : a.numbered current sn queue = b.numbered current sn queue := by
  induction queue generalizing sn with
  | nil => rfl
  | cons segment queue ih =>
    have hhead : { a with snd_nxt := sn }.number_segment current segment =
        { b with snd_nxt := sn }.number_segment current segment := by
      change ({ segment with
        header := { segment.header with
          conv := a.conv, cmd := constants.IKCP_CMD_PUSH, wnd := a.advertised_wnd, ts := current, sn, una := a.rcv_nxt }
        resendts := current, rto := a.rtt.rto, fastack := 0, xmit := 0 } : KcpSegment) = _
      rw [hconv, hwnd, hnxt, hrto]
      rfl
    rw [numbered, numbered, ih, hhead]

/-- How many segments of `queue` a window ending at `limit` admits from `sn` on. -/
def admit_count (limit : SeqNum) : SeqNum → List KcpSegment → Nat
  | _, [] => 0
  | sn, _ :: queue => if time_diff sn limit < 0 then admit_count limit (sn + 1) queue + 1 else 0

def window_end (self : KcpEngine) : SeqNum := self.snd_una + self.effective_wnd

def admitted (self : KcpEngine) : Nat := admit_count self.window_end self.snd_nxt self.snd_queue

/-- What is admitted moves to the buffer, numbered. -/
theorem move_to_send_buf_eq (self : KcpEngine) (current : Timestamp) :
    self.move_to_send_buf current =
      { self with
        snd_queue := self.snd_queue.drop self.admitted
        snd_buf := self.snd_buf ++ self.numbered current self.snd_nxt (self.snd_queue.take self.admitted)
        snd_nxt := self.snd_nxt + BitVec.ofNat 32 self.admitted } := by
  have hloop : ∀ (queue : List KcpSegment) (cwnd : U32) (buf : List KcpSegment) (nxt : SeqNum),
      move_to_send_buf_loop current cwnd queue { self with snd_buf := buf, snd_nxt := nxt } =
        { self with
          snd_queue := queue.drop (admit_count (self.snd_una + cwnd) nxt queue)
          snd_buf := buf ++ self.numbered current nxt (queue.take (admit_count (self.snd_una + cwnd) nxt queue))
          snd_nxt := nxt + BitVec.ofNat 32 (admit_count (self.snd_una + cwnd) nxt queue) } := by
    intro queue cwnd
    induction queue with
    | nil => intro buf nxt; simp [move_to_send_buf_loop, admit_count, numbered]
    | cons segment queue ih =>
      intro buf nxt
      unfold move_to_send_buf_loop
      by_cases hroom : time_diff nxt (self.snd_una + cwnd) < 0
      · have hnext := ih (buf ++ [{ self with snd_nxt := nxt }.number_segment current segment]) (nxt + 1)
        simp only [hroom, if_true]
        refine hnext.trans ?_
        simp only [admit_count, hroom, if_true, List.drop_succ_cons, List.take_succ_cons, numbered,
          List.append_assoc, List.singleton_append]
        rw [Serial.add_one_add_ofNat]
      · simp [admit_count, hroom, numbered]
  exact hloop self.snd_queue self.effective_wnd self.snd_buf self.snd_nxt

/-! ### Marking and emission -/

/-- The segments the scan picks, as the scan leaves them, in buffer order. -/
def picked (self : KcpEngine) (current : Timestamp) (resend rtomin : U32) : List KcpSegment :=
  (self.snd_buf.filter fun segment => mark_of current resend segment ≠ .hold).map
    (self.mark_segment current resend rtomin)

/-- The segments emitted before the dead-link test stops the loop. -/
def upto_dead (dead_link : U32) : List KcpSegment → List KcpSegment
  | [] => []
  | segment :: rest => if dead_link ≤ segment.xmit then [segment] else segment :: upto_dead dead_link rest

/-- Whether the dead-link test fires on one of the segments. -/
def meets_dead (dead_link : U32) (segments : List KcpSegment) : Bool :=
  segments.any fun segment => decide (dead_link ≤ segment.xmit)

/-- Reading the picked positions back from the scanned buffer gives the picked segments. -/
theorem marked_indices_read (current : Timestamp) (resend : U32) (f : KcpSegment → KcpSegment)
    (front buf : List KcpSegment) :
    (marked_indices current resend front.length buf).map (fun i => (front ++ buf.map f)[i]?) =
      ((buf.filter fun segment => mark_of current resend segment ≠ .hold).map f).map some := by
  induction buf generalizing front with
  | nil => rfl
  | cons segment rest ih =>
    have hnext := ih (front ++ [f segment])
    simp only [List.length_append, List.length_singleton, List.append_assoc, List.singleton_append] at hnext
    by_cases hhold : mark_of current resend segment = .hold
    · simp only [marked_indices, hhold, if_true, List.map_cons]
      simpa [hhold] using hnext
    · simp only [marked_indices, hhold, if_false, List.map_cons, hnext]
      simp [hhold]

/-- The loop sends the marked segments up to the first dead one. -/
theorem emit_loop_eq (indices : List Nat) (segments : List KcpSegment) (self : KcpEngine)
    (hread : indices.map (fun i => self.snd_buf[i]?) = segments.map some) :
    emit_loop indices self =
      (self.with_output (upto_dead self.dead_link segments),
        if meets_dead self.dead_link segments then .error .ConnectionLost else .ok ()) := by
  induction indices generalizing self segments with
  | nil =>
    have hnil : segments = [] := by simpa using hread.symm
    subst hnil
    rfl
  | cons i indices ih =>
    cases segments with
    | nil => cases hread
    | cons segment rest =>
      simp only [List.map_cons, List.cons.injEq] at hread
      have hbuf : (self.output_segment segment).snd_buf = self.snd_buf := by rw [output_segment_eq]; rfl
      have hlink : (self.output_segment segment).dead_link = self.dead_link := by rw [output_segment_eq]; rfl
      have htail := ih rest (self.output_segment segment) (by rw [hbuf]; exact hread.2)
      rw [hlink] at htail
      simp only [emit_loop, hread.1, upto_dead, meets_dead, List.any_cons]
      by_cases hdead : self.dead_link ≤ segment.xmit
      · simp [hdead, output_segment_eq]
      · simp only [hdead, decide_false, Bool.false_eq_true, if_false, Bool.false_or]
        rw [htail, ← with_output_cons]
        rfl

/-- The engine after the scan, before anything the scan picked is emitted. -/
def scanned (self : KcpEngine) (current : Timestamp) : KcpEngine :=
  (self.mark_segments_for_send current self.resend_threshold self.rto_margin).1

/-- The segments the scan picks in this state. -/
def due (self : KcpEngine) (current : Timestamp) : List KcpSegment :=
  self.picked current self.resend_threshold self.rto_margin

def timeouts (self : KcpEngine) (current : Timestamp) : Nat :=
  (self.snd_buf.map (mark_of current self.resend_threshold)).count .timeout

def fasts (self : KcpEngine) (current : Timestamp) : Nat :=
  (self.snd_buf.map (mark_of current self.resend_threshold)).count .fast

theorem scanned_with_output (self : KcpEngine) (segments : List KcpSegment) (current : Timestamp) :
    (self.with_output segments).scanned current = (self.scanned current).with_output segments := rfl

/-- The due segments leave up to the first dead one. -/
theorem flush_data_segments_eq (self : KcpEngine) (current : Timestamp) :
    self.flush_data_segments current =
      if meets_dead self.dead_link (self.due current) then
        ((self.scanned current).with_output (upto_dead self.dead_link (self.due current)), .error .ConnectionLost)
      else
        (((self.scanned current).with_output (upto_dead self.dead_link (self.due current))).update_congestion_on_loss
          (decide (0 < self.timeouts current)) (decide (0 < self.fasts current)) self.resend_threshold, .ok ()) := by
  have hread := marked_indices_read current self.resend_threshold
    (self.mark_segment current self.resend_threshold self.rto_margin) [] self.snd_buf
  have hemit := emit_loop_eq (marked_indices current self.resend_threshold 0 self.snd_buf)
    (self.due current) (self.scanned current) hread
  have hlink : (self.scanned current).dead_link = self.dead_link := rfl
  rw [hlink] at hemit
  have hmark : self.mark_segments_for_send current self.resend_threshold self.rto_margin =
      (self.scanned current, marked_indices current self.resend_threshold 0 self.snd_buf,
        decide (0 < self.timeouts current), decide (0 < self.fasts current)) := rfl
  unfold flush_data_segments
  simp only [hmark, hemit]
  by_cases hdead : meets_dead self.dead_link (self.due current) = true
  · simp only [hdead, if_true]
  · simp only [hdead, Bool.false_eq_true, if_false]

/-! ### The whole flush -/

/-- The engine at the point where the send buffer is scanned, apart from the output. -/
def ready (self : KcpEngine) (current : Timestamp) : KcpEngine :=
  (self.opened current).move_to_send_buf current

/-- Everything a flush puts on the wire, in order. -/
def emissions (self : KcpEngine) (clk : Clock) : List KcpSegment :=
  self.acks_out clk ++ self.probes_out clk ++
    upto_dead self.dead_link ((self.ready clk.now).due clk.now)

/-- Whether the flush runs into a segment past the dead-link threshold. -/
def flush_dies (self : KcpEngine) (current : Timestamp) : Bool :=
  meets_dead self.dead_link ((self.ready current).due current)

/-- The engine after a flush that runs into a dead link. -/
def flush_lost (self : KcpEngine) (clk : Clock) : KcpEngine :=
  ((self.ready clk.now).scanned clk.now).with_output (self.emissions clk)

/-- The engine after a flush that goes through. -/
def flush_done (self : KcpEngine) (clk : Clock) : KcpEngine :=
  let ready := self.ready clk.now
  ((self.flush_lost clk).update_congestion_on_loss (decide (0 < ready.timeouts clk.now))
    (decide (0 < ready.fasts clk.now)) ready.resend_threshold).flush_out_buf.update_congestion_control

theorem move_to_send_buf_with_output (self : KcpEngine) (segments : List KcpSegment) (current : Timestamp) :
    (self.with_output segments).move_to_send_buf current =
      (self.move_to_send_buf current).with_output segments := by
  have hnumbered : ∀ queue sn, (self.with_output segments).numbered current sn queue =
      self.numbered current sn queue := by
    intro queue sn
    apply numbered_congr <;> rfl
  rw [move_to_send_buf_eq, move_to_send_buf_eq, hnumbered]
  rfl

theorem opened_output (self : KcpEngine) (clk : Clock) :
    (self.flush_acks clk).handle_window_probe clk =
      (self.opened clk.now).with_output (self.acks_out clk ++ self.probes_out clk) := by
  rw [flush_acks_eq, handle_window_probe_eq, with_output_append]
  rfl

/-- The order of what leaves before the data: ACKs, then probes. -/
theorem ready_output (self : KcpEngine) (clk : Clock) :
    ((self.flush_acks clk).handle_window_probe clk).move_to_send_buf clk.now =
      (self.ready clk.now).with_output (self.acks_out clk ++ self.probes_out clk) := by
  rw [opened_output, move_to_send_buf_with_output]
  rfl

/-- A flush, taken apart: what it changes besides the output does not depend on the
output, and what it emits is the list `emissions`. -/
theorem flush_eq (self : KcpEngine) (clk : Clock) :
    self.flush clk =
      if self.flush_dies clk.now then (self.flush_lost clk, .error .ConnectionLost)
      else (self.flush_done clk, .ok ()) := by
  have hdata := flush_data_segments_eq
    ((self.ready clk.now).with_output (self.acks_out clk ++ self.probes_out clk)) clk.now
  have hlink : ((self.ready clk.now).with_output (self.acks_out clk ++ self.probes_out clk)).dead_link =
      self.dead_link := by
    change (self.ready clk.now).dead_link = _
    rw [ready, move_to_send_buf_eq]
    rfl
  have hdue : ((self.ready clk.now).with_output (self.acks_out clk ++ self.probes_out clk)).due clk.now =
      (self.ready clk.now).due clk.now := rfl
  have hlost : (((self.ready clk.now).with_output (self.acks_out clk ++ self.probes_out clk)).scanned
      clk.now).with_output (upto_dead self.dead_link ((self.ready clk.now).due clk.now)) =
      self.flush_lost clk := by
    rw [scanned_with_output, ← with_output_append]
    rfl
  rw [hlink, hdue, hlost] at hdata
  unfold flush
  simp only [ready_output, hdata]
  by_cases hdead : meets_dead self.dead_link ((self.ready clk.now).due clk.now) = true
  · have hdies : self.flush_dies clk.now = true := hdead
    rw [if_pos hdead, if_pos hdies]
  · have hdies : ¬ self.flush_dies clk.now = true := hdead
    rw [if_neg hdead, if_neg hdies]
    rfl

end kcp_core.engine.KcpEngine
