import Kcp.Engine.Emission
import Kcp.Engine.Pacing
import Kcp.Engine.Reopen
import Kcp.Engine.Sleep

/-! A driver that sleeps for the time that `check` reports, next to one that flushes all the while. -/

open kcp_core.protocol kcp_core.config kcp_core.error

namespace kcp_core.engine

namespace KcpEngine

/-! ### The statistics steer nothing -/

/-- The second engine is the first, apart from the statistics. -/
def Alike (e e' : KcpEngine) : Prop := ∃ stats, e' = e.with_stats stats

theorem Alike.refl (e : KcpEngine) : Alike e e := ⟨e.stats, rfl⟩

/-- Two engines alike to a third one. -/
theorem Alike.trans {first second third : KcpEngine} (h : Alike first second) (h' : Alike second third) : Alike first third := by
  obtain ⟨stats, rfl⟩ := h
  obtain ⟨stats', rfl⟩ := h'
  exact ⟨stats', rfl⟩

variable {e e' : KcpEngine}

theorem move_to_recv_queue_with_stats (e : KcpEngine) (stats : KcpStats) :
    (e.with_stats stats).move_to_recv_queue = e.move_to_recv_queue.with_stats stats := by
  have hloop : ∀ fuel (e : KcpEngine),
      move_to_recv_queue_loop fuel (e.with_stats stats) = (move_to_recv_queue_loop fuel e).with_stats stats := by
    intro fuel
    induction fuel with
    | zero => exact fun _ => rfl
    | succ fuel ih =>
      intro e
      cases hnext : e.rcv_buf.lookup e.rcv_nxt with
      | none =>
        have hsame : (e.with_stats stats).rcv_buf.lookup (e.with_stats stats).rcv_nxt = none := hnext
        rw [move_to_recv_queue_loop_none _ hnext, move_to_recv_queue_loop_none _ hsame]
      | some segment =>
        have hsame : (e.with_stats stats).rcv_buf.lookup (e.with_stats stats).rcv_nxt = some segment := hnext
        by_cases hfull : e.wnd.rcv.toNat ≤ e.rcv_queue.length
        · have hfull' : (e.with_stats stats).wnd.rcv.toNat ≤ (e.with_stats stats).rcv_queue.length := hfull
          rw [move_to_recv_queue_loop_full _ hfull, move_to_recv_queue_loop_full _ hfull']
        · have hroom : e.rcv_queue.length < e.wnd.rcv.toNat := not_le.mp hfull
          have hroom' : (e.with_stats stats).rcv_queue.length < (e.with_stats stats).wnd.rcv.toNat := hroom
          rw [move_to_recv_queue_loop_refill _ hnext hroom, move_to_recv_queue_loop_refill _ hsame hroom']
          exact ih (e.refill segment)
  exact hloop _ e

theorem parse_data_with_stats (e : KcpEngine) (stats : KcpStats) (segment : KcpSegment) :
    (e.with_stats stats).parse_data segment = (e.parse_data segment).with_stats stats := by
  unfold parse_data
  dsimp only
  rw [apply_ite (with_stats · stats), ← move_to_recv_queue_with_stats]
  rfl

theorem input_push_with_stats (e : KcpEngine) (stats : KcpStats) (segment : KcpSegment) :
    (e.with_stats stats).input_push segment = (e.input_push segment).with_stats stats := by
  unfold input_push
  dsimp only
  rw [apply_ite (with_stats · stats), apply_ite (with_stats · stats), ← parse_data_with_stats]
  rfl

theorem parse_ack_with_stats (e : KcpEngine) (stats : KcpStats) (sn : SeqNum) :
    (e.with_stats stats).parse_ack sn = (e.parse_ack sn).with_stats stats := by
  have hparse : ∀ e : KcpEngine, e.parse_ack sn = { e with
      snd_buf := if seq_before sn e.snd_una || !seq_before sn e.snd_nxt then e.snd_buf
        else (BinarySearch.binary_search_by e.snd_buf fun s => compare (time_diff s.header.sn sn) 0).elim
          e.snd_buf e.snd_buf.eraseIdx } := by
    intro e
    unfold parse_ack
    split
    · rfl
    · generalize BinarySearch.binary_search_by e.snd_buf (fun s => compare (time_diff s.header.sn sn) 0) = found
      cases found <;> rfl
  rw [hparse, hparse]
  rfl

theorem alike_input_ack (h : Alike e e') (current : Timestamp) (segment : KcpSegment) :
    Alike (e.input_ack current segment) (e'.input_ack current segment) := by
  obtain ⟨stats, rfl⟩ := h
  unfold input_ack
  dsimp only
  split
  · exact ⟨_, parse_ack_with_stats (e.update_ack (time_diff current segment.header.ts)) _ segment.header.sn⟩
  · exact ⟨stats, e.parse_ack_with_stats stats segment.header.sn⟩

/-- A segment does not look at the counters. -/
theorem alike_input_segment (h : Alike e e') (current : Timestamp) (segment : KcpSegment) (track : AckTrack) :
    Alike (input_segment current (e, track) segment).1 (input_segment current (e', track) segment).1 ∧
      (input_segment current (e', track) segment).2 = (input_segment current (e, track) segment).2 := by
  obtain ⟨stats, rfl⟩ := h
  unfold input_segment
  dsimp only
  by_cases hconv : segment.header.conv ≠ e.conv
  · have hconv' : segment.header.conv ≠ (e.with_stats stats).conv := hconv
    rw [if_pos hconv, if_pos hconv']
    exact ⟨⟨stats, rfl⟩, rfl⟩
  · have hconv' : ¬ segment.header.conv ≠ (e.with_stats stats).conv := hconv
    rw [if_neg hconv, if_neg hconv']
    have hpush := input_push_with_stats (parse_una { e with
      wnd := { e.wnd with rmt := segment.header.wnd.setWidth 32 } } segment.header.una) stats segment
    split_ifs
    · exact ⟨alike_input_ack ⟨stats, rfl⟩ current segment, rfl⟩
    · exact ⟨⟨stats, hpush⟩, rfl⟩
    · exact ⟨⟨stats, rfl⟩, rfl⟩
    · exact ⟨⟨stats, rfl⟩, rfl⟩

theorem alike_input_finish (h : Alike e e') (prev_una : SeqNum) (track : AckTrack) :
    Alike (e.input_finish prev_una track) (e'.input_finish prev_una track) := by
  obtain ⟨stats, rfl⟩ := h
  have hshrunk : (e.with_stats stats).shrink_buf = e.shrink_buf.with_stats stats := by
    rw [shrink_buf_eq, shrink_buf_eq]
    rfl
  have hfast : ∀ e : KcpEngine, (e.with_stats stats).parse_fastack track.max_ack track.latest_ts =
      (e.parse_fastack track.max_ack track.latest_ts).with_stats stats := by
    intro e
    unfold parse_fastack
    rw [apply_ite (with_stats · stats)]
    rfl
  have hcwnd : ∀ e : KcpEngine, (e.with_stats stats).update_cwnd prev_una = (e.update_cwnd prev_una).with_stats stats := by
    intro e
    unfold update_cwnd
    rw [apply_ite (with_stats · stats)]
    rfl
  unfold input_finish
  dsimp only
  rw [hshrunk, hfast, ← apply_ite (with_stats · stats), hcwnd]
  exact ⟨_, rfl⟩

/-- A datagram does not look at the counters. -/
theorem alike_input (h : Alike e e') (now : Timestamp) (data : Bytes) : Alike (e.input now data).1 (e'.input now data).1 := by
  have hfold : ∀ (segments : List KcpSegment) e e' track, Alike e e' →
      Alike (segments.foldl (input_segment now) (e, track)).1 (segments.foldl (input_segment now) (e', track)).1 ∧
        (segments.foldl (input_segment now) (e', track)).2 = (segments.foldl (input_segment now) (e, track)).2 := by
    intro segments
    induction segments with
    | nil => exact fun _ _ _ h => ⟨h, rfl⟩
    | cons segment rest ih =>
      intro e e' track h
      obtain ⟨hone, htrack⟩ := alike_input_segment h now segment track
      have hpair : input_segment now (e', track) segment =
          ((input_segment now (e', track) segment).1, (input_segment now (e, track) segment).2) := Prod.ext rfl htrack
      rw [List.foldl_cons, List.foldl_cons, hpair]
      exact ih _ _ _ hone
  obtain ⟨stats, rfl⟩ := h
  by_cases hshort : data.length < KcpHeader.SIZE
  · rw [input_short hshort, input_short hshort]
    exact ⟨stats, rfl⟩
  · obtain ⟨hloop, htrack⟩ := hfold (split_segments data) { e with last_activity := now }
      { with_stats e stats with last_activity := now } { flag := false, max_ack := 0, latest_ts := 0 } ⟨stats, rfl⟩
    rw [input_eq hshort, input_eq hshort]
    change Alike _ (input_finish _ e.snd_una ((with_stats e stats).input_loop now data).2)
    unfold input_loop
    rw [htrack]
    exact alike_input_finish hloop _ _

/-- `recv` does not look at the counters. -/
theorem alike_recv (h : Alike e e') : Alike e.recv.1 e'.recv.1 := by
  obtain ⟨stats, rfl⟩ := h
  obtain ⟨hnone, heq⟩ | ⟨hready, hpos, k, hloop, heq⟩ := e.recv_cases
  · have hsame : (e.with_stats stats).recv = (e.with_stats stats, .ok none) := recv_of_none hnone
    rw [heq, hsame]
    exact ⟨stats, rfl⟩
  · have hsame : (e.with_stats stats).recv =
        if payload (e.rcv_queue.take k) = [] then ({ e.with_stats stats with rcv_queue := e.rcv_queue.drop k }, .ok none)
        else (tell_window (e.with_stats stats) ((e.with_stats stats).popped k).move_to_recv_queue,
          .ok (some (payload (e.rcv_queue.take k)))) := recv_of_loop hready hpos hloop
    rw [heq, hsame]
    split
    · exact ⟨stats, rfl⟩
    · obtain ⟨counted, hpop⟩ : Alike (e.popped k) ((e.with_stats stats).popped k) := ⟨_, rfl⟩
      have htold : tell_window (e.with_stats stats) ((e.popped k).move_to_recv_queue.with_stats counted) =
          (tell_window e (e.popped k).move_to_recv_queue).with_stats counted := by
        unfold tell_window
        rw [apply_ite (with_stats · counted)]
        rfl
      rw [hpop, move_to_recv_queue_with_stats, htold]
      exact ⟨counted, rfl⟩

/-- `send` does not look at the counters. -/
theorem alike_send (h : Alike e e') (clk : Clock) (data : Bytes) : Alike (e.send clk data).1 (e'.send clk data).1 := by
  have hite : ∀ (c : Prop) [Decidable c] (first first' second second' : KcpEngine), Alike first first' →
      Alike second second' → Alike (if c then first else second) (if c then first' else second') := by
    intro c _ first first' second second' hfirst hsecond
    split
    · exact hfirst
    · exact hsecond
  obtain ⟨stats, rfl⟩ := h
  unfold send
  simp only [apply_ite Prod.fst]
  exact hite _ _ _ _ _ ⟨_, rfl⟩ (hite _ _ _ _ _ ⟨_, rfl⟩ (hite _ _ _ _ _ ⟨_, rfl⟩ ⟨_, rfl⟩))

/-- Two such engines encode the same, and stay so. -/
theorem alike_flush (h : Alike e e') (clk : Clock) :
    Alike (e.flush clk).1 (e'.flush clk).1 ∧ e'.emissions clk = e.emissions clk := by
  obtain ⟨stats, rfl⟩ := h
  have hready : (e.with_stats stats).ready clk.now = (e.ready clk.now).with_stats stats := by
    have hnumbered : ∀ queue sn, (e.with_stats stats).numbered clk.now sn queue = e.numbered clk.now sn queue := by
      intro queue sn
      apply numbered_congr <;> rfl
    rw [ready_eq, ready_eq, hnumbered]
    rfl
  have hdue : ((e.with_stats stats).ready clk.now).due clk.now = (e.ready clk.now).due clk.now := by
    rw [hready]
    rfl
  have hemit : (e.with_stats stats).emissions clk = e.emissions clk := by
    rw [emissions, hready]
    rfl
  refine ⟨?_, hemit⟩
  have hlost : (e.with_stats stats).flush_lost clk = (e.flush_lost clk).with_stats ((e.with_stats stats).flush_lost clk).stats := by
    rw [flush_lost, flush_lost, hemit, hready]
    rfl
  have hdies : (e.with_stats stats).flush_dies clk.now = e.flush_dies clk.now := by
    rw [flush_dies, flush_dies, hdue]
    rfl
  rw [flush_eq, flush_eq, hdies]
  split
  · exact ⟨_, hlost⟩
  · unfold flush_done
    rw [hlost, hready]
    dsimp only
    rw [update_congestion_on_loss_eq, update_congestion_on_loss_eq, flush_out_buf_eq, flush_out_buf_eq]
    exact ⟨_, rfl⟩

/-! ### What is sent when -/

/-- The segments that a call encodes, each with the reading at which it does. -/
def dispatched (self : KcpEngine) (op : Op) : List (Timestamp × KcpSegment) :=
  match self.flush_of op with
  | some clk => (self.encoded op).map fun segment => (clk.now, segment)
  | none => []

/-- No call does, and it encodes the same. -/
theorem alike_step (h : Alike e e') (op : Op) : Alike (e.step op) (e'.step op) ∧ e'.dispatched op = e.dispatched op := by
  have hquiet : ∀ op, e.flush_of op = none → e'.flush_of op = none → e'.dispatched op = e.dispatched op := by
    intro op hnone hnone'
    unfold dispatched
    rw [hnone, hnone']
  cases op with
  | send clk data => exact ⟨alike_send h clk data, hquiet _ rfl rfl⟩
  | recv => exact ⟨alike_recv h, hquiet _ rfl rfl⟩
  | input now data => exact ⟨alike_input h now data, hquiet _ rfl rfl⟩
  | flush clk =>
    obtain ⟨hnext, hemit⟩ := alike_flush h clk
    exact ⟨hnext, congrArg (List.map _) hemit⟩
  | update now clk =>
    obtain ⟨stats, rfl⟩ := h
    have hsame : (e.with_stats stats).flush_of (.update now clk) = e.flush_of (.update now clk) := rfl
    cases hflush : e.flush_of (.update now clk) with
    | none =>
      refine ⟨?_, hquiet _ hflush (hsame.trans hflush)⟩
      rw [step, step, update_idle hflush, update_idle (hsame.trans hflush)]
      exact ⟨stats, rfl⟩
    | some c =>
      have htimed : Alike { e with last_update := now } { e.with_stats stats with last_update := now } := ⟨stats, rfl⟩
      obtain ⟨hnext, hemit⟩ := alike_flush htimed clk
      have hencoded : ∀ e : KcpEngine, e.flush_of (.update now clk) = some c →
          e.encoded (.update now clk) = emissions { e with last_update := now } clk := by
        intro e hsome
        simp only [encoded, hsome, Option.isSome_some, if_true]
      unfold dispatched
      rw [hsame, hflush, hencoded e hflush, hencoded _ (hsame.trans hflush), step, step, update_of_flush hflush,
        update_of_flush (hsame.trans hflush)]
      exact ⟨hnext, congrArg (List.map _) hemit⟩
  | keep_alive_probe clk =>
    obtain ⟨stats, rfl⟩ := h
    have hasked : Alike { e with probe := { e.probe with flags := e.probe.flags ||| constants.IKCP_ASK_SEND } }
        { e.with_stats stats with probe := { e.probe with flags := e.probe.flags ||| constants.IKCP_ASK_SEND } } := ⟨stats, rfl⟩
    obtain ⟨hnext, hemit⟩ := alike_flush hasked clk
    exact ⟨hnext, congrArg (List.map _) hemit⟩
  | drain_output =>
    obtain ⟨stats, rfl⟩ := h
    exact ⟨⟨stats, rfl⟩, rfl⟩
  | set_conv conv =>
    obtain ⟨stats, rfl⟩ := h
    exact ⟨⟨stats, rfl⟩, rfl⟩

/-- A run does not look at the counters, and encodes the same. -/
theorem alike_run (h : Alike e e') (ops : List Op) : Alike (Trace.run step e ops) (Trace.run step e' ops) ∧
    Trace.log step dispatched e' ops = Trace.log step dispatched e ops := by
  induction ops generalizing e e' with
  | nil => exact ⟨h, rfl⟩
  | cons op rest ih =>
    obtain ⟨hnext, hsent⟩ := alike_step h op
    obtain ⟨hlast, hrest⟩ := ih hnext
    refine ⟨hlast, ?_⟩
    unfold Trace.log
    rw [hsent, hrest]

/-! ### Polling -/

/-- While only timers are left, a flush before the time that `check` reports is over sends nothing and changes only
the statistics. -/
theorem poll_idle (h : Rested e) (hwait : Waiting e) {now : Timestamp} {clk : Clock}
    (hlater : Serial.offset now clk.now < (e.check now).toNat) :
    Alike e (e.flush clk).1 ∧ e.emissions clk = [] := by
  have hearly : ∀ d ∈ e.deadlines, time_diff clk.now d < 0 := fun d hd =>
    time_diff_neg_of_lt (lt_of_lt_check hlater d hd)
  have hprobe : e.wnd.rmt = 0 → time_diff clk.now e.probe.ts < 0 := by
    intro hrmt
    apply hearly
    unfold deadlines
    rw [if_pos ⟨hrmt, (h.armed hrmt).2⟩]
    exact List.mem_append_right _ (List.mem_singleton_self _)
  have hnone : NothingDue e clk.now := by
    apply (nothingDue_iff_waiting _).mpr hwait
    intro segment hmem
    exact hearly _ (List.mem_append_left _ (List.mem_map_of_mem hmem))
  obtain ⟨hemit, hflush⟩ := flush_nothing h.acks h.flags (probe_timer_rested h hprobe) hnone h.open_wnd h.packed
  exact ⟨⟨_, congrArg Prod.fst hflush⟩, hemit⟩

theorem Alike.rested (h : Alike e e') (hrested : Rested e) : Rested e' := by
  obtain ⟨stats, rfl⟩ := h
  exact { acks := hrested.acks, flags := hrested.flags, armed := hrested.armed, off := hrested.off, packed := hrested.packed,
          open_wnd := hrested.open_wnd }

theorem Alike.waiting (h : Alike e e') (hwait : Waiting e) : Waiting e' := by
  obtain ⟨stats, rfl⟩ := h
  exact ⟨hwait.sent, hwait.not_skipped, hwait.held_back⟩

/-- `check` does not look at them either. -/
theorem Alike.check_eq (h : Alike e e') (now : Timestamp) : e'.check now = e.check now := by
  obtain ⟨stats, rfl⟩ := h
  rfl

/-- So do all the flushes of a driver that polls within that time. -/
theorem polling_idle (h : Rested e) (hwait : Waiting e) {now : Timestamp} {polls : List Clock}
    (hwithin : ∀ poll ∈ polls, Serial.offset now poll.now < (e.check now).toNat) :
    Alike e (Trace.run step e (polls.map .flush)) ∧ Trace.log step dispatched e (polls.map .flush) = [] := by
  induction polls using List.reverseRecOn with
  | nil => exact ⟨.refl e, rfl⟩
  | append_singleton polls poll ih =>
    obtain ⟨halike, hnone⟩ := ih fun p hp => hwithin p (List.mem_append_left _ hp)
    have hlater : Serial.offset now poll.now < (check (Trace.run step e (polls.map .flush)) now).toNat := by
      rw [halike.check_eq]
      exact hwithin poll (List.mem_append_right _ (List.mem_singleton_self _))
    obtain ⟨hsame, hemit⟩ := poll_idle (halike.rested h) (halike.waiting hwait) hlater
    rw [List.map_append, List.map_singleton, Trace.run_concat, Trace.log_concat, hnone]
    exact ⟨halike.trans hsame, congrArg (List.map _) hemit⟩

end KcpEngine

/-! ### Cycles -/

/-- A cycle of a driver: its calls, and the flush after them. -/
structure Cycle where
  calls : List Op
  clk : Clock

def Cycle.ops (cycle : Cycle) : List Op := cycle.calls ++ [.flush cycle.clk]

/-- The calls of a driver that does not sleep after the cycle, but flushes again at some readings. -/
def polling (polled : Cycle × List Clock) : List Op := polled.1.ops ++ polled.2.map .flush

namespace KcpEngine

def after (self : KcpEngine) (cycle : Cycle) : KcpEngine := Trace.run step self cycle.ops

/-- The driver polls only after a flush that went through, and while another would sleep for the time that `check`
reports. -/
structure WhileAsleep (e : KcpEngine) (polled : Cycle × List Clock) : Prop where
  ok : polled.2 ≠ [] → (flush (Trace.run step e polled.1.calls) polled.1.clk).2 = .ok ()
  asleep : ∀ poll ∈ polled.2, 0 < Serial.offset polled.1.clk.now poll.now ∧
    Serial.offset polled.1.clk.now poll.now < ((e.after polled.1).check polled.1.clk.now).toNat

/-- If the flush of the cycle goes through, a deadline is near after it or only timers are left. -/
def Steady (self : KcpEngine) (cycle : Cycle) : Prop :=
  (flush (Trace.run step self cycle.calls) cycle.clk).2 = .ok () →
    DeadlineNear (self.after cycle) cycle.clk.now ∨ Waiting (self.after cycle)

variable {e e' : KcpEngine}

/-- A cycle ends with its flush. -/
theorem after_eq (e : KcpEngine) (cycle : Cycle) : e.after cycle = (flush (Trace.run step e cycle.calls) cycle.clk).1 :=
  Trace.run_concat ..

/-- Cycles are calls. -/
theorem run_after (e : KcpEngine) (cycles : List Cycle) :
    Trace.run after e cycles = Trace.run step e (cycles.flatMap Cycle.ops) := by
  induction cycles generalizing e with
  | nil => rfl
  | cons cycle rest ih =>
    rw [Trace.run_cons, ih, List.flatMap_cons, Trace.run_append]
    rfl

/-- Polls are not part of the cycles. -/
theorem run_polled (e : KcpEngine) (polled : List (Cycle × List Clock)) :
    Trace.run (fun e (p : Cycle × List Clock) => e.after p.1) e polled = Trace.run after e (polled.map Prod.fst) :=
  List.foldl_map.symm

/-- In a steady cycle the polls make no difference. -/
theorem alike_polling (h : Alike e e') {polled : Cycle × List Clock} (hset : TimerSet (Trace.run step e polled.1.calls))
    (hfits : TimerFits (Trace.run step e polled.1.calls) polled.1.clk.now) (hasleep : WhileAsleep e polled)
    (hsteady : Steady e polled.1) :
    Alike (e.after polled.1) (Trace.run step e' (polling polled)) ∧
      Trace.log step dispatched e' (polling polled) = Trace.log step dispatched e polled.1.ops := by
  obtain ⟨halike, hsent⟩ := alike_run h polled.1.ops
  unfold polling
  rw [Trace.run_append, Trace.log_append, hsent]
  by_cases hnone : polled.2 = []
  · rw [hnone]
    exact ⟨halike, List.append_nil _⟩
  · have hok := hasleep.ok hnone
    have hrested : Rested (e.after polled.1) := by
      rw [after_eq]
      exact rested_flush hset hfits hok
    rcases hsteady hok with ⟨d, hd, hnear⟩ | hwait
    · -- no reading lies within a millisecond
      obtain ⟨poll, hpoll⟩ := List.exists_mem_of_ne_nil _ hnone
      obtain ⟨hpos, hlater⟩ := hasleep.asleep poll hpoll
      have hfar := lt_of_lt_check hlater d hd
      omega
    · have hpolls : ∀ poll ∈ polled.2, Serial.offset polled.1.clk.now poll.now <
          (check (Trace.run step e' polled.1.ops) polled.1.clk.now).toNat := by
        intro poll hpoll
        rw [halike.check_eq]
        exact (hasleep.asleep poll hpoll).2
      obtain ⟨hsame, hquiet⟩ := polling_idle (halike.rested hrested) (halike.waiting hwait) hpolls
      rw [hquiet, List.append_nil]
      exact ⟨halike.trans hsame, rfl⟩

end KcpEngine

open KcpEngine

/-! ### Runs -/

/-- The cycles up to some point, as a driver that sleeps takes them and as one that polls does. -/
theorem alike_cycles (start : Start) {cycles : List Cycle}
    (h : Trace.Always KcpEngine.step StepFits start.fresh (cycles.flatMap Cycle.ops))
    (hsteady : Trace.Always after Steady start.fresh cycles) (polled : List (Cycle × List Clock))
    (hfront : polled.map Prod.fst <+: cycles)
    (hasleep : Trace.Always (fun e p => e.after p.1) WhileAsleep start.fresh polled) :
    Alike (Trace.run after start.fresh (polled.map Prod.fst)) (start.reached (polled.flatMap polling)) ∧
      Trace.log KcpEngine.step dispatched start.fresh (polled.flatMap polling) =
        Trace.log KcpEngine.step dispatched start.fresh ((polled.map Prod.fst).flatMap Cycle.ops) := by
  induction polled using List.reverseRecOn with
  | nil => exact ⟨.refl _, rfl⟩
  | append_singleton before last ih =>
    rw [Trace.always_concat, run_polled] at hasleep
    rw [List.map_append, List.map_singleton] at hfront ⊢
    obtain ⟨halike, hsent⟩ := ih ((List.prefix_append _ _).trans hfront) hasleep.1
    obtain ⟨rest, hcycles⟩ := hfront
    rw [← hcycles, List.append_assoc, Trace.always_append] at hsteady
    rw [← hcycles, List.flatMap_append, List.flatMap_append, Trace.always_append, Trace.always_append,
      ← run_after] at h
    obtain ⟨⟨hfits, hlast⟩, _⟩ := h
    rw [List.flatMap_singleton, Cycle.ops, Trace.always_concat] at hlast
    have hset : TimerSet (Trace.run KcpEngine.step (Trace.run after start.fresh (before.map Prod.fst)) last.1.calls) := by
      rw [run_after, ← Trace.run_append]
      apply start.timerSet
      rw [Trace.always_append, ← run_after]
      exact ⟨hfits, hlast.1⟩
    obtain ⟨hnext, hlog⟩ := alike_polling halike hset (hlast.2 _ rfl) hasleep.2 hsteady.2.1
    rw [Trace.run_concat, List.flatMap_append, List.flatMap_append, List.flatMap_singleton, List.flatMap_singleton,
      Trace.log_append, Trace.log_append, hsent, ← run_after]
    unfold Start.reached at hlog hnext ⊢
    rw [Trace.run_append, hlog]
    exact ⟨hnext, rfl⟩

/-- The same cycles, of a driver that does not poll. -/
def unpolled (cycles : List Cycle) : List (Cycle × List Clock) := cycles.map fun cycle => (cycle, [])

theorem unpolled_fst (cycles : List Cycle) : (unpolled cycles).map Prod.fst = cycles := by
  unfold unpolled
  rw [List.map_map]
  exact List.map_id _

theorem unpolled_polling (cycles : List Cycle) : (unpolled cycles).flatMap polling = cycles.flatMap Cycle.ops := by
  unfold unpolled
  rw [List.flatMap_map]
  exact List.flatMap_congr fun cycle _ => List.append_nil _

/-- A poll after the last cycle alone, within the time that `check` reports. -/
theorem asleep_last (e : KcpEngine) {before : List Cycle} {last : Cycle} (poll : Clock)
    (h : WhileAsleep (Trace.run after e before) (last, [poll])) :
    Trace.Always (fun e p => e.after p.1) WhileAsleep e (unpolled before ++ [(last, [poll])]) := by
  rw [Trace.always_concat, run_polled, unpolled_fst]
  refine ⟨Trace.always_of_forall fun e polled hmem => ?_, h⟩
  obtain ⟨cycle, _, rfl⟩ := List.mem_map.mp hmem
  exact ⟨fun hsome => absurd rfl hsome, fun poll hpoll => by cases hpoll⟩

/-- Where no poll can be told from sleeping, the last cycle is steady: otherwise a poll one millisecond after its
flush sends something. -/
theorem steady_of_same (start : Start) {before : List Cycle} {last : Cycle}
    (h : Trace.Always KcpEngine.step StepFits start.fresh ((before ++ [last]).flatMap Cycle.ops))
    (hsame : ∀ polled, polled.map Prod.fst <+: before ++ [last] →
      Trace.Always (fun e p => e.after p.1) WhileAsleep start.fresh polled →
      Trace.log KcpEngine.step dispatched start.fresh (polled.flatMap polling) =
        Trace.log KcpEngine.step dispatched start.fresh ((polled.map Prod.fst).flatMap Cycle.ops)) :
    Steady (Trace.run after start.fresh before) last := by
  intro hok
  by_contra hneither
  obtain ⟨hfar, hbusy⟩ := not_or.mp hneither
  have hflushed : Flushed ((Trace.run after start.fresh before).after last) := by
    rw [List.flatMap_append, List.flatMap_singleton, Cycle.ops, ← List.append_assoc, Trace.always_concat] at h
    obtain ⟨hbefore, hfits⟩ := h
    have hset := start.timerSet _ hbefore
    unfold Start.reached at hset
    rw [Trace.run_append, ← run_after] at hset hfits
    rw [after_eq]
    exact (timerSet_flush hset (hfits _ rfl)).2
  have hlong : 1 < (check ((Trace.run after start.fresh before).after last) last.clk.now).toNat :=
    (one_lt_check_iff last.clk.now hflushed.acks hflushed.flags).mpr fun d hd => not_le.mp fun hle => hfar ⟨d, hd, hle⟩
  have hone := offset_next last.clk.now
  have hasleep := asleep_last start.fresh (.at (last.clk.now + 1)) ⟨fun _ => hok, fun poll hpoll => by
    rw [List.mem_singleton.mp hpoll, hone]
    exact ⟨Nat.one_pos, hlong⟩⟩
  have hlog := hsame _ (by rw [List.map_append, unpolled_fst]; exact List.prefix_rfl) hasleep
  rw [List.map_append, unpolled_fst, List.flatMap_append, unpolled_polling, List.flatMap_append, List.map_singleton,
    List.flatMap_singleton, List.flatMap_singleton, polling, ← List.append_assoc, Trace.log_append, List.append_right_eq_self,
    Trace.run_append, ← run_after] at hlog
  apply hbusy
  rw [← emits_nothing_iff_waiting hflushed last.clk.now (by rw [hone]; exact hlong), emitted_flush, List.append_right_eq_self]
  have hquiet : emissions ((Trace.run after start.fresh before).after last) (Clock.at (last.clk.now + 1)) = [] :=
    List.map_eq_nil_iff.mp ((List.append_nil _).symm.trans hlog)
  rw [hquiet]
  rfl

/-- After a flush at the end of any run whose probe timer never wraps, sleeping for the time that `check` reports emits
what flushing all the while would emit, exactly when that time is at most a millisecond or the engine waits for
timers alone. And a driver that goes on so, cycle after cycle, sends the same segments at the same readings as one
that polls, whenever it does, exactly when that is the case after each flush of the run that goes through. -/
theorem check_sound_iff (start : Start) :
    (∀ ops clk, Trace.Always KcpEngine.step StepFits start.fresh (ops ++ [.flush clk]) →
      ((∀ later : Clock, 0 < Serial.offset clk.now later.now →
          Serial.offset clk.now later.now < ((start.reached (ops ++ [.flush clk])).check clk.now).toNat →
          ((start.reached (ops ++ [.flush clk])).flush later).1.emitted =
            (start.reached (ops ++ [.flush clk])).emitted) ↔
        DeadlineNear (start.reached (ops ++ [.flush clk])) clk.now ∨
          Waiting (start.reached (ops ++ [.flush clk])))) ∧
    ∀ cycles, Trace.Always KcpEngine.step StepFits start.fresh (cycles.flatMap Cycle.ops) →
      ((∀ polled, polled.map Prod.fst <+: cycles →
          Trace.Always (fun e p => e.after p.1) WhileAsleep start.fresh polled →
          Trace.log KcpEngine.step dispatched start.fresh (polled.flatMap polling) =
            Trace.log KcpEngine.step dispatched start.fresh ((polled.map Prod.fst).flatMap Cycle.ops)) ↔
        Trace.Always after Steady start.fresh cycles) := by
  constructor
  · intro ops clk h
    obtain ⟨hbefore, hlast⟩ := Trace.always_concat.mp h
    rw [Start.reached_concat]
    exact sleep_sound_iff (timerSet_flush (start.timerSet ops hbefore) (hlast clk rfl)).2 clk.now
  · intro cycles h
    constructor
    · intro hsame
      apply Trace.always_of_prefix
      intro before last hfront
      apply steady_of_same start
      · obtain ⟨rest, hcycles⟩ := hfront
        rw [← hcycles, List.flatMap_append, Trace.always_append] at h
        exact h.1
      · exact fun polled hpolled hasleep => hsame polled (hpolled.trans hfront) hasleep
    · exact fun hsteady polled hfront hasleep => (alike_cycles start h hsteady polled hfront hasleep).2

instance decidableWaiting (e : KcpEngine) : Decidable (Waiting e) :=
  decidable_of_iff ((∀ s ∈ e.snd_buf, s.xmit ≠ 0) ∧
      (∀ s ∈ e.snd_buf, s.fastack < e.resend_threshold ∨ constants.IKCP_FASTACK_LIMIT < s.xmit) ∧
      (e.snd_queue = [] ∨ 0 ≤ time_diff e.snd_nxt e.window_end))
    ⟨fun ⟨hsent, hskip, hqueue⟩ => ⟨hsent, hskip, hqueue⟩, fun h => ⟨h.sent, h.not_skipped, h.held_back⟩⟩

/-- Two messages are sent. -/
def pair_sent : Cycle where
  calls := [.send (.at 0) [1], .send (.at 0) [2]]
  clk := .at 0

/-- The ACK of the second closes the window, and a third message is held back. -/
def third_held : Cycle where
  calls := [.input 10 (ack_segment 7 0 0 0 (1, 0)).bytes, .send (.at 10) [3]]
  clk := .at 10

/-- A driver who polls before the ACK comes, and twice before the first message times out. -/
def held_polled : List (Cycle × List Clock) := [(pair_sent, [.at 5]), (third_held, [.at 100, .at 150])]

theorem held_back : Waiting (fast.fresh.after pair_sent) ∧ Waiting ((fast.fresh.after pair_sent).after third_held) ∧
    ((fast.fresh.after pair_sent).check 0).toNat = 200 ∧
    (((fast.fresh.after pair_sent).after third_held).check 10).toNat = 190 := by decide +kernel

theorem goes_through_held :
    (flush (Trace.run KcpEngine.step fast.fresh pair_sent.calls) pair_sent.clk).2 = .ok () ∧
      (flush (Trace.run KcpEngine.step (fast.fresh.after pair_sent) third_held.calls) third_held.clk).2 = .ok () := by
  decide +kernel

theorem early_held : ∀ t ∈ (pair_sent.ops ++ third_held.ops).flatMap Op.readings, t.toNat < 2 ^ 30 := by
  simp [pair_sent, third_held, Cycle.ops, Op.readings]

/-- A segment waits for the window, and one for its timeout. -/
theorem check_sound_held :
    ((fast.reached (pair_sent.ops ++ third_held.calls ++ [.flush (.at 10)])).flush (.at 150)).1.emitted =
        (fast.reached (pair_sent.ops ++ third_held.calls ++ [.flush (.at 10)])).emitted ∧
      Trace.log KcpEngine.step dispatched fast.fresh (held_polled.flatMap polling) =
        Trace.log KcpEngine.step dispatched fast.fresh ((held_polled.map Prod.fst).flatMap Cycle.ops) := by
  have hfits := fast.stepFits early_held
  have hreached : fast.reached (pair_sent.ops ++ third_held.calls ++ [.flush (.at 10)]) =
      (fast.fresh.after pair_sent).after third_held := by
    rw [List.append_assoc]
    unfold Start.reached after Cycle.ops
    rw [Trace.run_append]
    rfl
  obtain ⟨hfirst, hsecond, hearly, hlate⟩ := held_back
  constructor
  · rw [← hreached] at hsecond hlate
    exact ((check_sound_iff fast).1 (pair_sent.ops ++ third_held.calls) (.at 10) (by rw [List.append_assoc]; exact hfits)).mpr
      (.inr hsecond) (.at 150) (by decide) (lt_of_lt_of_eq (by decide) hlate.symm)
  · refine ((check_sound_iff fast).2 [pair_sent, third_held] hfits).mpr ?_ held_polled List.prefix_rfl ?_
    · exact ⟨fun _ => .inr hfirst, fun _ => .inr hsecond, trivial⟩
    · refine ⟨⟨fun _ => goes_through_held.1, fun poll hpoll => ?_⟩, ⟨fun _ => goes_through_held.2, fun poll hpoll => ?_⟩, trivial⟩
      · rw [List.mem_singleton.mp hpoll]
        exact ⟨by decide, lt_of_lt_of_eq (by decide) hearly.symm⟩
      · have hwithin : 0 < Serial.offset (10 : Timestamp) poll.now ∧ Serial.offset (10 : Timestamp) poll.now < 190 := by
          rcases List.mem_pair.mp hpoll with rfl | rfl
          · decide
          · decide
        exact ⟨hwithin.1, lt_of_lt_of_eq hwithin.2 hlate.symm⟩

/-- The first segment is skipped by an ACK, and then times out before the next flush. -/
def skipped_run : List Op :=
  [.send (.at 0) [1], .send (.at 0) [2], .flush (.at 0), .input 10 (one_ack 1 0)]

/-- Three segments time out and one more is queued; then two ACKs call for a fast
retransmission, which raises the congestion window. -/
def raised_run : List Op :=
  [.send (.at 0) [1], .send (.at 0) [2], .send (.at 0) [3], .flush (.at 0), .flush (.at 200),
    .send (.at 200) [4], .input 210 (one_ack 1 200), .input 210 (one_ack 2 200)]

/-- Two ways to oversleep. The scan leaves the skip count of a segment that timed out, so the
next flush sends it once more; and the flush that raises the congestion window has moved
queued data before, so the next flush sends what was left. Both times `check` reports a
far deadline. -/
theorem check_oversleeps :
    ((turbo.reached skipped_run).outcome (.flush (.at 200)) = .ok () ∧
      ((turbo.reached (skipped_run ++ [.flush (.at 200)])).check 200).toNat = 215 ∧
      ((turbo.reached (skipped_run ++ [.flush (.at 200)])).flush (.at 201)).1.emitted ≠
        (turbo.reached (skipped_run ++ [.flush (.at 200)])).emitted) ∧
    (fast.reached raised_run).outcome (.flush (.at 210)) = .ok () ∧
      ((fast.reached (raised_run ++ [.flush (.at 210)])).check 210).toNat = 300 ∧
      ((fast.reached (raised_run ++ [.flush (.at 210)])).flush (.at 211)).1.emitted ≠
        (fast.reached (raised_run ++ [.flush (.at 210)])).emitted := by
  decide +kernel

end kcp_core.engine
