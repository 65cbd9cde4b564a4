import Kcp.Engine.Pacing
import Kcp.Engine.Wrap
import Kcp.Engine.Origin

/-! What an engine gives back whose application sends nothing: acknowledgements, the answers to
window probes, and probes of its own. -/

open kcp_core.protocol kcp_core.config kcp_core.error

namespace kcp_core.engine

namespace KcpEngine

/-- The bytes that a call feeds to the engine. -/
def fed (_ : KcpEngine) : Op → Nat
  | .input _ data => data.length
  | _ => 0

/-- The window probes that a call encodes. -/
def asks (self : KcpEngine) (op : Op) : Nat := (self.encoded op).countP fun s => s.header.cmd = constants.IKCP_CMD_WASK

/-- There is nothing to send, and of the probe flags at most the answer to a probe is raised. -/
structure Answering (e : KcpEngine) : Prop where
  queue : e.snd_queue = []
  buf : e.snd_buf = []
  flags : e.probe.flags = 0 ∨ e.probe.flags = constants.IKCP_ASK_TELL

/-- The segments that the receive side holds. -/
def held_count (e : KcpEngine) : Nat := e.rcv_queue.length + e.rcv_buf.entries.length

/-- What the engine has yet to give back: the bytes that wait to be drained, and a header for each
acknowledgement, for the answer to a probe, and for each segment that it holds, as taking that
may reopen the window. -/
def owed (e : KcpEngine) : Nat :=
  e.emitted.length + KcpHeader.SIZE * (e.ack_list.length + (if e.probe.flags = 0 then 0 else 1) + e.held_count)

/-! ### The segments held -/

theorem held_count_move_to_recv_queue (e : KcpEngine) : e.move_to_recv_queue.held_count = e.held_count := by
  apply move_to_recv_queue_rule (P := fun after => after.held_count = e.held_count)
  · intro before segment hsame hnext _
    have herase := length_erase_lt hnext
    rw [← hsame]
    unfold held_count refill
    dsimp only
    rw [List.length_append, List.length_singleton]
    omega
  · rfl

theorem held_count_parse_data (e : KcpEngine) (segment : KcpSegment) :
    (e.parse_data segment).held_count ≤ e.held_count + 1 := by
  unfold parse_data
  dsimp only
  split
  · exact Nat.le_succ _
  · rw [held_count_move_to_recv_queue]
    unfold held_count
    dsimp only
    split
    · exact Nat.le_succ _
    · next hnew =>
      rw [AList.entries_insert_of_notMem hnew, List.length_cons]
      omega

/-! ### Input -/

variable {e : KcpEngine}

/-- What leaves the send side and the output alone. -/
theorem Answering.of_same {after : KcpEngine} (h : Answering e) (hqueue : after.snd_queue = e.snd_queue)
    (hbuf : after.snd_buf.Sublist e.snd_buf) (hflags : after.probe.flags = e.probe.flags) : Answering after where
  queue := hqueue.trans h.queue
  buf := by
    rw [h.buf] at hbuf
    exact List.sublist_nil.mp hbuf
  flags := by
    rw [hflags]
    exact h.flags

theorem answering_tell (h : Answering e) :
    Answering { e with probe := { e.probe with flags := e.probe.flags ||| constants.IKCP_ASK_TELL } } := by
  refine ⟨h.queue, h.buf, .inr ?_⟩
  rcases h.flags with hnone | htell
  · exact (congrArg (· ||| constants.IKCP_ASK_TELL) hnone).trans (by decide)
  · exact (congrArg (· ||| constants.IKCP_ASK_TELL) htell).trans (by decide)

theorem owed_tell (e : KcpEngine) :
    owed { e with probe := { e.probe with flags := e.probe.flags ||| constants.IKCP_ASK_TELL } } ≤
      e.owed + KcpHeader.SIZE := by
  have hone : (if e.probe.flags ||| constants.IKCP_ASK_TELL = 0 then 0 else 1) ≤ 1 := by split <;> omega
  unfold owed KcpHeader.SIZE
  change e.emitted.length + 24 * (e.ack_list.length + (if e.probe.flags ||| constants.IKCP_ASK_TELL = 0 then 0 else 1) +
    e.held_count) ≤ _
  omega

theorem owed_input_push (h : Answering e) (segment : KcpSegment) :
    Answering (e.input_push segment) ∧ (e.input_push segment).owed ≤ e.owed + 2 * KcpHeader.SIZE := by
  obtain ⟨queue, buf, nxt, acks, heq⟩ := e.input_push_shape segment
  have hanswering : Answering (e.input_push segment) := by
    rw [heq]
    exact h.of_same rfl (.refl _) rfl
  refine ⟨hanswering, ?_⟩
  have hheld : (e.input_push segment).held_count ≤ e.held_count + 1 := by
    unfold input_push
    split
    · dsimp only
      split
      · exact held_count_parse_data (e.ack_push segment.header.sn segment.header.ts) segment
      · exact Nat.le_succ _
    · exact Nat.le_succ _
  have hacks : (e.input_push segment).ack_list.length ≤ e.ack_list.length + 1 := by
    unfold input_push
    split
    · dsimp only
      split
      · obtain ⟨_, _, _, hdata⟩ := parse_data_shape (e.ack_push segment.header.sn segment.header.ts) segment
        rw [hdata]
        exact (List.length_append ..).le
      · exact (List.length_append ..).le
    · exact Nat.le_succ _
  have hrest : (e.input_push segment).emitted = e.emitted ∧ (e.input_push segment).probe = e.probe := by
    rw [heq]
    exact ⟨rfl, rfl⟩
  unfold owed KcpHeader.SIZE
  rw [hrest.1, hrest.2]
  omega

/-- What a segment makes the engine owe is at most twice what it takes in the datagram. -/
theorem owed_input_segment {current : Timestamp} {segment : KcpSegment} {acc : KcpEngine × AckTrack} (h : Answering acc.1) :
    Answering (input_segment current acc segment).1 ∧
      (input_segment current acc segment).1.owed ≤ acc.1.owed + 2 * segment.size := by
  obtain ⟨e, track⟩ := acc
  have hsize : KcpHeader.SIZE ≤ segment.size := Nat.le_add_right _ _
  obtain ⟨opened, hopened⟩ : ∃ opened : KcpEngine, opened =
      parse_una { e with wnd := { e.wnd with rmt := segment.header.wnd.setWidth 32 } } segment.header.una := ⟨_, rfl⟩
  have hanswering : Answering opened := by
    rw [hopened]
    exact h.of_same rfl (List.dropWhile_sublist _) rfl
  have howed : opened.owed = e.owed := by
    rw [hopened]
    rfl
  unfold input_segment
  dsimp only
  rw [← hopened]
  split_ifs
  · exact ⟨h, Nat.le_add_right _ _⟩
  · obtain ⟨avg, var, rto, stats, buf, hack, hsub⟩ := opened.input_ack_shape current segment
    rw [hack]
    refine ⟨hanswering.of_same rfl hsub rfl, ?_⟩
    exact howed.le.trans (Nat.le_add_right _ _)
  · obtain ⟨hpush, hle⟩ := owed_input_push hanswering segment
    exact ⟨hpush, by dsimp only; omega⟩
  · have hle := opened.owed_tell
    exact ⟨answering_tell hanswering, hle.trans (by omega)⟩
  · exact ⟨hanswering, howed.le.trans (Nat.le_add_right _ _)⟩

theorem owed_input_segments (current : Timestamp) (segments : List KcpSegment) (acc : KcpEngine × AckTrack)
    (h : Answering acc.1) :
    Answering (segments.foldl (input_segment current) acc).1 ∧
      (segments.foldl (input_segment current) acc).1.owed ≤ acc.1.owed + 2 * (segments.map KcpSegment.size).sum := by
  induction segments generalizing acc with
  | nil => exact ⟨h, Nat.le_add_right _ _⟩
  | cons segment rest ih =>
    have hstep : Answering (input_segment current acc segment).1 ∧
        (input_segment current acc segment).1.owed ≤ acc.1.owed + 2 * segment.size := owed_input_segment h
    obtain ⟨hone, hle⟩ := hstep
    obtain ⟨hall, hsum⟩ := ih _ hone
    rw [List.foldl_cons, List.map_cons, List.sum_cons]
    exact ⟨hall, by omega⟩

theorem sum_size_split_loop (fuel : Nat) (buf : Bytes) : ((split_loop fuel buf).map KcpSegment.size).sum ≤ buf.length := by
  induction fuel generalizing buf with
  | zero => exact Nat.zero_le _
  | succ fuel ih =>
    unfold split_loop
    split
    · exact Nat.zero_le _
    · next segment rest hnext =>
      have hfirst := (next_segment_some hnext).2
      have hrest := ih rest
      rw [List.map_cons, List.sum_cons]
      omega

theorem owed_input (h : Answering e) (now : Timestamp) (data : Bytes) :
    Answering (e.input now data).1 ∧ (e.input now data).1.owed ≤ e.owed + 2 * data.length := by
  by_cases hshort : data.length < KcpHeader.SIZE
  · rw [input_short hshort]
    exact ⟨h.of_same rfl (.refl _) rfl, Nat.le_add_right _ _⟩
  -- The segments split off the datagram take no more than its bytes.
  have hsum : ((split_segments data).map KcpSegment.size).sum ≤ data.length := sum_size_split_loop _ data
  have hstart : Answering { e with last_activity := now } := h.of_same rfl (.refl _) rfl
  have hfold : Answering (e.input_loop now data).1 ∧
      (e.input_loop now data).1.owed ≤ e.owed + 2 * ((split_segments data).map KcpSegment.size).sum :=
    owed_input_segments now _ ({ e with last_activity := now }, { flag := false, max_ack := 0, latest_ts := 0 }) hstart
  obtain ⟨hloop, hle⟩ := hfold
  obtain ⟨buf, cwnd, incr, received, hfinish, hcounted⟩ := input_finish_shape
    (e.input_loop now data).1 e.snd_una (e.input_loop now data).2
  have hbuf : buf = [] := by
    rw [show (e.input_loop now data).1.snd_buf = [] from hloop.buf] at hcounted
    exact List.forall₂_nil_left_iff.mp hcounted
  rw [input_eq hshort, hfinish, hbuf]
  refine ⟨⟨hloop.queue, rfl, hloop.flags⟩, ?_⟩
  change (e.input_loop now data).1.owed ≤ _
  omega

/-! ### Receiving -/

theorem owed_recv (h : Answering e) : Answering e.recv.1 ∧ e.recv.1.owed ≤ e.owed := by
  obtain ⟨_, hnone⟩ | ⟨_, _, k, _, hrecv⟩ := e.recv_cases
  · rw [hnone]
    exact ⟨h, le_rfl⟩
  rw [hrecv]
  split
  · refine ⟨h.of_same rfl (.refl _) rfl, ?_⟩
    unfold owed held_count
    dsimp only
    rw [List.length_drop]
    change e.emitted.length + _ ≤ _
    gcongr
    exact Nat.sub_le ..
  · next hsome =>
    -- A message is taken: the header of one of its segments pays for the window that it may reopen.
    have htaken : 0 < min k e.rcv_queue.length := by
      rw [← List.length_take]
      exact List.length_pos_of_ne_nil fun hnil => hsome (by rw [hnil]; rfl)
    obtain ⟨queue, buf, nxt, hmoved⟩ := (e.popped k).move_to_recv_queue_shape
    have hheld : (e.popped k).move_to_recv_queue.held_count + 1 ≤ e.held_count := by
      rw [held_count_move_to_recv_queue]
      unfold held_count popped
      dsimp only
      rw [List.length_drop]
      omega
    have hmid : Answering (e.popped k).move_to_recv_queue := by
      rw [hmoved]
      exact h.of_same rfl (.refl _) rfl
    have howed : (e.popped k).move_to_recv_queue.owed + KcpHeader.SIZE ≤ e.owed := by
      have hsame : (e.popped k).move_to_recv_queue.emitted = e.emitted ∧
          (e.popped k).move_to_recv_queue.ack_list = e.ack_list ∧
          (e.popped k).move_to_recv_queue.probe = e.probe := by
        rw [hmoved]
        exact ⟨rfl, rfl, rfl⟩
      unfold owed KcpHeader.SIZE
      rw [hsame.1, hsame.2.1, hsame.2.2]
      omega
    unfold tell_window
    split
    · exact ⟨answering_tell hmid, (owed_tell _).trans howed⟩
    · exact ⟨hmid, (Nat.le_add_right _ _).trans howed⟩

/-! ### Flushing -/

/-- The probe timer has run out. -/
def Expires (e : KcpEngine) (now : Timestamp) : Prop :=
  e.wnd.rmt = 0 ∧ e.probe.wait ≠ 0 ∧ 0 ≤ time_diff now e.probe.ts

instance decidableExpires (e : KcpEngine) (now : Timestamp) : Decidable (e.Expires now) :=
  inferInstanceAs (Decidable (_ ∧ _))

theorem probe_timer_flags (e : KcpEngine) (now : Timestamp) :
    (e.probe_timer now).flags = if e.Expires now then e.probe.flags ||| constants.IKCP_ASK_SEND else e.probe.flags := by
  by_cases hexpires : e.Expires now
  · obtain ⟨hrmt, hwait, hdue⟩ := hexpires
    rw [if_pos ⟨hrmt, hwait, hdue⟩, probe_timer, if_pos hrmt, if_neg hwait, if_pos hdue]
  · rw [if_neg hexpires, probe_timer]
    by_cases hrmt : e.wnd.rmt = 0
    · by_cases hwait : e.probe.wait = 0
      · rw [if_pos hrmt, if_pos hwait]
      · rw [if_pos hrmt, if_neg hwait, if_neg fun hdue => hexpires ⟨hrmt, hwait, hdue⟩]
    · rw [if_neg hrmt]

/-- A flush with nothing to send. -/
theorem emissions_of_empty (hqueue : e.snd_queue = []) (hbuf : e.snd_buf = []) (clk : Clock) :
    e.emissions clk = e.acks_out clk ++ e.probes_out clk := by
  have hnone : (e.ready clk.now).due clk.now = [] := by
    rw [due_ready_eq_nil_iff, hbuf]
    refine ⟨fun _ hmem => (by cases hmem), Nat.le_zero.mp (e.admitted_le.trans ?_)⟩
    rw [hqueue, List.length_nil]
  rw [emissions, hnone]
  exact List.append_nil _

/-- Each of these segments is a header. -/
theorem length_emissions_of_empty (hqueue : e.snd_queue = []) (hbuf : e.snd_buf = []) (clk : Clock) :
    ((e.emissions clk).flatMap KcpSegment.bytes).length = KcpHeader.SIZE * (e.emissions clk).length := by
  have hbare : ∀ s ∈ e.emissions clk, s.bytes.length = KcpHeader.SIZE := by
    rw [emissions_of_empty hqueue hbuf]
    intro s hs
    have hdata : s.data = [] := by
      rcases List.mem_append.mp hs with hs | hs
      · obtain ⟨ack, _, rfl⟩ := List.mem_map.mp hs
        rfl
      · unfold probes_out at hs
        dsimp only at hs
        rcases List.mem_append.mp hs with hs | hs <;> split_ifs at hs
        · rw [List.mem_singleton.mp hs]
          rfl
        · cases hs
        · rw [List.mem_singleton.mp hs]
          rfl
        · cases hs
    rw [KcpSegment.length_bytes, KcpSegment.size, hdata]
    rfl
  rw [List.length_flatMap, List.map_congr_left hbare, List.map_const', List.sum_replicate_nat, Nat.mul_comm]

theorem acks_ask_nothing (e : KcpEngine) (clk : Clock) :
    (e.acks_out clk).countP (fun s => s.header.cmd = constants.IKCP_CMD_WASK) = 0 := by
  rw [List.countP_eq_zero]
  intro s hs
  obtain ⟨ack, _, rfl⟩ := List.mem_map.mp hs
  exact of_decide_eq_true rfl

/-- A probe is encoded if it is asked for, and so is an answer. -/
theorem count_probes_out (e : KcpEngine) (clk : Clock) :
    (e.probes_out clk).countP (fun s => s.header.cmd = constants.IKCP_CMD_WASK) =
        (if (e.probe_timer clk.now).flags &&& constants.IKCP_ASK_SEND = 0 then 0 else 1) ∧
      (e.probes_out clk).length = (e.probes_out clk).countP (fun s => s.header.cmd = constants.IKCP_CMD_WASK) +
        if (e.probe_timer clk.now).flags &&& constants.IKCP_ASK_TELL = 0 then 0 else 1 := by
  unfold probes_out
  dsimp only
  by_cases hask : (e.probe_timer clk.now).flags &&& constants.IKCP_ASK_SEND = 0
  · rw [if_neg (not_not.mpr hask), if_pos hask]
    by_cases htell : (e.probe_timer clk.now).flags &&& constants.IKCP_ASK_TELL = 0
    · rw [if_neg (not_not.mpr htell), if_pos htell]
      exact ⟨rfl, rfl⟩
    · rw [if_pos htell, if_neg htell]
      exact ⟨rfl, rfl⟩
  · rw [if_pos hask, if_neg hask]
    by_cases htell : (e.probe_timer clk.now).flags &&& constants.IKCP_ASK_TELL = 0
    · rw [if_neg (not_not.mpr htell), if_pos htell]
      exact ⟨rfl, rfl⟩
    · rw [if_pos htell, if_neg htell]
      exact ⟨rfl, rfl⟩

/-- The flags that a flush finds ask for an answer if one is asked for. -/
theorem Answering.tell_iff (h : Answering e) {flags : U32}
    (hflags : flags = e.probe.flags ∨ flags = e.probe.flags ||| constants.IKCP_ASK_SEND) (last now : Timestamp) :
    (probe_timer { e with last_update := last, probe := { e.probe with flags } } now).flags &&&
      constants.IKCP_ASK_TELL = 0 ↔ e.probe.flags = 0 := by
  rw [probe_timer_flags]
  dsimp only
  rcases h.flags with hnone | htell
  · rw [hnone] at hflags ⊢
    rcases hflags with rfl | rfl <;> split <;> decide
  · rw [htell] at hflags ⊢
    rcases hflags with rfl | rfl <;> split <;> decide

/-- What is owed after a flush with nothing to send: the acknowledgements and the probes are bytes now. -/
theorem owed_flush (hqueue : e.snd_queue = []) (hbuf : e.snd_buf = []) (clk : Clock) :
    Answering (e.flush clk).1 ∧ (e.flush clk).1.owed = e.emitted.length + KcpHeader.SIZE *
      (e.ack_list.length + ((e.emissions clk).countP fun s => s.header.cmd = constants.IKCP_CMD_WASK) +
        (if (e.probe_timer clk.now).flags &&& constants.IKCP_ASK_TELL = 0 then 0 else 1) + e.held_count) := by
  have hemitted := congrArg List.length (e.emitted_flush clk)
  rw [List.length_append, length_emissions_of_empty hqueue hbuf] at hemitted
  obtain ⟨_, hprobes⟩ := e.count_probes_out clk
  have hlength : (e.acks_out clk).length = e.ack_list.length := List.length_map _
  obtain ⟨output, out, stats, heq⟩ := e.flush_shape clk
  constructor
  · rw [heq]
    refine ⟨?_, ?_, .inl rfl⟩
    · dsimp only
      rw [hqueue, List.drop_nil]
    · dsimp only [flushed_buf]
      rw [hqueue, hbuf, List.take_nil]
      rfl
  · have hsame : (e.flush clk).1.ack_list = [] ∧ (e.flush clk).1.probe.flags = 0 ∧
        (e.flush clk).1.held_count = e.held_count := by
      rw [heq]
      exact ⟨rfl, rfl, rfl⟩
    unfold owed
    rw [hsame.1, hsame.2.1, hsame.2.2, hemitted, emissions_of_empty hqueue hbuf, List.length_append, List.countP_append,
      e.acks_ask_nothing clk, hlength, hprobes]
    unfold KcpHeader.SIZE
    simp only [if_true, List.length_nil]
    omega

/-! ### Calls -/

/-- A call pays for what it hands over and for what is owed after it with twice what it is fed, and a
header for each probe. -/
theorem owed_step (h : Answering e) {op : Op} (hquiet : op.NoSend) :
    Answering (e.step op) ∧ (e.drained op).flatten.length + (e.step op).owed ≤
      e.owed + (2 * e.fed op + KcpHeader.SIZE * e.asks op) := by
  cases hflush : e.flush_of op with
  | some clk =>
    obtain ⟨last, flags, hstep, hencoded, hflags⟩ := encoded_of_flush_of hflush
    obtain ⟨hnext, howed⟩ := owed_flush (e := { e with last_update := last, probe := { e.probe with flags } })
      h.queue h.buf clk
    have hnone : (e.drained op).flatten.length = 0 := by
      cases op with
      | drain_output => cases hflush
      | _ => rfl
    rw [hstep]
    refine ⟨hnext, ?_⟩
    rw [howed, if_congr (h.tell_iff hflags last clk.now) rfl rfl, ← hencoded, hnone]
    change 0 + (e.emitted.length + KcpHeader.SIZE * (e.ack_list.length + e.asks op + _ + e.held_count)) ≤ _
    unfold owed KcpHeader.SIZE
    omega
  | none =>
    have hasks : e.asks op = 0 := by
      unfold asks
      rw [encoded_of_no_flush hflush]
      rfl
    rw [hasks]
    cases op with
    | send clk data => exact hquiet.elim
    | flush clk => cases hflush
    | keep_alive_probe clk => cases hflush
    | recv =>
      obtain ⟨hnext, hle⟩ := owed_recv h
      exact ⟨hnext, by change 0 + e.recv.1.owed ≤ e.owed + 0; omega⟩
    | input now data =>
      obtain ⟨hnext, hle⟩ := owed_input h now data
      exact ⟨hnext, by change 0 + (e.input now data).1.owed ≤ e.owed + (2 * data.length + 0); omega⟩
    | update now clk =>
      obtain ⟨last, heq⟩ := update_of_no_flush hflush
      simp only [step, heq]
      exact ⟨h.of_same rfl (.refl _) rfl, by change 0 + e.owed ≤ e.owed + 0; omega⟩
    | drain_output =>
      refine ⟨h.of_same rfl (.refl _) rfl, ?_⟩
      have hemitted : e.emitted.length = e.output_queue.flatten.length + e.out_buf.length := List.length_append
      unfold owed
      rw [hemitted]
      change e.output_queue.flatten.length + (e.out_buf.length + KcpHeader.SIZE *
        (e.ack_list.length + (if e.probe.flags = 0 then 0 else 1) + e.held_count)) ≤ _
      omega
    | set_conv conv => exact ⟨h.of_same rfl (.refl _) rfl, by change 0 + e.owed ≤ e.owed + 0; omega⟩

/-! ### Probes -/

/-- The probes that the application asks for. -/
def prods (_ : KcpEngine) : Op → Nat
  | .keep_alive_probe _ => 1
  | _ => 0

/-- The probes that the timer asks for. -/
def expiries (self : KcpEngine) (op : Op) : Nat :=
  (self.flush_of op).elim 0 fun clk => if self.Expires clk.now then 1 else 0

theorem count_emissions_eq (hqueue : e.snd_queue = []) (hbuf : e.snd_buf = []) (clk : Clock) :
    (e.emissions clk).countP (fun s => s.header.cmd = constants.IKCP_CMD_WASK) =
      if (e.probe_timer clk.now).flags &&& constants.IKCP_ASK_SEND = 0 then 0 else 1 := by
  rw [emissions_of_empty hqueue hbuf, List.countP_append, e.acks_ask_nothing clk, (e.count_probes_out clk).1, Nat.zero_add]

/-- A flush with nothing to send encodes a probe only if the timer has run out. -/
theorem count_emissions (h : Answering e) (clk : Clock) :
    (e.emissions clk).countP (fun s => s.header.cmd = constants.IKCP_CMD_WASK) ≤ if e.Expires clk.now then 1 else 0 := by
  rw [count_emissions_eq h.queue h.buf, probe_timer_flags]
  by_cases hexpires : e.Expires clk.now
  · rw [if_pos hexpires, if_pos hexpires]
    split <;> decide
  · rw [if_neg hexpires, if_neg hexpires]
    rcases h.flags with hflags | hflags <;> rw [hflags] <;> decide

theorem asks_le (h : Answering e) (op : Op) : e.asks op ≤ e.prods op + e.expiries op := by
  cases op with
  | keep_alive_probe clk =>
    have hone := count_emissions_eq
      (e := { e with probe := { e.probe with flags := e.probe.flags ||| constants.IKCP_ASK_SEND } }) h.queue h.buf clk
    refine (hone.le.trans ?_).trans (Nat.le_add_right 1 _)
    split <;> decide
  | flush clk => exact (count_emissions h clk).trans (Nat.le_add_left _ _)
  | update now clk =>
    cases hflush : e.flush_of (.update now clk) with
    | none =>
      rw [asks, encoded_of_no_flush hflush]
      exact Nat.zero_le _
    | some c =>
      have hclk : c = clk := by
        simp only [flush_of, Option.ite_none_right_eq_some, Option.some.injEq] at hflush
        exact hflush.2.symm
      have hretimed : Answering { e with last_update := now } := h.of_same rfl (.refl _) rfl
      rw [asks, encoded, hflush, if_pos Option.isSome_some, expiries, hflush, hclk]
      exact (count_emissions hretimed clk).trans (Nat.le_add_left _ _)
  | _ => exact Nat.zero_le _

/-- By the time `limit`, the timer has run out `n` times, and seven seconds lie between any two. -/
structure Spaced (n limit : Nat) (e : KcpEngine) : Prop where
  fired : 7000 * n ≤ limit
  wait_le : e.probe.wait.toNat ≤ 120000
  next : e.probe.wait ≠ 0 → 7000 * (n + 1) ≤ e.probe.ts.toNat ∧ e.probe.ts.toNat ≤ limit + 120000

theorem Spaced.of_same {n limit later : Nat} {after : KcpEngine} (h : Spaced n limit e) (hle : limit ≤ later)
    (hwait : after.probe.wait = e.probe.wait) (hts : after.probe.ts = e.probe.ts) : Spaced n later after where
  fired := h.fired.trans hle
  wait_le := by
    rw [hwait]
    exact h.wait_le
  next := by
    rw [hwait, hts]
    exact fun hset => ⟨(h.next hset).1, (h.next hset).2.trans (Nat.add_le_add_right hle _)⟩

/-- A timer that is set anew is set for seven seconds at least. -/
theorem wait_ge_of_set (hrmt : e.wnd.rmt = 0) (hwait : e.probe.wait.toNat ≤ 120000) {now : Timestamp}
    (hset : e.probe.wait = 0 ∨ 0 ≤ time_diff now e.probe.ts) : 7000 ≤ (e.probe_timer now).wait.toNat := by
  have hinit : constants.IKCP_PROBE_INIT.toNat = 7000 := rfl
  have hlimit : constants.IKCP_PROBE_LIMIT.toNat = 120000 := rfl
  unfold probe_timer
  rw [if_pos hrmt]
  by_cases hzero : e.probe.wait = 0
  · rw [if_pos hzero]
    exact hinit.ge
  · rw [if_neg hzero, if_pos (hset.resolve_left hzero)]
    dsimp only
    obtain ⟨base, hbase, hlow, hhigh⟩ : ∃ base : U32,
        base = (if e.probe.wait < constants.IKCP_PROBE_INIT then constants.IKCP_PROBE_INIT else e.probe.wait) ∧
          7000 ≤ base.toNat ∧ base.toNat ≤ 120000 := by
      refine ⟨_, rfl, ?_⟩
      split
      · omega
      · next hlong =>
        rw [BitVec.lt_def] at hlong
        omega
    have hsum : (base + base / 2).toNat = base.toNat + base.toNat / 2 := by
      rw [BitVec.toNat_add, BitVec.toNat_udiv]
      exact Nat.mod_eq_of_lt (by change base.toNat + base.toNat / 2 < 2 ^ 32; omega)
    rw [← hbase]
    split <;> omega

theorem spaced_flush {n limit : Nat} (h : Spaced n limit e) {clk : Clock} (hle : limit ≤ clk.now.toNat)
    (hnow : clk.now.toNat < 2 ^ 30) :
    Spaced (n + if e.Expires clk.now then 1 else 0) clk.now.toNat (e.flush clk).1 := by
  obtain ⟨queue, buf, stats, heq⟩ := e.flush_shape clk
  have hfired := h.fired.trans hle
  suffices htimer : Spaced (n + if e.Expires clk.now then 1 else 0) clk.now.toNat
      { e with probe := { e.probe_timer clk.now with flags := 0 } } by
    rw [heq]
    exact htimer.of_same le_rfl rfl rfl
  by_cases hrmt : e.wnd.rmt = 0
  · obtain ⟨_, hwait, hset | ⟨hsame, hearly⟩⟩ := probe_timer_closed hrmt h.wait_le clk.now
    · have hlong := wait_ge_of_set hrmt h.wait_le hset.1
      have hts : (e.probe_timer clk.now).ts.toNat = clk.now.toNat + (e.probe_timer clk.now).wait.toNat := by
        rw [hset.2]
        exact Word.toNat_add_of_lt (by omega)
      -- The timer was due seven seconds or more after the last time that it ran out.
      have hdue : 7000 * (n + if e.Expires clk.now then 1 else 0) ≤ clk.now.toNat := by
        split
        · next hexpires =>
          obtain ⟨hfirst, hlast⟩ := h.next hexpires.2.1
          have hpast := hexpires.2.2
          rw [time_diff_eq (by omega) (by omega)] at hpast
          omega
        · exact hfired
      exact ⟨hdue, hwait, fun _ => by dsimp only; omega⟩
    · have hnot : ¬ e.Expires clk.now := fun hexpires => absurd hexpires.2.2 (by omega)
      rw [if_neg hnot]
      refine Spaced.of_same h hle ?_ ?_ <;> dsimp only <;> rw [hsame]
  · have hnot : ¬ e.Expires clk.now := fun hexpires => hrmt hexpires.1
    rw [if_neg hnot, probe_timer_open hrmt]
    exact ⟨hfired, Nat.zero_le _, fun hset => absurd rfl hset⟩

theorem spaced_step {n limit : Nat} (h : Spaced n limit e) {op : Op} {later : Nat} (hle : limit ≤ later)
    (hflush : ∀ clk, e.flush_of op = some clk →
      limit ≤ clk.now.toNat ∧ clk.now.toNat ≤ later ∧ clk.now.toNat < 2 ^ 30) :
    Spaced (n + e.expiries op) later (e.step op) := by
  cases hsome : e.flush_of op with
  | some clk =>
    obtain ⟨last, flags, hstep, _⟩ := step_of_flush_of hsome
    obtain ⟨hfrom, hto, hnow⟩ := hflush clk hsome
    have hretimed : Spaced n limit { e with last_update := last, probe := { e.probe with flags } } :=
      h.of_same le_rfl rfl rfl
    rw [expiries, hsome, hstep]
    exact (spaced_flush hretimed hfrom hnow).of_same hto rfl rfl
  | none =>
    have hnone : e.expiries op = 0 := by
      rw [expiries, hsome]
      rfl
    rw [hnone, Nat.add_zero]
    have hsame : (e.step op).probe.wait = e.probe.wait ∧ (e.step op).probe.ts = e.probe.ts := by
      cases op with
      | flush clk => cases hsome
      | keep_alive_probe clk => cases hsome
      | update now clk =>
        obtain ⟨last, heq⟩ := update_of_no_flush hsome
        simp only [step, heq, and_self]
      | send clk data =>
        obtain ⟨queue, sent, heq⟩ := e.send_shape clk data
        simp only [step, heq, and_self]
      | recv =>
        obtain ⟨queue, buf, nxt, flags, received, heq⟩ := e.recv_shape
        simp only [step, heq, and_self]
      | input now data => exact ⟨(e.inputFrame_input now data).wait, (e.inputFrame_input now data).ts⟩
      | drain_output => exact ⟨rfl, rfl⟩
      | set_conv conv => exact ⟨rfl, rfl⟩
    exact h.of_same hle hsame.1 hsame.2

end KcpEngine

open KcpEngine

/-- With a clock that is never set back, the probe timer of an engine runs out every seven seconds at most. -/
theorem Origin.spaced (origin : Origin) (ops : List Op) (h : Ordered ops) (limit : Nat)
    (hlimit : ∀ t ∈ ops.flatMap Op.readings, t.toNat ≤ limit) :
    Spaced (Trace.total step expiries origin.fresh ops) limit (origin.reached ops) := by
  revert h limit
  apply Trace.invariant (P := fun (ops : List Op) e => Ordered ops → ∀ limit,
    (∀ t ∈ ops.flatMap Op.readings, t.toNat ≤ limit) → Spaced (Trace.total step expiries origin.fresh ops) limit e)
  · exact fun _ limit _ => ⟨Nat.zero_le _, Nat.zero_le _, fun hset => absurd rfl hset⟩
  · intro ops op ih h limit hlimit
    obtain ⟨hbefore, hcross⟩ := h.concat
    have hops : ∀ t ∈ ops.flatMap Op.readings, t.toNat ≤ limit := fun t ht =>
      hlimit t (by rw [List.flatMap_append]; exact List.mem_append_left _ ht)
    rw [Trace.total_concat]
    cases hflush : (origin.reached ops).flush_of op with
    | none =>
      refine spaced_step (ih hbefore limit hops) le_rfl fun clk hclk => ?_
      cases hflush.symm.trans hclk
    | some clk =>
      have hmem := mem_readings_of_flush hflush
      have hlast : clk.now ∈ (ops ++ [op]).flatMap Op.readings := by
        rw [List.flatMap_append]
        exact List.mem_append_right _ (by simpa using hmem)
      have hprev := ih hbefore clk.now.toNat fun t ht => hcross t ht _ hmem
      refine spaced_step hprev (hlimit _ hlast) fun c hc => ?_
      have hsame : clk = c := Option.some.inj (hflush.symm.trans hc)
      exact hsame ▸ ⟨le_rfl, hlimit _ hlast, h.early _ hlast⟩

/-- An engine whose application sends nothing gives back at most two bytes for every byte it is fed, whatever it
is fed, and a header for each window probe; and it encodes a probe at most every seven seconds, beside
those that its application asks for. -/
theorem no_amplification (origin : Origin) (ops : List Op) (hquiet : ∀ op ∈ ops, op.NoSend) :
    (Trace.log step drained origin.fresh ops).flatten.length ≤
        2 * Trace.total step fed origin.fresh ops + KcpHeader.SIZE * Trace.total step asks origin.fresh ops ∧
      (Ordered ops → ∀ limit, (∀ t ∈ ops.flatMap Op.readings, t.toNat ≤ limit) →
        Trace.total step asks origin.fresh ops ≤ Trace.total step prods origin.fresh ops + limit / 7000) := by
  have hfresh : Answering origin.fresh := ⟨rfl, rfl, .inl rfl⟩
  have hpays : ∀ e op, Answering e → Op.NoSend op → Answering (e.step op) ∧
      (e.drained op).flatten.length + (e.step op).owed ≤ e.owed + (2 * e.fed op + KcpHeader.SIZE * e.asks op) :=
    fun _ _ h hop => owed_step h hop
  constructor
  · have hpaid := (Trace.total_le_of_potential hpays hfresh hquiet).2
    have hnone : origin.fresh.owed = 0 := rfl
    rw [Trace.total_add, Trace.total_mul, Trace.total_mul, hnone, Nat.zero_add] at hpaid
    rw [Trace.length_flatten_log]
    exact (Nat.le_add_right _ _).trans hpaid
  · intro hclock limit hlimit
    have hspaced := (origin.spaced ops hclock limit hlimit).fired
    have hle : ∀ e op, Answering e → Op.NoSend op →
        Answering (e.step op) ∧ e.asks op + 0 ≤ 0 + (e.prods op + e.expiries op) :=
      fun _ op h hop => ⟨(owed_step h hop).1, (Nat.zero_add _).symm ▸ asks_le h op⟩
    have hcount := (Trace.total_le_of_potential (w := fun _ => 0) hle hfresh hquiet).2
    rw [Trace.total_add] at hcount
    omega

/-- A byte fills the window and is taken, and the peer's own window stays closed until the probe timer runs out. -/
def closed_run : List Op := [.input 0 (one_push 0), .flush (.at 0), .recv, .flush (.at 7000), .drain_output]

theorem no_amplification_closed :
    (Trace.log step drained narrow.fresh closed_run).flatten.length = 72 ∧
      72 ≤ 2 * Trace.total step fed narrow.fresh closed_run +
        KcpHeader.SIZE * Trace.total step asks narrow.fresh closed_run ∧
      Trace.total step asks narrow.fresh closed_run = 1 ∧
      1 ≤ Trace.total step prods narrow.fresh closed_run + 7000 / 7000 := by
  have hreadings : closed_run.flatMap Op.readings = [0, 0, 7000] := rfl
  have hbytes : (Trace.log step drained narrow.fresh closed_run).flatten.length = 72 := by decide +kernel
  have hasks : Trace.total step asks narrow.fresh closed_run = 1 := by decide +kernel
  obtain ⟨hle, hpaced⟩ := no_amplification narrow.origin closed_run (by simp [closed_run, Op.NoSend])
  have hprobes := hpaced ⟨by simp [hreadings], by simp [hreadings]⟩ 7000 (by simp [hreadings])
  exact ⟨hbytes, hbytes ▸ hle, hasks, hasks ▸ hprobes⟩

end kcp_core.engine
