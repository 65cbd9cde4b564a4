import Kcp.Checked
import Kcp.Engine.Step

/-! The engine in a debug build: each function of the source once more, with `none` where a
plain operation would overflow, divide by zero, or index or slice out of range. Casts,
comparisons and the wrapping operations never fail. -/

open kcp_core.protocol kcp_core.config kcp_core.error

namespace kcp_core.engine.checked

open KcpEngine (AckTrack)

def mss (self : KcpEngine) : Option U32 := Checked.sub self.config.mtu constants.IKCP_OVERHEAD

def wnd_unused (self : KcpEngine) : Option U32 :=
  if self.rcv_queue.length < self.wnd.rcv.toNat then
    Checked.sub self.wnd.rcv (BitVec.ofNat 32 self.rcv_queue.length)
  else some 0

def advertised_wnd (self : KcpEngine) : Option U16 := do
  let unused ← wnd_unused self
  return unused.setWidth 16

def reset_cwnd (self : KcpEngine) : Option KcpEngine := do
  let incr ← mss self
  return { self with wnd := { self.wnd with cwnd := 1, incr } }

/-! ### Output -/

def segment_size (segment : KcpSegment) : Option Nat := Checked.add64 KcpHeader.SIZE segment.data.length

def output_segment (self : KcpEngine) (segment : KcpSegment) : Option KcpEngine := do
  let need ← segment_size segment
  let total ← Checked.add64 self.out_buf.length need
  let self :=
    if self.config.mtu.toNat < total ∧ self.out_buf ≠ [] then
      { self with output_queue := self.output_queue ++ [self.out_buf], out_buf := [] }
    else self
  let packets_sent ← Checked.add64 self.stats.packets_sent 1
  return { self with out_buf := segment.encode self.out_buf, stats := { self.stats with packets_sent } }

/-! ### Sending -/

/-- Besides the queue and the count, what is left of `data`. -/
def merge_into_last (mss : Nat) (queue : List KcpSegment) (data : Bytes) :
    Option (List KcpSegment × Nat × Bytes) :=
  match queue.getLast? with
  | none => some (queue, 0, data)
  | some last =>
    let old_len := last.data.length
    if old_len < mss then do
      let capacity ← Checked.sub64 mss old_len
      let extend := min data.length capacity
      let front ← Checked.slice data 0 extend
      let buf := last.data ++ front
      let last := { last with data := buf, header := { last.header with len := BitVec.ofNat 32 buf.length } }
      let data ← Checked.slice data extend data.length
      return (queue.dropLast ++ [last], extend, data)
    else some (queue, 0, data)

def fragment_count (mss len : Nat) : Option Nat := if len ≤ mss then some 1 else Checked.div_ceil64 len mss

def fragment_loop (conv : ConvId) (stream_mode : Bool) (mss count : Nat) (clk : Clock) (data : Bytes) :
    Nat → Nat → Option (List KcpSegment)
  | 0, _ => some []
  | remaining + 1, offset => do
    let i := count - (remaining + 1)
    let left ← Checked.sub64 data.length offset
    let size := min mss left
    let stop ← Checked.add64 offset size
    let fragment ← Checked.slice data offset stop
    let segment := KcpSegment.push conv 0 fragment (clk.hdr i)
    let segment ←
      (if stream_mode then some segment
      else do
        let from_here ← Checked.sub64 count i
        let after ← Checked.sub64 from_here 1
        return { segment with header := { segment.header with frg := BitVec.ofNat 8 after } })
    let offset ← Checked.add64 offset size
    let rest ← fragment_loop conv stream_mode mss count clk data remaining offset
    return segment :: rest

def send (self : KcpEngine) (clk : Clock) (data : Bytes) : Option (KcpEngine × KcpCoreResult Unit) :=
  let self := { self with last_activity := clk.now }
  if data.isEmpty then some (self, .ok ())
  else do
    let mss ← mss self
    let mss := mss.toNat
    let (snd_queue, extend, data) ←
      (if self.config.stream_mode then merge_into_last mss self.snd_queue data else some (self.snd_queue, 0, data))
    let self := { self with snd_queue }
    if data.isEmpty then do
      let bytes_sent ← Checked.add64 self.stats.bytes_sent extend
      return ({ self with stats := { self.stats with bytes_sent } }, .ok ())
    else do
      let count ← fragment_count mss data.length
      let max_frags := KcpEngine.max_frags self.config
      if max_frags < count then
        return (self, .error (.Buffer s!"Message needs {count} fragments, exceeding the {max_frags} the receive window can reassemble"))
      else do
        let fragments ← fragment_loop self.conv self.config.stream_mode mss count clk data count 0
        let bytes_sent ← Checked.add64 self.stats.bytes_sent data.length
        return ({ self with
          snd_queue := self.snd_queue ++ fragments
          stats := { self.stats with bytes_sent } }, .ok ())

/-! ### Receiving -/

/-- The loop adds up from the front, starting at `length`. -/
def message_length : List KcpSegment → Nat → Option Nat
  | [], length => some length
  | segment :: rest, length => do
    let length ← Checked.add64 length segment.data.length
    if segment.header.frg = 0 then some length else message_length rest length

def peek_size (self : KcpEngine) : Option Int :=
  if self.rcv_queue.isEmpty then some (-1)
  else do
    let seg ← self.rcv_queue[0]?
    if seg.header.frg = 0 then some (Word.as_i32 seg.data.length)
    else do
      let needed ← Checked.add64 seg.header.frg.toNat 1
      if self.rcv_queue.length < needed then some (-1)
      else do
        let length ← message_length self.rcv_queue 0
        return Word.as_i32 length

def move_to_recv_queue_loop : Nat → KcpEngine → Option KcpEngine
  | 0, self => some self
  | fuel + 1, self =>
    match self.rcv_buf.lookup self.rcv_nxt with
    | none => some self
    | some segment =>
      if self.wnd.rcv.toNat ≤ self.rcv_queue.length then some self
      else do
        let rcv_nxt ← Checked.add self.rcv_nxt 1
        move_to_recv_queue_loop fuel
          { self with
            rcv_buf := self.rcv_buf.erase self.rcv_nxt
            rcv_queue := self.rcv_queue ++ [segment]
            rcv_nxt }

def move_to_recv_queue (self : KcpEngine) : Option KcpEngine :=
  move_to_recv_queue_loop self.rcv_buf.entries.length self

def parse_data (self : KcpEngine) (newseg : KcpSegment) : Option KcpEngine := do
  let sn := newseg.header.sn
  let limit ← Checked.add self.rcv_nxt self.wnd.rcv
  if !seq_before sn limit || seq_before sn self.rcv_nxt then some self
  else
    let rcv_buf := if sn ∈ self.rcv_buf then self.rcv_buf else self.rcv_buf.insert sn newseg
    move_to_recv_queue { self with rcv_buf }

def recv_loop (peek_size : Nat) : List KcpSegment → Bytes → Option (Bytes × List KcpSegment)
  | [], data => some (data, [])
  | segment :: rest, data => do
    let total ← Checked.add64 data.length segment.data.length
    if peek_size < total then some (data, segment :: rest)
    else
      let data := data ++ segment.data
      if segment.header.frg = 0 then some (data, rest) else recv_loop peek_size rest data

def recv (self : KcpEngine) : Option (KcpEngine × KcpCoreResult (Option Bytes)) :=
  if self.rcv_queue.isEmpty then some (self, .ok none)
  else do
    let peek_size ← peek_size self
    if peek_size ≤ 0 then some (self, .ok none)
    else do
      let recovered := decide (self.wnd.rcv.toNat ≤ self.rcv_queue.length)
      let (data, rcv_queue) ← recv_loop peek_size.toNat self.rcv_queue []
      let self := { self with rcv_queue }
      if data.isEmpty then some (self, .ok none)
      else do
        let bytes_received ← Checked.add64 self.stats.bytes_received data.length
        let self ← move_to_recv_queue { self with stats := { self.stats with bytes_received } }
        let self :=
          if recovered ∧ self.rcv_queue.length < self.wnd.rcv.toNat then
            { self with probe := { self.probe with flags := self.probe.flags ||| constants.IKCP_ASK_TELL } }
          else self
        return (self, .ok (some data))

/-! ### Input -/

def parse_fastack_loop (sn : SeqNum) (ts : Timestamp) : List KcpSegment → Option (List KcpSegment)
  | [] => some []
  | segment :: rest =>
    if !seq_before segment.header.sn sn then some (segment :: rest)
    else do
      let fastack ←
        (if 0 ≤ time_diff ts segment.header.ts then Checked.add segment.fastack 1 else some segment.fastack)
      let rest ← parse_fastack_loop sn ts rest
      return { segment with fastack } :: rest

def parse_fastack (self : KcpEngine) (sn : SeqNum) (ts : Timestamp) : Option KcpEngine :=
  if seq_before sn self.snd_una || !seq_before sn self.snd_nxt then some self
  else do
    let snd_buf ← parse_fastack_loop sn ts self.snd_buf
    return { self with snd_buf }

/-- The smoothed round-trip time and its variance after a sample. -/
def smooth (avg var : U32) (rtt : Int) : Option (U32 × U32) :=
  if avg = 0 then some (BitVec.ofInt 32 rtt, BitVec.ofInt 32 rtt / 2)
  else do
    let delta ← (if avg.toInt < rtt then Checked.sub_i32 rtt avg.toInt else Checked.sub_i32 avg.toInt rtt)
    let scaled ← Checked.mul 3 var
    let sum ← Checked.add scaled (BitVec.ofInt 32 delta)
    let var := sum / 4
    let scaled ← Checked.mul 7 avg
    let sum ← Checked.add scaled (BitVec.ofInt 32 rtt)
    let avg := sum / 8
    return (if avg < 1 then 1 else avg, var)

def update_ack (self : KcpEngine) (rtt : Int) : Option KcpEngine := do
  let rtt := max 0 (min rtt constants.IKCP_RTO_MAX.toInt)
  let (avg, var) ← smooth self.rtt.avg self.rtt.var rtt
  let scaled ← Checked.mul 4 var
  let rto ← Checked.add avg (max self.config.nodelay.interval scaled)
  let rto := Word.clamp rto self.rtt.min_rto constants.IKCP_RTO_MAX
  return { self with
    rtt := { self.rtt with avg, var, rto }
    stats := { self.stats with rtt := avg, rtt_var := var, rto } }

def grow_in_avoidance (mss : U32) (wnd : WindowState) : Option WindowState := do
  let incr := if wnd.incr < mss then mss else wnd.incr
  let square ← Checked.mul mss mss
  let quotient ← Checked.div square incr
  let more ← Checked.add quotient (mss / 16)
  let incr ← Checked.add incr more
  let next ← Checked.add wnd.cwnd 1
  let bytes ← Checked.mul next mss
  if bytes ≤ incr then do
    let cwnd ← (if 0 < mss then Checked.div_ceil incr mss else some 1)
    return { wnd with incr, cwnd }
  else return { wnd with incr }

def slow_start (mss : U32) (wnd : WindowState) : Option WindowState := do
  let cwnd ← Checked.add wnd.cwnd 1
  let incr ← Checked.add wnd.incr mss
  return { wnd with cwnd, incr }

def grow_cwnd (mss : U32) (wnd : WindowState) : Option WindowState := do
  let wnd ← (if wnd.cwnd < wnd.ssthresh then slow_start mss wnd else grow_in_avoidance mss wnd)
  if wnd.rmt < wnd.cwnd then do
    let incr ← Checked.mul wnd.rmt mss
    return { wnd with cwnd := wnd.rmt, incr }
  else return wnd

def update_cwnd (self : KcpEngine) (prev_una : SeqNum) : Option KcpEngine :=
  if seq_after self.snd_una prev_una ∧ self.wnd.cwnd < self.wnd.rmt then do
    let mss ← mss self
    let wnd ← grow_cwnd mss self.wnd
    return { self with wnd }
  else some self

def input_ack (self : KcpEngine) (current : Timestamp) (segment : KcpSegment) : Option KcpEngine := do
  let self ←
    (if 0 ≤ time_diff current segment.header.ts then
      update_ack self (time_diff current segment.header.ts)
    else some self)
  return self.parse_ack segment.header.sn

def input_push (self : KcpEngine) (segment : KcpSegment) : Option KcpEngine := do
  let limit ← Checked.add self.rcv_nxt self.wnd.rcv
  if seq_before segment.header.sn limit then
    let self := self.ack_push segment.header.sn segment.header.ts
    if !seq_before segment.header.sn self.rcv_nxt then parse_data self segment else some self
  else some self

def input_segment (current : Timestamp) (acc : KcpEngine × AckTrack) (segment : KcpSegment) :
    Option (KcpEngine × AckTrack) :=
  let (self, track) := acc
  if segment.header.conv ≠ self.conv then some (self, track)
  else
    let self := { self with wnd := { self.wnd with rmt := segment.header.wnd.setWidth 32 } }
    let self := self.parse_una segment.header.una
    if segment.header.cmd = constants.IKCP_CMD_ACK then do
      let self ← input_ack self current segment
      return (self, track.record segment.header.sn segment.header.ts)
    else if segment.header.cmd = constants.IKCP_CMD_PUSH then do
      let self ← input_push self segment
      return (self, track)
    else if segment.header.cmd = constants.IKCP_CMD_WASK then some (self.input_wask, track)
    else some (self, track)

/-- The inner `none` is where the loop stops. -/
def next_segment (buf : Bytes) : Option (Option (KcpSegment × Bytes)) :=
  match KcpHeader.decode buf with
  | none => some none
  | some (header, _) => do
    let seg_len ← Checked.add64 KcpHeader.SIZE header.len.toNat
    if buf.length < seg_len then some none
    else do
      let front ← Checked.slice buf 0 seg_len
      match KcpSegment.decode front with
      | none => some none
      | some segment => do
        let rest ← Checked.slice buf seg_len buf.length
        return some (segment, rest)

def split_loop : Nat → Bytes → Option (List KcpSegment)
  | 0, _ => some []
  | fuel + 1, buf => do
    match ← next_segment buf with
    | none => some []
    | some (segment, rest) => do
      let segments ← split_loop fuel rest
      return segment :: segments

def split_segments (buf : Bytes) : Option (List KcpSegment) := split_loop buf.length buf

/-- What is left of `input` after the segment loop. -/
def input_finish (self : KcpEngine) (prev_una : SeqNum) (track : AckTrack) : Option KcpEngine := do
  let self := self.shrink_buf
  let self ← (if track.flag then parse_fastack self track.max_ack track.latest_ts else some self)
  let self ← update_cwnd self prev_una
  let packets_received ← Checked.add64 self.stats.packets_received 1
  return { self with stats := { self.stats with packets_received } }

def input (self : KcpEngine) (current : Timestamp) (data : Bytes) : Option (KcpEngine × KcpCoreResult Unit) :=
  let self := { self with last_activity := current }
  if data.length < KcpHeader.SIZE then some (self, .error (.Protocol "Packet too small"))
  else do
    let prev_una := self.snd_una
    let segments ← split_segments data
    let (self, track) ←
      segments.foldlM (input_segment current) (self, { flag := false, max_ack := 0, latest_ts := 0 })
    let self ← input_finish self prev_una track
    return (self, .ok ())

/-! ### Flushing -/

def flush_acks (self : KcpEngine) (clk : Clock) : Option KcpEngine :=
  if self.ack_list.isEmpty then some self
  else do
    let wnd ← advertised_wnd self
    let una := self.rcv_nxt
    let acks := self.ack_list
    acks.foldlM (fun self ack => output_segment self (KcpEngine.ack_segment self.conv wnd una clk.now ack))
      { self with ack_list := [] }

def create_probe_segment (self : KcpEngine) (cmd : U8) (stamp : Timestamp) : Option KcpSegment := do
  let segment := KcpSegment.new self.conv cmd [] stamp
  let wnd ← advertised_wnd self
  return { segment with header := { segment.header with wnd, una := self.rcv_nxt } }

def probe_timer (self : KcpEngine) (current : Timestamp) : Option ProbeState :=
  if self.wnd.rmt = 0 then
    if self.probe.wait = 0 then do
      let wait := constants.IKCP_PROBE_INIT
      let ts ← Checked.add current wait
      return { self.probe with wait, ts }
    else if 0 ≤ time_diff current self.probe.ts then do
      let wait := if self.probe.wait < constants.IKCP_PROBE_INIT then constants.IKCP_PROBE_INIT else self.probe.wait
      let wait ← Checked.add wait (wait / 2)
      let wait := if constants.IKCP_PROBE_LIMIT < wait then constants.IKCP_PROBE_LIMIT else wait
      let ts ← Checked.add current wait
      return { wait, ts, flags := self.probe.flags ||| constants.IKCP_ASK_SEND }
    else some self.probe
  else some { self.probe with ts := 0, wait := 0 }

def handle_window_probe (self : KcpEngine) (clk : Clock) : Option KcpEngine := do
  let probe ← probe_timer self clk.now
  let self := { self with probe }
  let self ←
    (if self.probe.flags &&& constants.IKCP_ASK_SEND ≠ 0 then do
      let segment ← create_probe_segment self constants.IKCP_CMD_WASK (clk.hdr 0)
      output_segment self segment
    else some self)
  let self ←
    (if self.probe.flags &&& constants.IKCP_ASK_TELL ≠ 0 then do
      let segment ← create_probe_segment self constants.IKCP_CMD_WINS (clk.hdr 1)
      output_segment self segment
    else some self)
  return { self with probe := { self.probe with flags := 0 } }

def number_segment (self : KcpEngine) (current : Timestamp) (segment : KcpSegment) : Option KcpSegment := do
  let wnd ← advertised_wnd self
  return { segment with
    header := { segment.header with
      conv := self.conv
      cmd := constants.IKCP_CMD_PUSH
      wnd
      ts := current
      sn := self.snd_nxt
      una := self.rcv_nxt }
    resendts := current
    rto := self.rtt.rto
    fastack := 0
    xmit := 0 }

/-- The window is computed at every turn of the loop, the last one included. -/
def move_to_send_buf_loop (current : Timestamp) (cwnd : U32) : List KcpSegment → KcpEngine → Option KcpEngine
  | [], self => do
    let _ ← Checked.add self.snd_una cwnd
    return { self with snd_queue := [] }
  | segment :: queue, self => do
    let limit ← Checked.add self.snd_una cwnd
    if time_diff self.snd_nxt limit < 0 then do
      let segment ← number_segment self current segment
      let snd_nxt ← Checked.add self.snd_nxt 1
      move_to_send_buf_loop current cwnd queue { self with snd_buf := self.snd_buf ++ [segment], snd_nxt }
    else return { self with snd_queue := segment :: queue }

def move_to_send_buf (self : KcpEngine) (current : Timestamp) : Option KcpEngine :=
  move_to_send_buf_loop current self.effective_wnd self.snd_queue self

def timeout_rto (self : KcpEngine) (segment : KcpSegment) : Option U32 :=
  if self.config.nodelay.nodelay then
    let step := if self.config.nodelay.no_congestion_control then self.rtt.rto else segment.rto
    Checked.add segment.rto (step / 2)
  else Checked.add segment.rto (max segment.rto self.config.nodelay.interval)

/-- One turn of the scan, with the two counters it may count up. -/
def mark_segment (self : KcpEngine) (wnd : U16) (current : Timestamp) (resend rtomin : U32) (stats : KcpStats)
    (segment : KcpSegment) : Option (KcpSegment × KcpStats) :=
  let stamped := { segment with
    header := { segment.header with ts := current, wnd, una := self.rcv_nxt } }
  match KcpEngine.mark_of current resend segment with
  | .first => do
    let due ← Checked.add current self.rtt.rto
    let resendts ← Checked.add due rtomin
    return ({ stamped with xmit := 1, rto := self.rtt.rto, resendts }, stats)
  | .timeout => do
    let xmit ← Checked.add segment.xmit 1
    let retransmissions ← Checked.add64 stats.retransmissions 1
    let rto ← timeout_rto self segment
    let resendts ← Checked.add current rto
    return ({ stamped with xmit, rto, resendts }, { stats with retransmissions })
  | .fast => do
    let xmit ← Checked.add segment.xmit 1
    let resendts ← Checked.add current segment.rto
    let fast_retransmissions ← Checked.add64 stats.fast_retransmissions 1
    return ({ stamped with xmit, fastack := 0, resendts }, { stats with fast_retransmissions })
  | .hold => some (segment, stats)

def mark_loop (self : KcpEngine) (wnd : U16) (current : Timestamp) (resend rtomin : U32) :
    List KcpSegment → KcpStats → Option (List KcpSegment × KcpStats)
  | [], stats => some ([], stats)
  | segment :: rest, stats => do
    let (segment, stats) ← mark_segment self wnd current resend rtomin stats segment
    let (rest, stats) ← mark_loop self wnd current resend rtomin rest stats
    return (segment :: rest, stats)

def mark_segments_for_send (self : KcpEngine) (current : Timestamp) (resend rtomin : U32) :
    Option (KcpEngine × List Nat × Bool × Bool) := do
  let wnd ← advertised_wnd self
  let (snd_buf, stats) ← mark_loop self wnd current resend rtomin self.snd_buf self.stats
  let marks := self.snd_buf.map (KcpEngine.mark_of current resend)
  return ({ self with snd_buf, stats }, KcpEngine.marked_indices current resend 0 self.snd_buf,
    decide (0 < marks.count .timeout), decide (0 < marks.count .fast))

def update_congestion_on_loss (self : KcpEngine) (lost change : Bool) (resend : U32) : Option KcpEngine := do
  let self ←
    (if change then do
      let inflight ← Checked.sub self.snd_nxt self.snd_una
      let ssthresh := inflight / 2
      let ssthresh := if ssthresh < constants.IKCP_THRESH_MIN then constants.IKCP_THRESH_MIN else ssthresh
      let cwnd ← Checked.add ssthresh resend
      let mss ← mss self
      let incr ← Checked.mul cwnd mss
      return { self with wnd := { self.wnd with ssthresh, cwnd, incr } }
    else some self)
  let self ←
    (if lost then
      reset_cwnd { self with wnd := { self.wnd with ssthresh := max (self.wnd.cwnd / 2) constants.IKCP_THRESH_MIN } }
    else some self)
  if self.wnd.cwnd < 1 then reset_cwnd self else some self

def emit_loop : List Nat → KcpEngine → Option (KcpEngine × KcpCoreResult Unit)
  | [], self => some (self, .ok ())
  | i :: rest, self => do
    let segment ← self.snd_buf[i]?
    let is_dead := decide (self.dead_link ≤ segment.xmit)
    let self ← output_segment self segment
    if is_dead then return (self, .error .ConnectionLost) else emit_loop rest self

def flush_data_segments (self : KcpEngine) (current : Timestamp) : Option (KcpEngine × KcpCoreResult Unit) := do
  let resend := self.resend_threshold
  let (self, send_indices, lost, change) ← mark_segments_for_send self current resend self.rto_margin
  match ← emit_loop send_indices self with
  | (self, .error err) => return (self, .error err)
  | (self, .ok ()) => do
    let self ← update_congestion_on_loss self lost change resend
    return (self, .ok ())

def flush (self : KcpEngine) (clk : Clock) : Option (KcpEngine × KcpCoreResult Unit) := do
  let self ← flush_acks self clk
  let self ← handle_window_probe self clk
  let self ← move_to_send_buf self clk.now
  match ← flush_data_segments self clk.now with
  | (self, .error err) => return (self, .error err)
  | (self, .ok ()) => return (self.flush_out_buf.update_congestion_control, .ok ())

def keep_alive_probe (self : KcpEngine) (clk : Clock) : Option (KcpEngine × KcpCoreResult Unit) :=
  flush { self with probe := { self.probe with flags := self.probe.flags ||| constants.IKCP_ASK_SEND } } clk

def update (self : KcpEngine) (now : Timestamp) (clk : Clock) : Option (KcpEngine × KcpCoreResult Unit) := do
  let self := if now < self.last_update then { self with last_update := now } else self
  let diff ← Checked.sub now self.last_update
  if self.config.nodelay.interval ≤ diff then flush { self with last_update := now } clk
  else some (self, .ok ())

/-! ### Runs -/

def step (self : KcpEngine) : Op → Option KcpEngine
  | .send clk data => (send self clk data).map Prod.fst
  | .recv => (recv self).map Prod.fst
  | .input now data => (input self now data).map Prod.fst
  | .flush clk => (flush self clk).map Prod.fst
  | .update now clk => (update self now clk).map Prod.fst
  | .keep_alive_probe clk => (keep_alive_probe self clk).map Prod.fst
  | .drain_output => some self.drain_output.1
  | .set_conv conv => some (self.set_conv conv)

/-- The state after the calls `ops`, unless one of them panics. -/
def reached (start : Start) (ops : List Op) : Option KcpEngine := ops.foldlM step start.fresh

end kcp_core.engine.checked
