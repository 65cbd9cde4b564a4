import Kcp.Engine.State

open kcp_core.protocol kcp_core.config kcp_core.error

namespace kcp_core.engine.KcpEngine

/-- The ACK segment for one entry of the ACK list. Its own clock reading is
overwritten by the echoed timestamp. -/
def ack_segment (conv : ConvId) (wnd : U16) (una : SeqNum) (stamp : Timestamp) (ack : SeqNum × Timestamp) :
    KcpSegment :=
  let seg := KcpSegment.ack conv ack.1 ack.2 stamp
  { seg with header := { seg.header with wnd, una } }

def flush_acks (self : KcpEngine) (clk : Clock) : KcpEngine :=
  if self.ack_list.isEmpty then self
  else
    let wnd := self.advertised_wnd
    let una := self.rcv_nxt
    let acks := self.ack_list
    acks.foldl (fun self ack => self.output_segment (ack_segment self.conv wnd una clk.now ack))
      { self with ack_list := [] }

/-- The probe timer: armed when the remote window closes, backed off at each expiry. -/
def probe_timer (self : KcpEngine) (current : Timestamp) : ProbeState :=
  if self.wnd.rmt = 0 then
    if self.probe.wait = 0 then
      let wait := constants.IKCP_PROBE_INIT
      { self.probe with wait, ts := current + wait }
    else if 0 ≤ time_diff current self.probe.ts then
      let wait := if self.probe.wait < constants.IKCP_PROBE_INIT then constants.IKCP_PROBE_INIT else self.probe.wait
      let wait := wait + wait / 2
      let wait := if constants.IKCP_PROBE_LIMIT < wait then constants.IKCP_PROBE_LIMIT else wait
      { wait, ts := current + wait, flags := self.probe.flags ||| constants.IKCP_ASK_SEND }
    else self.probe
  else { self.probe with ts := 0, wait := 0 }

def handle_window_probe (self : KcpEngine) (clk : Clock) : KcpEngine :=
  let self := { self with probe := self.probe_timer clk.now }
  let self :=
    if self.probe.flags &&& constants.IKCP_ASK_SEND ≠ 0 then
      self.output_segment (self.create_probe_segment constants.IKCP_CMD_WASK (clk.hdr 0))
    else self
  let self :=
    if self.probe.flags &&& constants.IKCP_ASK_TELL ≠ 0 then
      self.output_segment (self.create_probe_segment constants.IKCP_CMD_WINS (clk.hdr 1))
    else self
  { self with probe := { self.probe with flags := 0 } }

/-- How many unacknowledged segments may be in flight. -/
def effective_wnd (self : KcpEngine) : U32 :=
  let cwnd := min self.wnd.snd self.wnd.rmt
  if self.config.nodelay.no_congestion_control then cwnd else min self.wnd.cwnd cwnd

/-- The first queued segment as it enters the send buffer. -/
def number_segment (self : KcpEngine) (current : Timestamp) (segment : KcpSegment) : KcpSegment :=
  { segment with
    header := { segment.header with
      conv := self.conv
      cmd := constants.IKCP_CMD_PUSH
      wnd := self.advertised_wnd
      ts := current
      sn := self.snd_nxt
      una := self.rcv_nxt }
    resendts := current
    rto := self.rtt.rto
    fastack := 0
    xmit := 0 }

/-- The loop takes the queue apart from the front, and leaves what the window holds back. -/
def move_to_send_buf_loop (current : Timestamp) (cwnd : U32) : List KcpSegment → KcpEngine → KcpEngine
  | [], self => { self with snd_queue := [] }
  | segment :: queue, self =>
    if time_diff self.snd_nxt (self.snd_una + cwnd) < 0 then
      move_to_send_buf_loop current cwnd queue
        { self with
          snd_buf := self.snd_buf ++ [self.number_segment current segment]
          snd_nxt := self.snd_nxt + 1 }
    else { self with snd_queue := segment :: queue }

def move_to_send_buf (self : KcpEngine) (current : Timestamp) : KcpEngine :=
  move_to_send_buf_loop current self.effective_wnd self.snd_queue self

/-- Why the scan picks a segment for sending, if it does. -/
inductive Mark where
  | hold
  | first
  | timeout
  | fast
  deriving DecidableEq, Repr

/-- The branch of the scan a segment takes. `IKCP_FASTACK_LIMIT` is not zero, so its
second test never decides. -/
def mark_of (current : Timestamp) (resend : U32) (segment : KcpSegment) : Mark :=
  if segment.xmit = 0 then .first
  else if 0 ≤ time_diff current segment.resendts then .timeout
  else if resend ≤ segment.fastack ∧
      (segment.xmit ≤ constants.IKCP_FASTACK_LIMIT ∨ constants.IKCP_FASTACK_LIMIT = 0) then .fast
  else .hold

def timeout_rto (self : KcpEngine) (segment : KcpSegment) : U32 :=
  if self.config.nodelay.nodelay then
    let step := if self.config.nodelay.no_congestion_control then self.rtt.rto else segment.rto
    segment.rto + step / 2
  else segment.rto + max segment.rto self.config.nodelay.interval

/-- The segment after the scan has passed it. -/
def mark_segment (self : KcpEngine) (current : Timestamp) (resend rtomin : U32) (segment : KcpSegment) :
    KcpSegment :=
  let stamped := { segment with
    header := { segment.header with ts := current, wnd := self.advertised_wnd, una := self.rcv_nxt } }
  match mark_of current resend segment with
  | .first => { stamped with xmit := 1, rto := self.rtt.rto, resendts := current + self.rtt.rto + rtomin }
  | .timeout =>
    let rto := self.timeout_rto segment
    { stamped with xmit := segment.xmit + 1, rto, resendts := current + rto }
  | .fast => { stamped with xmit := segment.xmit + 1, fastack := 0, resendts := current + segment.rto }
  | .hold => segment

/-- The positions the scan picks, counted from `i`. -/
def marked_indices (current : Timestamp) (resend : U32) : Nat → List KcpSegment → List Nat
  | _, [] => []
  | i, segment :: rest =>
    if mark_of current resend segment = .hold then marked_indices current resend (i + 1) rest
    else i :: marked_indices current resend (i + 1) rest

def mark_segments_for_send (self : KcpEngine) (current : Timestamp) (resend rtomin : U32) :
    KcpEngine × List Nat × Bool × Bool :=
  let marks := self.snd_buf.map (mark_of current resend)
  let timeouts := marks.count .timeout
  let fasts := marks.count .fast
  ({ self with
      snd_buf := self.snd_buf.map (self.mark_segment current resend rtomin)
      stats := { self.stats with
        retransmissions := self.stats.retransmissions + timeouts
        fast_retransmissions := self.stats.fast_retransmissions + fasts } },
    marked_indices current resend 0 self.snd_buf, decide (0 < timeouts), decide (0 < fasts))

def update_congestion_on_loss (self : KcpEngine) (lost change : Bool) (resend : U32) : KcpEngine :=
  let self :=
    if change then
      let inflight := self.snd_nxt - self.snd_una
      let ssthresh := inflight / 2
      let ssthresh := if ssthresh < constants.IKCP_THRESH_MIN then constants.IKCP_THRESH_MIN else ssthresh
      let cwnd := ssthresh + resend
      { self with wnd := { self.wnd with ssthresh, cwnd, incr := cwnd * self.mss } }
    else self
  let self :=
    if lost then
      reset_cwnd { self with wnd := { self.wnd with ssthresh := max (self.wnd.cwnd / 2) constants.IKCP_THRESH_MIN } }
    else self
  if self.wnd.cwnd < 1 then self.reset_cwnd else self

/-- Emit the picked segments in order, stopping with an error at the first whose
transmission count has reached the dead-link threshold. -/
def emit_loop : List Nat → KcpEngine → KcpEngine × KcpCoreResult Unit
  | [], self => (self, .ok ())
  | i :: rest, self =>
    match self.snd_buf[i]? with
    | none => (self, .ok ())
    | some segment =>
      let is_dead := decide (self.dead_link ≤ segment.xmit)
      let self := self.output_segment segment
      if is_dead then (self, .error .ConnectionLost) else emit_loop rest self

def resend_threshold (self : KcpEngine) : U32 :=
  if 0 < self.config.nodelay.resend then self.config.nodelay.resend else 0xFFFFFFFF

def rto_margin (self : KcpEngine) : U32 := if self.config.nodelay.nodelay then 0 else self.rtt.rto / 8

def flush_data_segments (self : KcpEngine) (current : Timestamp) : KcpEngine × KcpCoreResult Unit :=
  let resend := self.resend_threshold
  let (self, send_indices, lost, change) := self.mark_segments_for_send current resend self.rto_margin
  match emit_loop send_indices self with
  | (self, .error err) => (self, .error err)
  | (self, .ok ()) => (self.update_congestion_on_loss lost change resend, .ok ())

def update_congestion_control (self : KcpEngine) : KcpEngine :=
  { self with stats := { self.stats with
    snd_wnd := self.wnd.snd
    rcv_wnd := self.wnd.rcv
    cwnd := self.wnd.cwnd
    snd_buf_size := BitVec.ofNat 32 self.snd_buf.length
    rcv_buf_size := BitVec.ofNat 32 self.rcv_buf.entries.length } }

def flush (self : KcpEngine) (clk : Clock) : KcpEngine × KcpCoreResult Unit :=
  let self := self.flush_acks clk
  let self := self.handle_window_probe clk
  let self := self.move_to_send_buf clk.now
  match self.flush_data_segments clk.now with
  | (self, .error err) => (self, .error err)
  | (self, .ok ()) => (self.flush_out_buf.update_congestion_control, .ok ())

def keep_alive_probe (self : KcpEngine) (clk : Clock) : KcpEngine × KcpCoreResult Unit :=
  flush { self with probe := { self.probe with flags := self.probe.flags ||| constants.IKCP_ASK_SEND } } clk

/-- `now` is the reading `update` gates on, `clk` the readings of the flush it may run. -/
def update (self : KcpEngine) (now : Timestamp) (clk : Clock) : KcpEngine × KcpCoreResult Unit :=
  let self := if now < self.last_update then { self with last_update := now } else self
  let diff := now - self.last_update
  if self.config.nodelay.interval ≤ diff then flush { self with last_update := now } clk
  else (self, .ok ())

/-- The soonest deadline over the send buffer and an armed probe timer, or the
largest word when nothing is scheduled. -/
def next_deadline (self : KcpEngine) (current : Timestamp) : U32 :=
  let next := self.snd_buf.foldl
    (fun next seg => min next (BitVec.ofInt 32 (max (time_diff seg.resendts current) 0))) 0xFFFFFFFF
  if self.wnd.rmt = 0 ∧ self.probe.ts ≠ 0 then
    min next (BitVec.ofInt 32 (max (time_diff self.probe.ts current) 0))
  else next

def check (self : KcpEngine) (current : Timestamp) : U32 :=
  if self.ack_list ≠ [] ∨ self.probe.flags ≠ 0 then 0
  else
    let next := self.next_deadline current
    if next = 0xFFFFFFFF then 30000 else next

end kcp_core.engine.KcpEngine
