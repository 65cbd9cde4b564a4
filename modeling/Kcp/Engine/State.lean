import Mathlib.Data.List.AList
import Kcp.Config
import Kcp.Error

open kcp_core.protocol kcp_core.config kcp_core.error

namespace kcp_core.engine

structure RttState where
  avg : U32
  var : U32
  rto : U32
  min_rto : U32
  deriving DecidableEq, Repr

structure WindowState where
  snd : U32
  rcv : U32
  rmt : U32
  cwnd : U32
  ssthresh : U32
  incr : U32
  deriving DecidableEq, Repr

structure ProbeState where
  flags : U32
  wait : U32
  ts : Timestamp
  deriving DecidableEq, Repr

/-- The reorder buffer, a map from sequence number to segment. -/
abbrev RecvBuf := AList (fun _ : SeqNum => KcpSegment)

structure KcpEngine where
  conv : ConvId
  config : KcpCoreConfig
  snd_una : SeqNum
  snd_nxt : SeqNum
  rcv_nxt : SeqNum
  rtt : RttState
  wnd : WindowState
  probe : ProbeState
  snd_queue : List KcpSegment
  rcv_queue : List KcpSegment
  snd_buf : List KcpSegment
  rcv_buf : RecvBuf
  ack_list : List (SeqNum × Timestamp)
  output_queue : List Bytes
  out_buf : Bytes
  stats : KcpStats
  last_update : Timestamp
  last_activity : Timestamp
  dead_link : U32

namespace KcpEngine

/-- A new engine. The two readings are the ones stored as the last update and the
last activity. -/
def new (conv : ConvId) (config : KcpCoreConfig) (updated active : Timestamp) : KcpEngine :=
  let config := { config with mtu := max config.mtu (constants.IKCP_OVERHEAD + 1) }
  let min_rto := if config.nodelay.nodelay then constants.IKCP_RTO_NDL else constants.IKCP_RTO_MIN
  { conv
    snd_una := 0
    snd_nxt := 0
    rcv_nxt := 0
    rtt := { avg := 0, var := 0, rto := constants.IKCP_RTO_DEF, min_rto }
    wnd := {
      snd := config.snd_wnd
      rcv := config.rcv_wnd
      rmt := constants.IKCP_WND_RCV
      cwnd := config.snd_wnd
      ssthresh := constants.IKCP_THRESH_INIT
      incr := 0 }
    probe := { flags := 0, wait := 0, ts := 0 }
    snd_queue := []
    rcv_queue := []
    snd_buf := []
    rcv_buf := ∅
    ack_list := []
    output_queue := []
    out_buf := []
    stats := {}
    last_update := updated
    last_activity := active
    dead_link := config.max_retries
    config }

def set_conv (self : KcpEngine) (conv : ConvId) : KcpEngine := { self with conv }

def drain_output (self : KcpEngine) : KcpEngine × List Bytes :=
  ({ self with output_queue := [] }, self.output_queue)

def is_dead (self : KcpEngine) : Bool := self.snd_buf.any fun seg => decide (self.dead_link ≤ seg.xmit)

def send_queue_len (self : KcpEngine) : Nat := self.snd_queue.length

def has_unsent_data (self : KcpEngine) : Bool := !self.snd_queue.isEmpty || !self.snd_buf.isEmpty

def idle_ms (self : KcpEngine) (now : Timestamp) : U32 :=
  if self.last_activity ≤ now then now - self.last_activity else 0

/-- The receive window still free. The difference cannot wrap under the test. -/
def wnd_unused (self : KcpEngine) : U32 :=
  if self.rcv_queue.length < self.wnd.rcv.toNat then
    self.wnd.rcv - BitVec.ofNat 32 self.rcv_queue.length
  else 0

def mss (self : KcpEngine) : U32 := self.config.mtu - constants.IKCP_OVERHEAD

def reset_cwnd (self : KcpEngine) : KcpEngine :=
  { self with wnd := { self.wnd with cwnd := 1, incr := self.mss } }

/-- `as u16` keeps the low half of the window. -/
def advertised_wnd (self : KcpEngine) : U16 := self.wnd_unused.setWidth 16

def create_probe_segment (self : KcpEngine) (cmd : U8) (stamp : Timestamp) : KcpSegment :=
  let segment := KcpSegment.new self.conv cmd [] stamp
  { segment with header := { segment.header with wnd := self.advertised_wnd, una := self.rcv_nxt } }

/-- Append a segment to the datagram being packed, closing the datagram first if
the segment would take it past the MTU. The source returns `Ok` on every path. -/
def output_segment (self : KcpEngine) (segment : KcpSegment) : KcpEngine :=
  let need := segment.size
  let self :=
    if self.config.mtu.toNat < self.out_buf.length + need ∧ self.out_buf ≠ [] then
      { self with output_queue := self.output_queue ++ [self.out_buf], out_buf := [] }
    else self
  { self with
    out_buf := segment.encode self.out_buf
    stats := { self.stats with packets_sent := self.stats.packets_sent + 1 } }

def flush_out_buf (self : KcpEngine) : KcpEngine :=
  if self.out_buf ≠ [] then
    { self with output_queue := self.output_queue ++ [self.out_buf], out_buf := [] }
  else self

end KcpEngine

end kcp_core.engine
