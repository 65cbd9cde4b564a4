import Kcp.BinarySearch
import Kcp.Engine.Recv

open kcp_core.protocol kcp_core.config kcp_core.error

namespace kcp_core.engine.KcpEngine

def parse_una (self : KcpEngine) (una : SeqNum) : KcpEngine :=
  { self with snd_buf := self.snd_buf.dropWhile fun segment => seq_before segment.header.sn una }

def parse_ack (self : KcpEngine) (sn : SeqNum) : KcpEngine :=
  if seq_before sn self.snd_una || !seq_before sn self.snd_nxt then self
  else
    match BinarySearch.binary_search_by self.snd_buf (fun s => compare (time_diff s.header.sn sn) 0) with
    | some pos => { self with snd_buf := self.snd_buf.eraseIdx pos }
    | none => self

def parse_fastack_loop (sn : SeqNum) (ts : Timestamp) : List KcpSegment → List KcpSegment
  | [] => []
  | segment :: rest =>
    if !seq_before segment.header.sn sn then segment :: rest
    else
      let segment :=
        if 0 ≤ time_diff ts segment.header.ts then { segment with fastack := segment.fastack + 1 } else segment
      segment :: parse_fastack_loop sn ts rest

def parse_fastack (self : KcpEngine) (sn : SeqNum) (ts : Timestamp) : KcpEngine :=
  if seq_before sn self.snd_una || !seq_before sn self.snd_nxt then self
  else { self with snd_buf := parse_fastack_loop sn ts self.snd_buf }

def update_ack (self : KcpEngine) (rtt : Int) : KcpEngine :=
  let rtt := max 0 (min rtt constants.IKCP_RTO_MAX.toInt)
  let (avg, var) :=
    if self.rtt.avg = 0 then (BitVec.ofInt 32 rtt, BitVec.ofInt 32 rtt / 2)
    else
      let delta := if self.rtt.avg.toInt < rtt then rtt - self.rtt.avg.toInt else self.rtt.avg.toInt - rtt
      let var := (3 * self.rtt.var + BitVec.ofInt 32 delta) / 4
      let avg := (7 * self.rtt.avg + BitVec.ofInt 32 rtt) / 8
      (if avg < 1 then 1 else avg, var)
  let rto := avg + max self.config.nodelay.interval (4 * var)
  let rto := Word.clamp rto self.rtt.min_rto constants.IKCP_RTO_MAX
  { self with
    rtt := { self.rtt with avg, var, rto }
    stats := { self.stats with rtt := avg, rtt_var := var, rto } }

def shrink_buf (self : KcpEngine) : KcpEngine :=
  match self.snd_buf with
  | segment :: _ => { self with snd_una := segment.header.sn }
  | [] => { self with snd_una := self.snd_nxt }

/-- The congestion-avoidance branch of `update_cwnd`: `incr` creeps up by about one
segment per window, and the window follows it. -/
def grow_in_avoidance (mss : U32) (wnd : WindowState) : WindowState :=
  let incr := if wnd.incr < mss then mss else wnd.incr
  let incr := incr + (mss * mss / incr + mss / 16)
  if (wnd.cwnd + 1) * mss ≤ incr then
    { wnd with incr, cwnd := if 0 < mss then Word.div_ceil incr mss else 1 }
  else { wnd with incr }

def grow_cwnd (mss : U32) (wnd : WindowState) : WindowState :=
  let wnd :=
    if wnd.cwnd < wnd.ssthresh then { wnd with cwnd := wnd.cwnd + 1, incr := wnd.incr + mss }
    else grow_in_avoidance mss wnd
  if wnd.rmt < wnd.cwnd then { wnd with cwnd := wnd.rmt, incr := wnd.rmt * mss } else wnd

def update_cwnd (self : KcpEngine) (prev_una : SeqNum) : KcpEngine :=
  if seq_after self.snd_una prev_una ∧ self.wnd.cwnd < self.wnd.rmt then
    { self with wnd := grow_cwnd self.mss self.wnd }
  else self

/-- What the segment loop carries besides the engine: whether an ACK was seen, and
the number and timestamp of the newest one. -/
structure AckTrack where
  flag : Bool
  max_ack : SeqNum
  latest_ts : Timestamp

def AckTrack.record (self : AckTrack) (sn : SeqNum) (ts : Timestamp) : AckTrack :=
  if !self.flag then { flag := true, max_ack := sn, latest_ts := ts }
  else if seq_after sn self.max_ack ∧ 0 < time_diff ts self.latest_ts then
    { self with max_ack := sn, latest_ts := ts }
  else self

def input_ack (self : KcpEngine) (current : Timestamp) (segment : KcpSegment) : KcpEngine :=
  let self :=
    if 0 ≤ time_diff current segment.header.ts then
      self.update_ack (time_diff current segment.header.ts)
    else self
  self.parse_ack segment.header.sn

def input_push (self : KcpEngine) (segment : KcpSegment) : KcpEngine :=
  if seq_before segment.header.sn (self.rcv_nxt + self.wnd.rcv) then
    let self := self.ack_push segment.header.sn segment.header.ts
    if !seq_before segment.header.sn self.rcv_nxt then self.parse_data segment else self
  else self

def input_wask (self : KcpEngine) : KcpEngine :=
  { self with probe := { self.probe with flags := self.probe.flags ||| constants.IKCP_ASK_TELL } }

/-- The body of the segment loop, for one segment split off the datagram. -/
def input_segment (current : Timestamp) (acc : KcpEngine × AckTrack) (segment : KcpSegment) :
    KcpEngine × AckTrack :=
  let (self, track) := acc
  if segment.header.conv ≠ self.conv then (self, track)
  else
    let self := { self with wnd := { self.wnd with rmt := segment.header.wnd.setWidth 32 } }
    let self := self.parse_una segment.header.una
    if segment.header.cmd = constants.IKCP_CMD_ACK then
      (self.input_ack current segment, track.record segment.header.sn segment.header.ts)
    else if segment.header.cmd = constants.IKCP_CMD_PUSH then (self.input_push segment, track)
    else if segment.header.cmd = constants.IKCP_CMD_WASK then (self.input_wask, track)
    else (self, track)

/-- The next segment of a datagram and the rest, or nothing where the loop stops. -/
def next_segment (buf : Bytes) : Option (KcpSegment × Bytes) :=
  match KcpHeader.decode buf with
  | none => none
  | some (header, _) =>
    let seg_len := KcpHeader.SIZE + header.len.toNat
    if buf.length < seg_len then none
    else
      match KcpSegment.decode (buf.take seg_len) with
      | none => none
      | some segment => some (segment, buf.drop seg_len)

/-- The segments the loop splits off, in order. Splitting never looks at the engine,
so the loop is this list with `input_segment` folded over it. Every segment takes at
least a header, so the length of the buffer is fuel enough. -/
def split_loop : Nat → Bytes → List KcpSegment
  | 0, _ => []
  | fuel + 1, buf =>
    match next_segment buf with
    | none => []
    | some (segment, rest) => segment :: split_loop fuel rest

def split_segments (buf : Bytes) : List KcpSegment := split_loop buf.length buf

def input (self : KcpEngine) (current : Timestamp) (data : Bytes) : KcpEngine × KcpCoreResult Unit :=
  let self := { self with last_activity := current }
  if data.length < KcpHeader.SIZE then (self, .error (.Protocol "Packet too small"))
  else
    let prev_una := self.snd_una
    let (self, track) :=
      (split_segments data).foldl (input_segment current) (self, { flag := false, max_ack := 0, latest_ts := 0 })
    let self := self.shrink_buf
    let self := if track.flag then self.parse_fastack track.max_ack track.latest_ts else self
    let self := self.update_cwnd prev_una
    ({ self with stats := { self.stats with packets_received := self.stats.packets_received + 1 } }, .ok ())

end kcp_core.engine.KcpEngine
