import Kcp.Engine.State

open kcp_core.protocol kcp_core.config kcp_core.error

namespace kcp_core.engine.KcpEngine

/-- Stream mode: fill up the last queued segment. Returns the queue and how many
bytes of `data` went into it. -/
def merge_into_last (mss : Nat) (queue : List KcpSegment) (data : Bytes) : List KcpSegment × Nat :=
  match queue.getLast? with
  | none => (queue, 0)
  | some last =>
    let old_len := last.data.length
    if old_len < mss then
      let capacity := mss - old_len
      let extend := min data.length capacity
      let buf := last.data ++ data.take extend
      let last := { last with data := buf, header := { last.header with len := BitVec.ofNat 32 buf.length } }
      (queue.dropLast ++ [last], extend)
    else (queue, 0)

/-- The last `remaining` fragments of `data`, of `count` in all; the first of them
starts at `offset`. In message mode a fragment carries how many follow it. -/
def fragment_loop (conv : ConvId) (stream_mode : Bool) (mss count : Nat) (clk : Clock) (data : Bytes) :
    Nat → Nat → List KcpSegment
  | 0, _ => []
  | remaining + 1, offset =>
    let i := count - (remaining + 1)
    let size := min mss (data.length - offset)
    let fragment := (data.drop offset).take size
    let segment := KcpSegment.push conv 0 fragment (clk.hdr i)
    let segment :=
      if stream_mode then segment
      else { segment with header := { segment.header with frg := BitVec.ofNat 8 (count - i - 1) } }
    segment :: fragment_loop conv stream_mode mss count clk data remaining (offset + size)

def fragment_count (mss len : Nat) : Nat := if len ≤ mss then 1 else (len + mss - 1) / mss

def max_frags (config : KcpCoreConfig) : Nat := (min config.rcv_wnd constants.IKCP_WND_RCV).toNat

def send (self : KcpEngine) (clk : Clock) (data : Bytes) : KcpEngine × KcpCoreResult Unit :=
  let self := { self with last_activity := clk.now }
  if data.isEmpty then (self, .ok ())
  else
    let mss := self.mss.toNat
    let (snd_queue, extend) :=
      if self.config.stream_mode then merge_into_last mss self.snd_queue data else (self.snd_queue, 0)
    let self := { self with snd_queue }
    let data := data.drop extend
    if data.isEmpty then
      ({ self with stats := { self.stats with bytes_sent := self.stats.bytes_sent + extend } }, .ok ())
    else
      let count := fragment_count mss data.length
      let max_frags := max_frags self.config
      if max_frags < count then
        (self, .error (.Buffer s!"Message needs {count} fragments, exceeding the {max_frags} the receive window can reassemble"))
      else
        let fragments := fragment_loop self.conv self.config.stream_mode mss count clk data count 0
        ({ self with
            snd_queue := self.snd_queue ++ fragments
            stats := { self.stats with bytes_sent := self.stats.bytes_sent + data.length } }, .ok ())

end kcp_core.engine.KcpEngine
