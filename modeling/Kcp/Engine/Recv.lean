import Kcp.Engine.State

open kcp_core.protocol kcp_core.config kcp_core.error

namespace kcp_core.engine.KcpEngine

/-- Total payload up to and including the first segment with `frg = 0`. -/
def message_length : List KcpSegment → Nat
  | [] => 0
  | segment :: rest =>
    if segment.header.frg = 0 then segment.data.length
    else segment.data.length + message_length rest

def peek_size (self : KcpEngine) : Int :=
  match self.rcv_queue with
  | [] => -1
  | seg :: _ =>
    if seg.header.frg = 0 then Word.as_i32 seg.data.length
    else if self.rcv_queue.length < seg.header.frg.toNat + 1 then -1
    else Word.as_i32 (message_length self.rcv_queue)

/-- One turn of the loop below is taken per entry of the reorder buffer, so as much
fuel as there are entries never runs out. -/
def move_to_recv_queue_loop : Nat → KcpEngine → KcpEngine
  | 0, self => self
  | fuel + 1, self =>
    match self.rcv_buf.lookup self.rcv_nxt with
    | none => self
    | some segment =>
      -- the source removes the entry and puts it back when the queue is full
      if self.wnd.rcv.toNat ≤ self.rcv_queue.length then self
      else
        move_to_recv_queue_loop fuel
          { self with
            rcv_buf := self.rcv_buf.erase self.rcv_nxt
            rcv_queue := self.rcv_queue ++ [segment]
            rcv_nxt := self.rcv_nxt + 1 }

def move_to_recv_queue (self : KcpEngine) : KcpEngine :=
  move_to_recv_queue_loop self.rcv_buf.entries.length self

def parse_data (self : KcpEngine) (newseg : KcpSegment) : KcpEngine :=
  let sn := newseg.header.sn
  if !seq_before sn (self.rcv_nxt + self.wnd.rcv) || seq_before sn self.rcv_nxt then self
  else
    let rcv_buf := if sn ∈ self.rcv_buf then self.rcv_buf else self.rcv_buf.insert sn newseg
    move_to_recv_queue { self with rcv_buf }

def ack_push (self : KcpEngine) (sn : SeqNum) (ts : Timestamp) : KcpEngine :=
  { self with ack_list := self.ack_list ++ [(sn, ts)] }

/-- Pop segments off the queue into `data` while they fit `peek_size`, up to and
including the first with `frg = 0`. Returns the data and the rest of the queue. -/
def recv_loop (peek_size : Nat) : List KcpSegment → Bytes → Bytes × List KcpSegment
  | [], data => (data, [])
  | segment :: rest, data =>
    if peek_size < data.length + segment.data.length then (data, segment :: rest)
    else
      let data := data ++ segment.data
      if segment.header.frg = 0 then (data, rest) else recv_loop peek_size rest data

def recv (self : KcpEngine) : KcpEngine × KcpCoreResult (Option Bytes) :=
  if self.rcv_queue.isEmpty then (self, .ok none)
  else
    let peek_size := self.peek_size
    if peek_size ≤ 0 then (self, .ok none)
    else
      let recovered := decide (self.wnd.rcv.toNat ≤ self.rcv_queue.length)
      let (data, rcv_queue) := recv_loop peek_size.toNat self.rcv_queue []
      let self := { self with rcv_queue }
      if data.isEmpty then (self, .ok none)
      else
        let self :=
          { self with stats := { self.stats with bytes_received := self.stats.bytes_received + data.length } }
        let self := self.move_to_recv_queue
        let self :=
          if recovered ∧ self.rcv_queue.length < self.wnd.rcv.toNat then
            { self with probe := { self.probe with flags := self.probe.flags ||| constants.IKCP_ASK_TELL } }
          else self
        (self, .ok (some data))

end kcp_core.engine.KcpEngine
