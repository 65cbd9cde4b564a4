import Kcp.Engine.Queueing
import Kcp.Stream.Write

/-! Writing whole messages with `send`, beside `poll_write`. -/

open Mpsc kcp_core.protocol kcp_core.error kcp_core.engine kcp_tokio.error

namespace kcp_tokio.stream

/-- A stream with the limit that `send` checks. -/
structure MessageStream extends KcpStream where
  max_msg : Nat

namespace MessageStream

def new (config : config.KcpConfig) : MessageStream :=
  { KcpStream.new config with max_msg := (KcpStream.new config).mss * (min config.rcv_wnd constants.IKCP_WND_RCV).toNat }

/-- One poll of the future of `send`. Until it is ready, `closed` cannot change under it, and
the next poll finds what this one found. -/
def send (self : MessageStream) (data : Bytes) (spent : Bool) : MessageStream × Poll (Except KcpError Unit) :=
  if self.closed then (self, .ready (.error (.Connection .Closed)))
  else if self.max_msg < data.length then
    (self, .ready (.error (.Buffer
      s!"message of {data.length} bytes exceeds max {self.max_msg} for one send; use AsyncWrite for streaming")))
  else if spent then (self, .pending)
  else
    match self.send_tx.try_send data with
    | .ok send_tx => ({ self with send_tx }, .ready (.ok ()))
    | .error .closed => (self, .ready (.error (.Connection .Closed)))
    | .error .full => (self, .pending)

/-- One poll of `send` places the data in the channel of the open stream and succeeds, or leaves
the stream as it is. -/
theorem send_cases (self : MessageStream) (data : Bytes) (spent : Bool) :
    (∃ hroom : self.send_tx.HasRoom, self.closed = false ∧ data.length ≤ self.max_msg ∧
        self.send data spent = ({ self with send_tx := self.send_tx.push hroom data }, .ready (.ok ()))) ∨
      (self.send data spent).1 = self ∧ (self.send data spent).2 ≠ .ready (.ok ()) := by
  unfold send
  split_ifs with hclosed hlong hspent
  · exact .inr ⟨rfl, fun h => by cases h⟩
  · exact .inr ⟨rfl, fun h => by cases h⟩
  · exact .inr ⟨rfl, fun h => by cases h⟩
  · by_cases hroom : self.send_tx.HasRoom
    · rw [Channel.try_send_of_room hroom]
      exact .inl ⟨hroom, Bool.eq_false_iff.mpr hclosed, Nat.not_lt.mp hlong, rfl⟩
    · rw [Channel.try_send_of_full hroom]
      refine .inr ?_
      split_ifs <;> exact ⟨rfl, fun h => by cases h⟩

/-- To send reads nothing. -/
theorem send_data_rx (self : MessageStream) (data : Bytes) (spent : Bool) :
    (self.send data spent).1.data_rx = self.data_rx := by
  rcases self.send_cases data spent with ⟨_, _, _, heq⟩ | ⟨hsame, _⟩
  · rw [heq]
  · rw [hsame]

end MessageStream

/-- What happens to a stream that is written to in both ways. -/
inductive Outgoing where
  | event (event : Event)
  | send (data : Bytes) (spent : Bool)

def MessageStream.step (self : MessageStream) : Outgoing → MessageStream
  | .event event => { self with toKcpStream := self.toKcpStream.step event }
  | .send data spent => (self.send data spent).1

def MessageStream.reached (config : config.KcpConfig) (calls : List Outgoing) : MessageStream :=
  Trace.run MessageStream.step (.new config) calls

/-- The data has been placed in the channel, or cut off a buffer and parked. -/
def KcpStream.Handed (self : KcpStream) (data : Bytes) : Prop :=
  data ∈ self.send_tx.sent ∨ ∃ write ∈ self.pending_write, write.data = data

/-! ### The lengths of what is handed over -/

/-- Every message in the channel is within the limit, and what is parked is one segment. -/
structure Chunked (mss limit : Nat) (s : KcpStream) : Prop where
  size : s.mss = mss
  sent : ∀ data ∈ s.send_tx.sent, data.length ≤ limit
  parked : ∀ write ∈ s.pending_write, write.data.length ≤ mss

variable {mss limit : Nat}

/-- That the channel is chunked depends on three fields. -/
theorem Chunked.of_frame {s after : KcpStream} (h : Chunked mss limit s) (hmss : after.mss = s.mss)
    (hsent : after.send_tx.sent = s.send_tx.sent) (hparked : after.pending_write = s.pending_write) :
    Chunked mss limit after :=
  ⟨hmss.trans h.size, fun data hmem => h.sent data (hsent ▸ hmem), fun write hmem => h.parked write (hparked ▸ hmem)⟩

theorem Chunked.place {sent : List Bytes} (h : ∀ data ∈ sent, data.length ≤ limit) {data : Bytes} (hdata : data.length ≤ limit) :
    ∀ other ∈ sent ++ [data], other.length ≤ limit := by
  intro other hmem
  rcases List.mem_append.mp hmem with hmem | hmem
  · exact h other hmem
  · rw [List.mem_singleton.mp hmem]
    exact hdata

/-- A write that waits places one segment. -/
theorem chunked_poll_pending_write {s : KcpStream} (hle : mss ≤ limit) (hmss : s.mss = mss)
    (hsent : ∀ data ∈ s.send_tx.sent, data.length ≤ limit) {write : PendingWrite} (hwrite : write.data.length ≤ mss)
    (spent : Bool) : Chunked mss limit (s.poll_pending_write write spent).1 := by
  have hpark : ∀ other ∈ some write, other.data.length ≤ mss := by
    rintro other ⟨⟩
    exact hwrite
  have hnone : ∀ other ∈ (none : Option PendingWrite), other.data.length ≤ mss := fun _ hother => by cases hother
  unfold KcpStream.poll_pending_write
  split
  · exact ⟨hmss, hsent, hpark⟩
  · by_cases hroom : s.send_tx.HasRoom
    · rw [Channel.try_send_of_room hroom]
      exact ⟨hmss, Chunked.place hsent (hwrite.trans hle), hnone⟩
    · rw [Channel.try_send_of_full hroom]
      split_ifs
      · exact ⟨hmss, hsent, hnone⟩
      · exact ⟨hmss, hsent, hpark⟩

/-- A write places one segment, or parks it. -/
theorem chunked_poll_write {s : KcpStream} (hle : mss ≤ limit) (h : Chunked mss limit s) (buf : Bytes) (taken : Option Nat)
    (spent : Bool) : Chunked mss limit (s.poll_write buf taken spent).1 := by
  unfold KcpStream.poll_write
  split
  · exact h
  cases hpending : s.pending_write with
  | some write => exact chunked_poll_pending_write hle h.size h.sent (h.parked write hpending) spent
  | none =>
    have hcut : (buf.take (min buf.length s.mss)).length ≤ mss := by
      rw [List.length_take, ← h.size]
      omega
    dsimp only
    by_cases hroom : s.send_tx.HasRoom
    · rw [Channel.try_send_of_room hroom]
      refine ⟨h.size, Chunked.place h.sent (hcut.trans hle), ?_⟩
      rw [← hpending]
      exact h.parked
    · rw [Channel.try_send_of_full hroom]
      split_ifs
      · rw [← hpending]
        exact h
      · have hsent : ∀ data ∈ (KcpStream.meanwhile s.send_tx taken).sent, data.length ≤ limit := by
          cases taken <;> exact h.sent
        exact chunked_poll_pending_write (s := { s with send_tx := KcpStream.meanwhile s.send_tx taken, pending_write := none })
          hle h.size hsent hcut spent

/-- Nothing over the limit gets into the channel. -/
theorem chunked_step {s : KcpStream} (hle : mss ≤ limit) (h : Chunked mss limit s) (event : Event) :
    Chunked mss limit (s.step event) := by
  cases event with
  | poll_write buf taken spent => exact chunked_poll_write hle h buf taken spent
  | poll_read remaining spent =>
    simp only [KcpStream.step, KcpStream.poll_read]
    split_ifs
    · exact h.of_frame rfl rfl rfl
    · exact h
    · exact h
    · split <;> exact h.of_frame rfl rfl rfl
  | placed message =>
    simp only [KcpStream.step, KcpStream.place]
    split <;> exact h.of_frame rfl rfl rfl
  | poll_shutdown finished =>
    simp only [KcpStream.step, KcpStream.poll_shutdown]
    split_ifs <;> exact h.of_frame rfl rfl rfl
  | close =>
    simp only [KcpStream.step, KcpStream.close]
    split_ifs <;> exact h.of_frame rfl rfl rfl
  | taken => exact h.of_frame rfl rfl rfl
  | exited => exact h.of_frame rfl rfl rfl

/-- A message that is sent is within the limit. -/
theorem chunked_send {s : MessageStream} (h : Chunked mss s.max_msg s.toKcpStream) (data : Bytes) (spent : Bool) :
    Chunked mss s.max_msg (s.send data spent).1.toKcpStream ∧ (s.send data spent).1.max_msg = s.max_msg := by
  rcases s.send_cases data spent with ⟨hroom, _, hle, heq⟩ | ⟨hsame, _⟩
  · rw [heq]
    exact ⟨⟨h.size, Chunked.place h.sent hle, h.parked⟩, rfl⟩
  · rw [hsame]
    exact ⟨h, rfl⟩

/-- A segment is within the limit. -/
theorem mss_le_max_msg {config : config.KcpConfig} (hrcv : 0 < config.rcv_wnd.toNat) :
    (KcpStream.new config).mss ≤ (MessageStream.new config).max_msg := by
  apply Nat.le_mul_of_pos_right
  rw [Word.toNat_min]
  have : constants.IKCP_WND_RCV.toNat = 128 := rfl
  omega

/-- Nothing longer than the limit gets out of a stream, whatever is written to it. -/
theorem chunked_run (config : config.KcpConfig) (hrcv : 0 < config.rcv_wnd.toNat) (calls : List Outgoing) :
    Chunked (KcpStream.new config).mss (MessageStream.new config).max_msg (MessageStream.reached config calls).toKcpStream ∧
      (MessageStream.reached config calls).max_msg = (MessageStream.new config).max_msg := by
  have hle := mss_le_max_msg hrcv
  apply Trace.invariant (P := fun _ (s : MessageStream) =>
    Chunked (KcpStream.new config).mss (MessageStream.new config).max_msg s.toKcpStream ∧
      s.max_msg = (MessageStream.new config).max_msg)
  · exact ⟨⟨rfl, fun _ h => absurd h List.not_mem_nil, fun _ h => by cases h⟩, rfl⟩
  · rintro calls call ⟨h, hmax⟩
    cases call with
    | event event => exact ⟨chunked_step hle h event, hmax⟩
    | send data spent =>
      rw [← hmax] at h ⊢
      exact chunked_send h data spent

/-- What has been handed over is within the limit. -/
theorem Chunked.handed {s : KcpStream} (h : Chunked mss limit s) (hle : mss ≤ limit) {data : Bytes} (hdata : s.Handed data) :
    data.length ≤ limit := by
  rcases hdata with hsent | ⟨write, hparked, rfl⟩
  · exact h.sent data hsent
  · exact (h.parked write hparked).trans hle

/-! ### What the engine makes of it -/

/-- The stream computes the segment size of the engine. -/
theorem mss_eq (start : Start) (ops : List Op) : (KcpStream.new start.config.toKcpConfig).mss = (start.reached ops).mss.toNat := by
  obtain ⟨hmtu, hpos⟩ := start.origin.mtu_eq ops
  rw [start.origin_reached] at hmtu hpos
  rw [(start.configured ops).config] at hmtu
  change max (start.config.mtu.toNat - 24) 1 = _
  change start.config.mtu.toNat = 24 + (start.reached ops).mss.toNat at hmtu
  omega

/-- The limit of `send` is what the largest message of the engine holds. -/
theorem max_msg_eq (start : Start) (ops : List Op) :
    (MessageStream.new start.config.toKcpConfig).max_msg =
      KcpEngine.max_frags (start.reached ops).config * (start.reached ops).mss.toNat := by
  rw [← mss_eq start ops, (start.configured ops).config, Nat.mul_comm]
  rfl

/-- The engine accepts what `send` lets through. -/
theorem send_of_length_le (start : Start) (ops : List Op) (clk : Clock) {data : Bytes}
    (h : data.length ≤ (MessageStream.new start.config.toKcpConfig).max_msg) :
    ((start.reached ops).send clk data).2 = .ok () := by
  by_contra hrejected
  have hmss : 0 < (start.reached ops).mss.toNat := (start.origin.mtu_eq ops).2
  have hlong := (KcpEngine.send_rejected_iff hmss clk data).mp hrejected
  rw [max_msg_eq start ops] at h
  rw [List.length_drop] at hlong
  omega

end kcp_tokio.stream
