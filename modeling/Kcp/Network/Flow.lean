import Kcp.Engine.Answer
import Kcp.Network.Delivery

/-! What the two sides know of each other's windows, and what it keeps them from sending. -/

open kcp_core.protocol kcp_core.config kcp_core.error kcp_core.engine
open kcp_core.engine.KcpEngine

namespace kcp_core.network

/-- The largest window that a side may believe in: the one that it starts with, or what the
peer has. -/
def believed (peer : Start) : Nat := max 128 peer.config.rcv_wnd.toNat

/-- One side keeps to the conversation and to the window of its peer, and so does all that it
ever drained. -/
structure Flowing (conv : ConvId) (limit : Nat) (p : Endpoint) : Prop where
  flow : Flow limit p.engine
  wire : ∀ data ∈ p.wire, Carries (Tells conv p.engine.wnd.rcv.toNat) data
  conv : p.engine.conv = conv

/-- No event of the network changes a conversation. -/
theorem switches_of_feasible {other : Endpoint} {op : Op} (h : Net.Feasible other op) : switches op = none := by
  rcases h with hlocal | ⟨now, data, _, rfl⟩
  · cases op with
    | set_conv conv => cases hlocal
    | _ => rfl
  · rfl

/-- No call that the network allows makes a side leave its conversation or the window of its peer.
-/
theorem flowing_step {conv : ConvId} {limit other_limit : Nat} {c : KcpCoreConfig} {log : List Fragment} {n : Nat}
    {p other : Endpoint} (h : Flowing conv limit p) (hrecorded : Recorded c log n p) (hc : kcp_tokio.config.Accepted c)
    (hother : Flowing conv other_limit other) (hle : other.engine.wnd.rcv.toNat ≤ limit) {op : Op}
    (hop : Net.Feasible other op) : Flowing conv limit (p.step op) := by
  have hswitch := switches_of_feasible hop
  have hrcv : (p.engine.step op).wnd.rcv = p.engine.wnd.rcv :=
    (configured_step hrecorded.set op).rcv.trans hrecorded.set.rcv.symm
  refine ⟨?_, ?_, (p.engine.conv_step hswitch).trans h.conv⟩
  · have htold : ∀ now data, op = .input now data → Carries (Tells conv limit) data := by
      rintro now data rfl
      rcases hop with hlocal | ⟨_, _, hmem, heq⟩
      · cases hlocal
      · cases heq
        exact (hother.wire data hmem).mono fun _ _ htells => ⟨htells.conv, htells.wnd.trans hle⟩
    exact flow_step h.flow hrecorded.ledger (hrecorded.snd_le hc) op hswitch htold
  · intro data hdata
    change Carries (Tells conv (p.engine.step op).wnd.rcv.toNat) data
    rw [hrcv]
    rcases List.mem_append.mp hdata with hold | hnew
    · exact h.wire data hold
    · cases op with
      | drain_output =>
        rw [← h.conv]
        exact h.flow.packed.queue data hnew
      | _ => cases hnew

/-- Both sides do, in every state of every run. -/
theorem Pair.flowing (pair : Pair) (events : List Event) :
    Flowing pair.a.conv (believed pair.b) (pair.reached events).a ∧
      Flowing pair.a.conv (believed pair.a) (pair.reached events).b := by
  have hfresh : ∀ start peer : Start, Flowing start.conv (believed peer) (.fresh start) := by
    intro start peer
    refine ⟨⟨?_, ?_, ?_, ?_⟩, ?_, rfl⟩
    · exact Nat.le_max_left 128 _
    · change Serial.offset (0 : SeqNum) 0 ≤ _
      rw [Serial.offset_self]
      exact Nat.zero_le _
    · exact fun _ h => absurd h List.not_mem_nil
    · exact ⟨fun _ h => absurd h List.not_mem_nil, .nil⟩
    · exact fun _ h => absurd h List.not_mem_nil
  refine Trace.invariant (P := fun _ (net : Net) => Flowing pair.a.conv (believed pair.b) net.a ∧
    Flowing pair.a.conv (believed pair.a) net.b) ⟨hfresh pair.a pair.b, ?_⟩ ?_ events
  · rw [← pair.same_conv]
    exact hfresh pair.b pair.a
  · rintro events event ⟨ha, hb⟩
    obtain ⟨log, na, blog, n, hra, hrb, _⟩ := pair.linked events
    have harcv : (pair.reached events).a.engine.wnd.rcv = pair.a.config.rcv_wnd := hra.set.rcv
    have hbrcv : (pair.reached events).b.engine.wnd.rcv = pair.b.config.rcv_wnd := hrb.set.rcv
    apply Net.step_rule (P := fun net => Flowing pair.a.conv (believed pair.b) net.a ∧
      Flowing pair.a.conv (believed pair.a) net.b) event
    · exact ⟨ha, hb⟩
    · exact fun op hop => ⟨flowing_step ha hra pair.a.accepted hb (hbrcv ▸ Nat.le_max_right _ _) hop, hb⟩
    · exact fun op hop => ⟨ha, flowing_step hb hrb pair.b.accepted ha (harcv ▸ Nat.le_max_right _ _) hop⟩

/-- The window of the peer holds what a side may send before it has heard of it. -/
def Fits (own peer : Start) : Prop := min own.config.snd_wnd.toNat 128 ≤ peer.config.rcv_wnd.toNat

instance decidableFits (own peer : Start) : Decidable (Fits own peer) := inferInstanceAs (Decidable (_ ≤ _))

/-- While the receive queue of `b` has room, everything that `a` has numbered is within the
window of `b`. -/
theorem reach_of_room {pair : Pair} (hfits : Fits pair.a pair.b) {a b : Endpoint} {log blog : List Fragment} {na n : Nat}
    {fs : List (List Fragment)} {conv : ConvId} (ha : Recorded pair.a.config.into log na a)
    (hb : Recorded pair.b.config.into blog n b) (hflow : Flowing conv (believed pair.b) a) (h : Link a b log n fs)
    (hlog : log.length < 2 ^ 31) (hroom : b.engine.rcv_queue.length < b.engine.wnd.rcv.toNat) :
    log.length ≤ n + b.engine.wnd.rcv.toNat := by
  by_cases hall : n = log.length
  · omega
  have hle := h.le
  have hmissing : b.engine.rcv_nxt ∉ b.engine.rcv_buf := fun hmem => by
    have := h.settled hmem
    omega
  have hflight : BitVec.ofNat 32 n ∈ a.engine.snd_sns := by
    rcases h.arrived n (by omega) with hflight | hkept | hbehind
    · exact hflight
    · rw [← hb.ledger.count.nxt] at hkept
      exact absurd hkept hmissing
    · have hword : (BitVec.ofNat 32 n).toNat = n := by
        rw [BitVec.toNat_ofNat, Nat.mod_eq_of_lt (by omega)]
      have := hbehind.lt (by omega) (by omega)
      omega
  have hbelow := ha.ledger.sender.window.ascending.below _ hflight
  have hspan := hflow.flow.span
  have hrcv : b.engine.wnd.rcv = pair.b.config.rcv_wnd := hb.set.rcv
  have hsnd : a.engine.wnd.snd = pair.a.config.snd_wnd := ha.set.snd
  have hrest := Serial.offset_rebase hbelow.le
  rw [ha.ledger.sender.nxt, offset_ofNat hle (by omega)] at hrest
  unfold Fits at hfits
  unfold believed at hspan
  rw [ha.ledger.sender.nxt] at hspan
  rw [hrcv]
  rw [hsnd] at hspan
  omega

/-- Data within the window is acknowledged when it arrives. -/
theorem answered {a b : Endpoint} {log blog : List Fragment} {na n : Nat} {ca cb : KcpCoreConfig} {conv : ConvId}
    {limit : Nat} (ha : Recorded ca log na a) (hb : Recorded cb blog n b) (hcb : kcp_tokio.config.Accepted cb)
    (hflow : Flowing conv limit a) (hconv : b.engine.conv = conv) (hn : n ≤ 2 ^ 30)
    (hreach : log.length ≤ n + b.engine.wnd.rcv.toNat) {data : Bytes} (hdata : data ∈ a.wire) (now : Timestamp)
    {s : KcpSegment} (hs : s ∈ split_segments data) (hcmd : s.header.cmd = constants.IKCP_CMD_PUSH) :
    (s.header.sn, s.header.ts) ∈ (b.engine.input now data).1.ack_list := by
  obtain ⟨k, hsn, hk⟩ := ((ha.wire data hdata).split s hs).push hcmd
  obtain ⟨hlt, _⟩ := List.getElem?_eq_some_iff.mp hk
  exact input_answers hb.ledger.count (hb.rcv_le hcb) (hb.rcv_pos hcb) hn now hs
    (((hflow.wire data hdata).split s hs).conv.trans hconv.symm) hcmd hsn (by omega)

/-- Whatever the network does: while the receive queue of `b` is not full, every data segment
that `a` has ever sent is in the window of `b`, so that any copy of it that arrives is
acknowledged, and none is discarded. -/
theorem never_out_of_window (pair : Pair) (events : List Event) (hfits : Fits pair.a pair.b)
    (hcount : (pair.reached events).a.numbered ≤ 2 ^ 30)
    (hroom : (pair.reached events).b.engine.rcv_queue.length < (pair.reached events).b.engine.wnd.rcv.toNat) :
    ∀ data ∈ (pair.reached events).a.wire, ∀ s ∈ split_segments data, s.header.cmd = constants.IKCP_CMD_PUSH → ∀ now,
      (s.header.sn, s.header.ts) ∈ ((pair.reached events).b.engine.input now data).1.ack_list := by
  obtain ⟨log, na, blog, n, ha, hb, hlink⟩ := pair.linked events
  obtain ⟨hflow_a, hflow_b⟩ := pair.flowing events
  rw [ha.numbered] at hcount
  obtain ⟨fs, h⟩ := hlink (by omega)
  have hle := h.le
  have hreach := reach_of_room hfits ha hb hflow_a h (by omega) hroom
  intro data hdata s hs hcmd now
  exact answered ha hb pair.b.accepted hflow_a hflow_b.conv (by omega) hreach hdata now hs hcmd

/-- The second copy of a segment arrives after the first. -/
theorem never_out_of_window_crossed : (plain_pair.reached crossed).a.wire ≠ [] ∧
    ∀ data ∈ (plain_pair.reached crossed).a.wire, ∀ s ∈ split_segments data, s.header.cmd = constants.IKCP_CMD_PUSH → ∀ now,
      (s.header.sn, s.header.ts) ∈ ((plain_pair.reached crossed).b.engine.input now data).1.ack_list :=
  ⟨by decide +kernel, never_out_of_window plain_pair crossed (by decide) (by decide +kernel) (by decide +kernel)⟩

end kcp_core.network
