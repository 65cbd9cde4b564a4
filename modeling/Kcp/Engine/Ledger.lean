import Kcp.Engine.Sender

open kcp_core.protocol kcp_core.config kcp_core.error
open kcp_tokio.config

namespace kcp_core.engine.KcpEngine

/-- What an engine says on the wire, having numbered the fragments of `log` and accepted
`n` segments: its data is the log's, it expects no number beyond `n`, and it acknowledges
only what has arrived. -/
structure Says (log : List Fragment) (n : Nat) (e : KcpEngine) (header : KcpHeader) (data : Bytes) : Prop where
  push : header.cmd = constants.IKCP_CMD_PUSH → Logged log header data
  una : ∃ u, u ≤ n ∧ header.una = BitVec.ofNat 32 u
  ack : header.cmd = constants.IKCP_CMD_ACK → Kept n e header.sn

/-- What was said stays true as the log grows and more segments arrive. -/
theorem Says.mono {log : List Fragment} {n m : Nat} {e e' : KcpEngine} {header : KcpHeader} {data : Bytes}
    (h : Says log n e header data) (more : List Fragment) (hle : n ≤ m) (hkept : ∀ sn, Kept n e sn → Kept m e' sn) :
    Says (log ++ more) m e' header data where
  push := fun hcmd => (h.push hcmd).append more
  una := by
    obtain ⟨u, hu, heq⟩ := h.una
    exact ⟨u, hu.trans hle, heq⟩
  ack := fun hcmd => hkept _ (h.ack hcmd)

/-- What is true of the wire depends on the reorder buffer only. -/
theorem Says.congr {log : List Fragment} {n : Nat} {e e' : KcpEngine} {header : KcpHeader} {data : Bytes}
    (h : Says log n e header data) (hbuf : e'.rcv_buf = e.rcv_buf) : Says log n e' header data where
  push := h.push
  una := h.una
  ack := by
    unfold Kept
    rw [hbuf]
    exact h.ack

/-- The two sides of an engine and what it has ready for the wire. -/
structure Ledger (log : List Fragment) (n : Nat) (e : KcpEngine) : Prop where
  sender : Sender log e
  count : RecvCount n e
  packed : Packed (Says log n e) e

/-- All that a flush encodes is in the log, or tells the window. -/
theorem says_emissions {log : List Fragment} {n : Nat} {self : KcpEngine} (hs : Sender log self)
    (hr : RecvCount n self) (clk : Clock) :
    ∀ s ∈ self.emissions clk,
      Sized s ∧ Says (log ++ (self.snd_queue.take self.admitted).map carried) n self s.header s.data := by
  have hnxt : ∃ u, u ≤ n ∧ self.rcv_nxt = BitVec.ofNat 32 u := ⟨n, le_rfl, hr.nxt⟩
  apply emissions_rule
  · intro a ha
    refine ⟨rfl, fun hcmd => ?_, hnxt, fun _ => hr.acks a ha⟩
    exact absurd hcmd (by change ¬ constants.IKCP_CMD_ACK = constants.IKCP_CMD_PUSH; decide)
  · intro cmd stamp hcmd
    have hother : cmd ≠ constants.IKCP_CMD_PUSH ∧ cmd ≠ constants.IKCP_CMD_ACK := by
      rcases hcmd with rfl | rfl
      · decide
      · decide
    exact ⟨rfl, fun h => absurd h hother.1, hnxt, fun h => absurd h hother.2⟩
  · intro before hbefore s hheader hdata
    obtain ⟨hsized, hcmd, k, hk, hlog⟩ := hs.ready clk.now before hbefore
    refine ⟨?_, fun _ => ⟨k, ?_, ?_⟩, ?_, fun hack => ?_⟩
    · unfold Sized
      rw [hheader, hdata]
      exact hsized
    · rw [hheader]
      exact hk
    · rw [hheader, hdata]
      exact hlog
    · rw [hheader]
      exact hnxt
    · rw [hheader] at hack
      exact absurd (hcmd.symm.trans hack) (by decide)

/-- What a flush says is true of the log with what it numbers added to it. -/
theorem packed_flush_told {log : List Fragment} {n : Nat} {self : KcpEngine} (h : Ledger log n self)
    (hsnd : self.wnd.snd.toNat ≤ 65535) (clk : Clock) :
    Packed (Says (log ++ news self (self.flush clk).1) n self) (self.flush clk).1 := by
  rw [news_flush h.sender.window hsnd]
  apply packed_flush
  · exact h.packed.mono fun _ _ hold => hold.mono _ le_rfl fun _ hk => hk
  · exact says_emissions h.sender h.count clk

/-- What is said does not depend on the clock and probe fields a call sets before it flushes. -/
theorem Ledger.opened {log : List Fragment} {n : Nat} {self : KcpEngine} (h : Ledger log n self)
    (last : Timestamp) (flags : U32) :
    Ledger log n { self with last_update := last, probe := { self.probe with flags } } where
  sender := ⟨h.sender.window.congr rfl rfl rfl rfl, h.sender.nxt, h.sender.proper, h.sender.queue, h.sender.buf⟩
  count := h.count.congr rfl rfl rfl (fun _ ha => ha) rfl
  packed := by
    refine ⟨fun datagram hmem => (h.packed.queue datagram hmem).mono fun _ _ hold => ?_,
      h.packed.buf.mono fun _ _ hold => ?_⟩
    · exact hold.congr rfl
    · exact hold.congr rfl

/-- All that has left after a call is in the log, or tells the window. -/
theorem packed_step {log : List Fragment} {n : Nat} {self : KcpEngine} (h : Ledger log n self)
    (hsnd : self.wnd.snd.toNat ≤ 65535) (op : Op) :
    Packed (Says (log ++ news self (self.step op)) n self) (self.step op) := by
  have hsame : ∀ e : KcpEngine, e.output_queue = self.output_queue → e.out_buf = self.out_buf →
      Packed (Says (log ++ news self e) n self) e := by
    intro e hqueue hbuf
    have hmono := h.packed.mono fun header data hsays => hsays.mono (news self e) le_rfl fun _ hk => hk
    exact ⟨hqueue ▸ hmono.queue, hbuf ▸ hmono.buf⟩
  apply step_rule (P := fun e => Packed (Says (log ++ news self e) n self) e) op
  · intro clk data _
    obtain ⟨queue, sent, heq⟩ := self.send_shape clk data
    rw [heq]
    exact hsame _ rfl rfl
  · intro _
    obtain ⟨queue, buf, nxt, flags, received, heq⟩ := self.recv_shape
    rw [heq]
    exact hsame _ rfl rfl
  · intro now data _
    have hframe := self.inputFrame_input now data
    exact hsame _ hframe.output_queue hframe.out_buf
  · intro last flags clk _
    refine (packed_flush_told (h.opened last flags) hsnd clk).mono fun _ _ hsays => ?_
    exact hsays.congr rfl
  · exact fun last => hsame _ rfl rfl
  · exact ⟨by simp, (hsame self rfl rfl).buf⟩
  · exact fun conv => hsame _ rfl rfl

/-- Every call extends the log by what it numbers and counts what it accepts, and all the
engine has said and says now stays true. -/
theorem ledger_step {log : List Fragment} {n k m : Nat} {self : KcpEngine} (h : Ledger log n self)
    (hmss : 0 < self.mss.toNat) (hsnd : self.wnd.snd.toNat ≤ 65535) (op : Op)
    (hmoved : Moved self n k m (self.step op)) : Ledger (log ++ news self (self.step op)) m (self.step op) where
  sender := sender_step h.sender hmss hsnd op
  count := hmoved.count
  packed := by
    refine (packed_step h hsnd op).mono fun header data hsays => ?_
    have hmono := hsays.mono [] hmoved.le hmoved.kept
    rwa [List.append_nil] at hmono

/-- A new engine has an empty log. -/
theorem ledger_new {c : KcpCoreConfig} (conv : ConvId) (updated active : Timestamp) :
    Ledger [] 0 (new conv c updated active) where
  sender := ⟨sendWindow_new .., rfl, by simp, by simp [new], by simp [new]⟩
  count := ⟨⟨Nat.zero_le _, fun k segment h => by simp [new] at h⟩, fun i segment h => by simp [new] at h, rfl,
    by simp [new]⟩
  packed := ⟨by simp [new], .nil⟩

end kcp_core.engine.KcpEngine
