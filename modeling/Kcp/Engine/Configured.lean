import Kcp.Engine.FlushFrame
import Kcp.Engine.InputShape

open kcp_core.protocol kcp_core.config kcp_core.error
open kcp_tokio.config

namespace kcp_core.engine

namespace KcpEngine

/-! ### One step, by kind of call -/

/-- What a call returns, for the calls that can fail. -/
def outcome (self : KcpEngine) : Op → KcpCoreResult Unit
  | .send clk data => (self.send clk data).2
  | .input now data => (self.input now data).2
  | .flush clk => (self.flush clk).2
  | .update now clk => (self.update now clk).2
  | .keep_alive_probe clk => (self.keep_alive_probe clk).2
  | _ => .ok ()

/-- The clock readings of the flush that a call runs, if it runs one. -/
def flush_of (self : KcpEngine) : Op → Option Clock
  | .flush clk => some clk
  | .keep_alive_probe clk => some clk
  | .update now clk =>
    let last := if now < self.last_update then now else self.last_update
    if self.config.nodelay.interval ≤ now - last then some clk else none
  | _ => none

/-- An `update` that is due is a flush. -/
theorem update_of_flush {self : KcpEngine} {now : Timestamp} {clk c : Clock}
    (h : self.flush_of (.update now clk) = some c) :
    self.update now clk = flush { self with last_update := now } clk := by
  simp only [flush_of, Option.ite_none_right_eq_some] at h
  unfold update
  dsimp only
  by_cases hback : now < self.last_update
  · simp only [hback, if_true] at h ⊢
    rw [if_pos h.1]
  · simp only [hback, if_false] at h ⊢
    rw [if_pos h.1]

/-- A call that runs a flush, taken apart. -/
theorem step_of_flush_of {self : KcpEngine} {op : Op} {clk : Clock} (h : self.flush_of op = some clk) :
    ∃ last flags, self.step op =
        (flush { self with last_update := last, probe := { self.probe with flags } } clk).1 ∧
      self.outcome op = (flush { self with last_update := last, probe := { self.probe with flags } } clk).2 := by
  cases op with
  | flush c =>
    simp only [flush_of, Option.some.injEq] at h
    subst h
    exact ⟨self.last_update, self.probe.flags, rfl, rfl⟩
  | keep_alive_probe c =>
    simp only [flush_of, Option.some.injEq] at h
    subst h
    exact ⟨self.last_update, _, rfl, rfl⟩
  | update now c =>
    have hupdate := update_of_flush h
    simp only [flush_of, Option.ite_none_right_eq_some, Option.some.injEq] at h
    obtain ⟨_, rfl⟩ := h
    exact ⟨now, self.probe.flags, congrArg Prod.fst hupdate, congrArg Prod.snd hupdate⟩
  | _ => simp [flush_of] at h

/-- `update` outside a flush only brings a reading from the future back to the present. -/
theorem update_idle {self : KcpEngine} {now : Timestamp} {clk : Clock} (h : self.flush_of (.update now clk) = none) :
    self.update now clk =
      ({ self with last_update := if now < self.last_update then now else self.last_update }, .ok ()) := by
  simp only [flush_of, ite_eq_right_iff, reduceCtorEq, imp_false] at h
  unfold update
  dsimp only
  by_cases hback : now < self.last_update
  · simp only [hback, if_true] at h ⊢
    exact if_neg h
  · simp only [hback, if_false] at h ⊢
    exact if_neg h

/-- One that is not only records its time. -/
theorem update_of_no_flush {self : KcpEngine} {now : Timestamp} {clk : Clock}
    (h : self.flush_of (.update now clk) = none) :
    ∃ last, self.update now clk = ({ self with last_update := last }, .ok ()) := ⟨_, update_idle h⟩

/-- The step rule. Every call that runs a flush does so after touching the clock reading
and the probe flags. -/
theorem step_rule {P : KcpEngine → Prop} {self : KcpEngine} (op : Op)
    (hsend : ∀ clk data, op = .send clk data → P (self.send clk data).1)
    (hrecv : op = .recv → P self.recv.1)
    (hinput : ∀ now data, op = .input now data → P (self.input now data).1)
    (hflush : ∀ last flags clk, self.flush_of op = some clk →
      P (flush { self with last_update := last, probe := { self.probe with flags } } clk).1)
    (hlast : ∀ last, P { self with last_update := last })
    (hdrain : P { self with output_queue := [] })
    (hconv : ∀ conv, P { self with conv }) : P (self.step op) := by
  cases hsome : self.flush_of op with
  | some clk =>
    obtain ⟨last, flags, hstep, _⟩ := step_of_flush_of hsome
    rw [hstep]
    exact hflush last flags clk hsome
  | none =>
    cases op with
    | send clk data => exact hsend clk data rfl
    | recv => exact hrecv rfl
    | input now data => exact hinput now data rfl
    | drain_output => exact hdrain
    | set_conv conv => exact hconv conv
    | flush clk => simp [flush_of] at hsome
    | keep_alive_probe clk => simp [flush_of] at hsome
    | update now clk =>
      obtain ⟨last, heq⟩ := update_of_no_flush hsome
      simp only [step, heq]
      exact hlast last

/-! ### Settings -/

/-- `send` touches the queue, one counter and the activity reading. -/
theorem send_shape (self : KcpEngine) (clk : Clock) (data : Bytes) : ∃ queue sent,
    (self.send clk data).1 = { self with
      last_activity := clk.now
      snd_queue := queue
      stats := { self.stats with bytes_sent := sent } } := by
  unfold send
  dsimp only
  split_ifs <;> exact ⟨_, _, rfl⟩

/-- The engine still has the settings it was built with. -/
structure Configured (c : KcpCoreConfig) (e : KcpEngine) : Prop where
  config : e.config = c
  snd : e.wnd.snd = c.snd_wnd
  rcv : e.wnd.rcv = c.rcv_wnd
  dead_link : e.dead_link = c.max_retries
  min_rto : e.rtt.min_rto = if c.nodelay.nodelay then constants.IKCP_RTO_NDL else constants.IKCP_RTO_MIN

/-- No call changes the settings. -/
theorem configured_step {c : KcpCoreConfig} {self : KcpEngine} (h : Configured c self) (op : Op) :
    Configured c (self.step op) := by
  apply step_rule op
  · intro clk data _
    obtain ⟨queue, sent, heq⟩ := self.send_shape clk data
    rw [heq]
    exact ⟨h.config, h.snd, h.rcv, h.dead_link, h.min_rto⟩
  · intro _
    obtain ⟨queue, buf, nxt, flags, received, heq⟩ := self.recv_shape
    rw [heq]
    exact ⟨h.config, h.snd, h.rcv, h.dead_link, h.min_rto⟩
  · intro now data _
    have hframe := self.inputFrame_input now data
    exact ⟨hframe.config.trans h.config, hframe.snd.trans h.snd, hframe.rcv.trans h.rcv,
      hframe.dead_link.trans h.dead_link, hframe.min_rto.trans h.min_rto⟩
  · intro last flags clk _
    obtain ⟨queue, buf, stats, heq⟩ :=
      flush_shape { self with last_update := last, probe := { self.probe with flags } } clk
    rw [heq]
    obtain ⟨hsnd, hrcv, _⟩ := flushed_wnd_frame
      { self with last_update := last, probe := { self.probe with flags } } clk.now
    exact ⟨h.config, hsnd.trans h.snd, hrcv.trans h.rcv, h.dead_link, h.min_rto⟩
  · intro last
    exact ⟨h.config, h.snd, h.rcv, h.dead_link, h.min_rto⟩
  · exact ⟨h.config, h.snd, h.rcv, h.dead_link, h.min_rto⟩
  · intro conv
    exact ⟨h.config, h.snd, h.rcv, h.dead_link, h.min_rto⟩

/-- Accepted settings leave room for a segment, and bound it. -/
theorem mss_bounds {c : KcpCoreConfig} {e : KcpEngine} (h : Configured c e) (hc : kcp_tokio.config.Accepted c) :
    40 ≤ e.mss.toNat ∧ e.mss.toNat ≤ 65511 := by
  have hlow := hc.mtu_ge
  have hhigh := hc.mtu_le
  have hmss : e.mss.toNat = c.mtu.toNat - 24 := by
    unfold mss
    rw [h.config, BitVec.toNat_sub_of_le]
    · rfl
    · rw [BitVec.le_def]
      change 24 ≤ c.mtu.toNat
      omega
  omega

end KcpEngine

open KcpEngine

/-- An accepted MTU is above the header size, so construction keeps it. -/
theorem new_config {c : KcpCoreConfig} (hc : Accepted c) (conv : ConvId) (updated active : Timestamp) :
    (KcpEngine.new conv c updated active).config = c := by
  have hmtu : max c.mtu (constants.IKCP_OVERHEAD + 1) = c.mtu := by
    apply BitVec.eq_of_toNat_eq
    rw [Word.toNat_max]
    have h25 : (constants.IKCP_OVERHEAD + 1).toNat = 25 := rfl
    have := hc.mtu_ge
    omega
  change { c with mtu := max c.mtu (constants.IKCP_OVERHEAD + 1) } = c
  rw [hmtu]

/-- In every run the settings are those of the start. -/
theorem Start.configured (start : Start) (ops : List Op) :
    Configured start.config.into (start.reached ops) := by
  apply Trace.invariant (P := fun _ e => Configured start.config.into e)
  · exact ⟨new_config start.accepted .., rfl, rfl, rfl, rfl⟩
  · intro _ op h
    exact configured_step h op

end kcp_core.engine
