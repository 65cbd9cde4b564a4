import Kcp.Engine.SendWindow

open kcp_core.protocol kcp_core.config kcp_core.error

namespace kcp_core.engine

/-- What a run of an engine with any settings starts from, accepted or not. -/
structure Origin where
  conv : ConvId
  config : KcpCoreConfig
  updated : Timestamp
  active : Timestamp

def Origin.fresh (origin : Origin) : KcpEngine :=
  KcpEngine.new origin.conv origin.config origin.updated origin.active

def Origin.reached (origin : Origin) (ops : List Op) : KcpEngine := Trace.run KcpEngine.step origin.fresh ops

/-- A start with accepted settings, as a start with any. -/
def Start.origin (start : Start) : Origin where
  conv := start.conv
  config := start.config.into
  updated := start.updated
  active := start.active

@[simp] theorem Start.origin_reached (start : Start) (ops : List Op) :
    start.origin.reached ops = start.reached ops := rfl

/-- The settings in force: the MTU is raised above the header size at construction. -/
def Origin.settings (origin : Origin) : KcpCoreConfig :=
  { origin.config with mtu := max origin.config.mtu (constants.IKCP_OVERHEAD + 1) }

/-- No call changes the settings, whatever they are. -/
theorem Origin.configured (origin : Origin) (ops : List Op) :
    KcpEngine.Configured origin.settings (origin.reached ops) := by
  apply Trace.invariant (P := fun _ e => KcpEngine.Configured origin.settings e)
  · exact ⟨rfl, rfl, rfl, rfl, rfl⟩
  · intro _ op h
    exact KcpEngine.configured_step h op

/-- The engine raises the mtu above the header. -/
theorem Origin.mtu_ge (origin : Origin) : 25 ≤ origin.settings.mtu.toNat := by
  have h25 : (constants.IKCP_OVERHEAD + 1).toNat = 25 := rfl
  have hmax := Word.toNat_max origin.config.mtu (constants.IKCP_OVERHEAD + 1)
  change 25 ≤ (max origin.config.mtu (constants.IKCP_OVERHEAD + 1)).toNat
  omega

/-- Whatever the settings, a datagram has room for a header and at least one byte. -/
theorem Origin.mtu_eq (origin : Origin) (ops : List Op) :
    (origin.reached ops).config.mtu.toNat = KcpHeader.SIZE + (origin.reached ops).mss.toNat ∧
      0 < (origin.reached ops).mss.toNat := by
  have hmtu := origin.mtu_ge
  have hmss : (origin.reached ops).mss.toNat = origin.settings.mtu.toNat - 24 := by
    unfold KcpEngine.mss
    rw [(origin.configured ops).config, BitVec.toNat_sub_of_le]
    · rfl
    · rw [BitVec.le_def]
      change 24 ≤ origin.settings.mtu.toNat
      omega
  rw [(origin.configured ops).config, KcpHeader.SIZE]
  omega

namespace KcpEngine

/-- No call parts `snd_una` from the front of the buffer. -/
theorem front_step {self : KcpEngine} (h : Front self) (op : Op) : Front (self.step op) := by
  apply step_rule (P := Front) op
  · intro clk data _
    obtain ⟨queue, sent, heq⟩ := self.send_shape clk data
    rw [heq]
    exact h
  · intro _
    obtain ⟨queue, buf, nxt, flags, received, heq⟩ := self.recv_shape
    rw [heq]
    exact h
  · intro now data _
    exact front_input h now data
  · intro last flags clk _
    apply front_flush
    exact h
  · exact fun _ => h
  · exact h
  · exact fun _ => h

end KcpEngine

/-- In every run `snd_una` is at the front of the buffer, whatever the settings. -/
theorem Origin.front (origin : Origin) (ops : List Op) : KcpEngine.Front (origin.reached ops) := by
  apply Trace.invariant (P := fun _ e => KcpEngine.Front e)
  · rfl
  · intro _ op h
    exact KcpEngine.front_step h op

end kcp_core.engine
