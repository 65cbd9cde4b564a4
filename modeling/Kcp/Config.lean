import Kcp.Protocol

namespace kcp_core.config

structure NodeDelayConfig where
  nodelay : Bool
  interval : U32
  resend : U32
  no_congestion_control : Bool
  deriving DecidableEq, Repr

def NodeDelayConfig.normal : NodeDelayConfig :=
  { nodelay := false, interval := 40, resend := 0, no_congestion_control := false }

def NodeDelayConfig.fast : NodeDelayConfig :=
  { nodelay := true, interval := 8, resend := 2, no_congestion_control := false }

def NodeDelayConfig.turbo : NodeDelayConfig :=
  { nodelay := true, interval := 4, resend := 1, no_congestion_control := true }

def NodeDelayConfig.gaming : NodeDelayConfig :=
  { nodelay := true, interval := 3, resend := 1, no_congestion_control := true }

/-- One of the four named modes. -/
def NodeDelayConfig.IsPreset (self : NodeDelayConfig) : Prop :=
  self = .normal ∨ self = .fast ∨ self = .turbo ∨ self = .gaming

structure KcpCoreConfig where
  mtu : U32
  snd_wnd : U32
  rcv_wnd : U32
  nodelay : NodeDelayConfig
  max_retries : U32
  stream_mode : Bool
  deriving DecidableEq, Repr

def KcpCoreConfig.default : KcpCoreConfig where
  mtu := 1400
  snd_wnd := 32
  rcv_wnd := 128
  nodelay := .normal
  max_retries := 20
  stream_mode := false

end kcp_core.config

namespace kcp_tokio.config

open kcp_core.config

/-- The configuration error of the async layer, with its text. -/
inductive KcpError where
  | Config (message : String)
  deriving DecidableEq, Repr

/-- The protocol settings of the connection configuration, the ones that
`validate` reads and the engine is built from. -/
structure KcpConfig where
  mtu : U32
  snd_wnd : U32
  rcv_wnd : U32
  nodelay : NodeDelayConfig
  max_retries : U32
  stream_mode : Bool
  deriving DecidableEq, Repr

def KcpConfig.default : KcpConfig where
  mtu := 1400
  snd_wnd := 32
  rcv_wnd := 128
  nodelay := .normal
  max_retries := 20
  stream_mode := false

def KcpConfig.into (c : KcpConfig) : KcpCoreConfig where
  mtu := c.mtu
  snd_wnd := c.snd_wnd
  rcv_wnd := c.rcv_wnd
  nodelay := c.nodelay
  max_retries := c.max_retries
  stream_mode := c.stream_mode

def KcpConfig.validate (self : KcpConfig) : Except KcpError Unit :=
  if self.mtu < 64 ∨ 65535 < self.mtu then
    .error (.Config "MTU must be between 64 and 65535")
  else if self.snd_wnd = 0 ∨ self.rcv_wnd = 0 then
    .error (.Config "Window sizes must be greater than 0")
  else if 65535 < self.snd_wnd ∨ 65535 < self.rcv_wnd then
    .error (.Config "Window sizes must not exceed 65535")
  else if self.nodelay.interval = 0 then
    .error (.Config "Update interval must be greater than 0")
  else if self.max_retries = 0 then
    .error (.Config "Max retries must be greater than 0")
  else .ok ()

/-- A configuration that `validate` accepts. -/
structure ValidConfig extends KcpConfig where
  accepted : toKcpConfig.validate = .ok ()

/-- What `validate` guarantees about the settings the engine uses. -/
structure Accepted (c : KcpCoreConfig) : Prop where
  mtu_ge : 64 ≤ c.mtu.toNat
  mtu_le : c.mtu.toNat ≤ 65535
  snd_pos : 0 < c.snd_wnd.toNat
  snd_le : c.snd_wnd.toNat ≤ 65535
  rcv_pos : 0 < c.rcv_wnd.toNat
  rcv_le : c.rcv_wnd.toNat ≤ 65535
  interval_pos : 0 < c.nodelay.interval.toNat
  retries_pos : 0 < c.max_retries.toNat

theorem toNat_pos_of_ne_zero {x : U32} (h : ¬ x = 0) : 0 < x.toNat := by
  have hne : x.toNat ≠ 0 := fun hzero => h (BitVec.eq_of_toNat_eq (by simpa using hzero))
  omega

/-- The engine settings of an accepted configuration are in range. -/
theorem ValidConfig.into_accepted (c : ValidConfig) : Accepted c.into := by
  have h := c.accepted
  unfold KcpConfig.validate at h
  split_ifs at h with hmtu hzero hbig hinterval hretries
  simp only [not_or, BitVec.lt_def, not_lt] at hmtu hzero hbig
  exact {
    mtu_ge := by simpa [KcpConfig.into] using hmtu.1
    mtu_le := by simpa [KcpConfig.into] using hmtu.2
    snd_pos := toNat_pos_of_ne_zero hzero.1
    snd_le := by simpa [KcpConfig.into] using hbig.1
    rcv_pos := toNat_pos_of_ne_zero hzero.2
    rcv_le := by simpa [KcpConfig.into] using hbig.2
    interval_pos := toNat_pos_of_ne_zero hinterval
    retries_pos := toNat_pos_of_ne_zero hretries }

end kcp_tokio.config
