import Kcp.Trace
import Kcp.Engine.Send
import Kcp.Engine.Input
import Kcp.Engine.Flush

open kcp_core.protocol kcp_core.config kcp_core.error

namespace kcp_core.engine

/-- The calls that change an engine, with the clock readings they take. The other
public functions only read. -/
inductive Op where
  | send (clk : Clock) (data : Bytes)
  | recv
  | input (now : Timestamp) (data : Bytes)
  | flush (clk : Clock)
  | update (now : Timestamp) (clk : Clock)
  | keep_alive_probe (clk : Clock)
  | drain_output
  | set_conv (conv : ConvId)

/-- The call hands no data to the engine. -/
def Op.NoSend : Op → Prop
  | .send _ _ => False
  | _ => True

namespace KcpEngine

def step (self : KcpEngine) : Op → KcpEngine
  | .send clk data => (self.send clk data).1
  | .recv => self.recv.1
  | .input now data => (self.input now data).1
  | .flush clk => (self.flush clk).1
  | .update now clk => (self.update now clk).1
  | .keep_alive_probe clk => (self.keep_alive_probe clk).1
  | .drain_output => self.drain_output.1
  | .set_conv conv => self.set_conv conv

end KcpEngine

/-- What a run starts from: a conversation, an accepted configuration, and the two
readings stored at construction. -/
structure Start where
  conv : ConvId
  config : kcp_tokio.config.ValidConfig
  updated : Timestamp
  active : Timestamp

def Start.fresh (start : Start) : KcpEngine :=
  KcpEngine.new start.conv start.config.into start.updated start.active

/-- The engine after the calls `ops`, made in order on a new engine. -/
def Start.reached (start : Start) (ops : List Op) : KcpEngine := Trace.run KcpEngine.step start.fresh ops

@[simp] theorem Start.reached_concat (start : Start) (ops : List Op) (op : Op) :
    start.reached (ops ++ [op]) = (start.reached ops).step op := Trace.run_concat ..

theorem Start.accepted (start : Start) : kcp_tokio.config.Accepted start.config.into :=
  start.config.into_accepted

/-- An engine with the default settings. -/
def plain : Start where
  conv := 7
  config := { kcp_tokio.config.KcpConfig.default with accepted := rfl }
  updated := 0
  active := 0

end kcp_core.engine
