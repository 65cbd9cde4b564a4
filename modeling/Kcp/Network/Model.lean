import Kcp.Engine.Ledger

open kcp_core.protocol kcp_core.config kcp_core.error kcp_core.engine
open kcp_core.engine.KcpEngine

/-! Two engines and the network between them. The network keeps every datagram that was
ever drained, and hands any of them to the other side at any time: one it never hands
over is lost, one it hands over twice is duplicated. -/

namespace kcp_core.network

/-! ### One side -/

/-- The data a call passes to `send`. -/
def offered : Op → List Bytes
  | .send _ data => [data]
  | _ => []

/-- How often a call to `send` returns an error. -/
def refusals (e : KcpEngine) : Op → Nat
  | .send clk data =>
    match (e.send clk data).2 with
    | .ok _ => 0
    | .error _ => 1
  | _ => 0

/-- The data a call to `recv` returns. -/
def returned (e : KcpEngine) : Op → List Bytes
  | .recv =>
    match e.recv.2 with
    | .ok (some data) => [data]
    | _ => []
  | _ => []

/-- The datagrams a call hands to the network. -/
def drained (e : KcpEngine) : Op → List Bytes
  | .drain_output => e.drain_output.2
  | _ => []

/-- An engine with the history of its calls: the data passed to `send`, how many of these
calls failed, what `recv` returned, how many segments were numbered, and all datagrams
drained so far. -/
structure Endpoint where
  engine : KcpEngine
  sent : List Bytes
  refused : Nat
  received : List Bytes
  numbered : Nat
  wire : List Bytes

namespace Endpoint

def fresh (start : Start) : Endpoint where
  engine := start.fresh
  sent := []
  refused := 0
  received := []
  numbered := 0
  wire := []

def step (self : Endpoint) (op : Op) : Endpoint where
  engine := self.engine.step op
  sent := self.sent ++ offered op
  refused := self.refused + refusals self.engine op
  received := self.received ++ returned self.engine op
  numbered := self.numbered + self.engine.numbers op
  wire := self.wire ++ drained self.engine op

end Endpoint

/-! ### Both sides -/

/-- A call that the application of one side makes by itself: neither an `input`, which
only the network makes, nor a change of the conversation. -/
def is_local : Op → Bool
  | .input .. => false
  | .set_conv _ => false
  | _ => true

theorem is_local_send (clk : Clock) (data : Bytes) : is_local (.send clk data) = true := rfl

theorem is_local_flush (clk : Clock) : is_local (.flush clk) = true := rfl

theorem is_local_drain_output : is_local .drain_output = true := rfl

theorem is_local_recv : is_local .recv = true := rfl

abbrev Call := { op : Op // is_local op = true }

inductive Side where
  | a
  | b
  deriving DecidableEq, Repr

/-- A call on one side, or the delivery to one side of a datagram the other has drained,
given by its place in the order of draining. -/
inductive Event where
  | call (side : Side) (op : Call)
  | deliver (side : Side) (i : Nat) (now : Timestamp)

structure Net where
  a : Endpoint
  b : Endpoint

namespace Net

def step (self : Net) : Event → Net
  | .call .a op => { self with a := self.a.step op.val }
  | .call .b op => { self with b := self.b.step op.val }
  | .deliver .a i now =>
    match self.b.wire[i]? with
    | some data => { self with a := self.a.step (.input now data) }
    | none => self
  | .deliver .b i now =>
    match self.a.wire[i]? with
    | some data => { self with b := self.b.step (.input now data) }
    | none => self

/-- What one side can be made to do: a call of its own, or the input of a datagram that
the other side has drained. -/
def Feasible (other : Endpoint) (op : Op) : Prop :=
  is_local op = true ∨ ∃ now, ∃ data ∈ other.wire, op = .input now data

/-- One event is one feasible step of one side, or nothing. -/
theorem step_rule {P : Net → Prop} {self : Net} (event : Event) (hsame : P self)
    (ha : ∀ op, Feasible self.b op → P { self with a := self.a.step op })
    (hb : ∀ op, Feasible self.a op → P { self with b := self.b.step op }) : P (self.step event) := by
  cases event with
  | call side op =>
    cases side with
    | a => exact ha op.val (.inl op.property)
    | b => exact hb op.val (.inl op.property)
  | deliver side i now =>
    cases side with
    | a =>
      cases hwire : self.b.wire[i]? with
      | none =>
        simp only [step, hwire]
        exact hsame
      | some data =>
        simp only [step, hwire]
        exact ha _ (.inr ⟨now, data, List.mem_of_getElem? hwire, rfl⟩)
    | b =>
      cases hwire : self.a.wire[i]? with
      | none =>
        simp only [step, hwire]
        exact hsame
      | some data =>
        simp only [step, hwire]
        exact hb _ (.inr ⟨now, data, List.mem_of_getElem? hwire, rfl⟩)

end Net

/-- Two new engines with the same conversation. -/
structure Pair where
  a : Start
  b : Start
  same_conv : b.conv = a.conv

def Pair.fresh (pair : Pair) : Net := ⟨.fresh pair.a, .fresh pair.b⟩

/-- The two sides after the events `events`, in order. -/
def Pair.reached (pair : Pair) (events : List Event) : Net := Trace.run Net.step pair.fresh events

/-- A run of one event more. -/
@[simp] theorem Pair.reached_concat (pair : Pair) (events : List Event) (event : Event) :
    pair.reached (events ++ [event]) = (pair.reached events).step event := Trace.run_concat ..

/-! ### The record of one side -/

/-- What is known of one side, whatever it was fed: its engine has numbered the fragments of
`log` and accepted `n` segments, and all it ever drained is still true. -/
structure Recorded (c : KcpCoreConfig) (log : List Fragment) (n : Nat) (p : Endpoint) : Prop where
  set : Configured c p.engine
  ledger : Ledger log n p.engine
  numbered : p.numbered = log.length
  wire : ∀ data ∈ p.wire, Carries (Says log n p.engine) data

variable {c : KcpCoreConfig} {log : List Fragment} {n : Nat} {p : Endpoint}

/-- Accepted settings bound the send window. -/
theorem Recorded.snd_le (h : Recorded c log n p) (hc : kcp_tokio.config.Accepted c) : p.engine.wnd.snd.toNat ≤ 65535 := by
  rw [h.set.snd]
  exact hc.snd_le

theorem Recorded.rcv_le (h : Recorded c log n p) (hc : kcp_tokio.config.Accepted c) : p.engine.wnd.rcv.toNat ≤ 65535 := by
  rw [h.set.rcv]
  exact hc.rcv_le

theorem Recorded.rcv_pos (h : Recorded c log n p) (hc : kcp_tokio.config.Accepted c) : 0 < p.engine.wnd.rcv.toNat := by
  rw [h.set.rcv]
  exact hc.rcv_pos

theorem Recorded.mss_pos (h : Recorded c log n p) (hc : kcp_tokio.config.Accepted c) : 0 < p.engine.mss.toNat := by
  have := mss_bounds h.set hc
  omega

/-- As many fragments enter the log as the call numbers. -/
theorem length_news {e : KcpEngine} {op : Op} (h : Sender log e) (hnext : Sender (log ++ news e (e.step op)) (e.step op)) :
    (news e (e.step op)).length = e.numbers op := by
  have hlt := Serial.offset_lt e.snd_nxt (e.step op).snd_nxt
  have hle : (news e (e.step op)).length ≤ e.numbers op := by
    unfold news numbers
    rw [List.length_map, List.length_take]
    exact Nat.min_le_left _ _
  have hoff : e.numbers op = (news e (e.step op)).length := by
    unfold numbers at hle ⊢
    rw [h.nxt, hnext.nxt, List.length_append, offset_ofNat (Nat.le_add_right _ _) (by omega), Nat.add_sub_cancel_left]
  exact hoff.symm

/-- A call adds its news to the log, and what it accepts to the count. -/
theorem Recorded.step (h : Recorded c log n p) (hc : kcp_tokio.config.Accepted c) (op : Op) {k m : Nat}
    (hmoved : Moved p.engine n k m (p.engine.step op)) :
    Recorded c (log ++ news p.engine (p.engine.step op)) m (p.step op) := by
  have hledger := ledger_step h.ledger (h.mss_pos hc) (h.snd_le hc) op hmoved
  refine ⟨configured_step h.set op, hledger, ?_, ?_⟩
  · change p.numbered + p.engine.numbers op = _
    rw [List.length_append, length_news h.ledger.sender hledger.sender, h.numbered]
  · intro data hdata
    have hsays : Carries (Says log n p.engine) data := by
      rcases List.mem_append.mp hdata with hold | hnew
      · exact h.wire data hold
      · cases op with
        | drain_output => exact h.ledger.packed.queue data hnew
        | _ => cases hnew
    exact hsays.mono fun _ _ hsays => hsays.mono _ hmoved.le hmoved.kept

/-- A new engine has no history. -/
theorem recorded_fresh (start : Start) : Recorded start.config.into [] 0 (.fresh start) where
  set := start.configured []
  ledger := ledger_new ..
  numbered := rfl
  wire := by simp [Endpoint.fresh]

end kcp_core.network
