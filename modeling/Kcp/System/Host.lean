import Kcp.Network.Endpoint
import Kcp.Actor.Backpressure
import Kcp.Connection.Bytes

/-! One end of a connection: the stream, its task, and the datagrams that have left it. It does
what an engine with the history of its calls does. -/

open Mpsc kcp_core.protocol kcp_core.config kcp_core.error kcp_core.engine kcp_core.network
open kcp_tokio.stream kcp_tokio.actor kcp_tokio.connection

namespace kcp_core.network

open KcpEngine

/-- The numbers that messages take, if none of them is merged into another. -/
def pieces (mss : Nat) (messages : List Bytes) : Nat := (messages.map fun data => fragment_count mss data.length).sum

theorem pieces_append (mss : Nat) (first second : List Bytes) :
    pieces mss (first ++ second) = pieces mss first + pieces mss second := by
  rw [pieces, List.map_append, List.sum_append]
  rfl

/-- Fewer messages take fewer numbers. -/
theorem pieces_of_prefix (mss : Nat) {first second : List Bytes} (h : first <+: second) : pieces mss first ≤ pieces mss second := by
  obtain ⟨rest, rfl⟩ := h
  rw [pieces_append]
  exact Nat.le_add_right ..

/-- Longer data takes no fewer fragments. -/
theorem fragment_count_mono {mss : Nat} (hmss : 0 < mss) {first second : Nat} (h : first ≤ second) :
    fragment_count mss first ≤ fragment_count mss second := by
  unfold fragment_count
  split_ifs
  · exact Nat.le_refl 1
  · exact (Nat.one_le_div_iff hmss).mpr (by omega)
  · omega
  · exact Nat.div_le_div_right (by omega)

/-- Data adds at most its fragments to the queue. -/
theorem length_snd_queue_send (e : KcpEngine) (hmss : 0 < e.mss.toNat) (data : Bytes) (clk : Clock) :
    (e.send clk data).1.snd_queue.length ≤ e.snd_queue.length + fragment_count e.mss.toNat data.length := by
  rcases e.send_cases clk data with ⟨_, hqueue, _⟩ | ⟨_, hqueue, _⟩ | ⟨_, _, hqueue, _⟩
  · rw [hqueue]
    exact Nat.le_add_right ..
  · rw [hqueue, length_merged]
    exact Nat.le_add_right ..
  · have hrest := fragment_count_mono hmss (List.length_drop ▸ Nat.sub_le data.length (e.merged data).2)
    rw [hqueue, List.length_append, length_merged, fragments, length_fragment_loop]
    exact Nat.add_le_add_left hrest _

/-- No data was rejected, and no piece of it took more than one number. -/
structure Light (mss : Nat) (p : Endpoint) : Prop where
  accepted : p.refused = 0
  few : load p ≤ pieces mss p.sent

/-- A call that offers data within the limit is accepted, and takes no more numbers than its
fragments. -/
theorem light_step {start : Start} {ops : List Op}
    (h : Light (KcpStream.new start.config.toKcpConfig).mss (Trace.run Endpoint.step (.fresh start) ops)) {op : Op}
    (hop : ∀ clk data, op = .send clk data → data.length ≤ (MessageStream.new start.config.toKcpConfig).max_msg) :
    Light (KcpStream.new start.config.toKcpConfig).mss ((Trace.run Endpoint.step (.fresh start) ops).step op) := by
  obtain ⟨log, n, hrecorded⟩ := recorded_run start ops
  have hengine : (Trace.run Endpoint.step (.fresh start) ops).engine = start.reached ops := Endpoint.run_engine ..
  generalize Trace.run Endpoint.step (.fresh start) ops = p at *
  by_cases hsend : ∃ clk data, op = .send clk data
  · obtain ⟨clk, data, rfl⟩ := hsend
    have hok := send_of_length_le start ops clk (hop clk data rfl)
    have hmss : 0 < p.engine.mss.toNat := hengine ▸ (start.origin.mtu_eq ops).2
    have hqueue := length_snd_queue_send p.engine hmss data clk
    have hsize : (KcpStream.new start.config.toKcpConfig).mss = p.engine.mss.toNat := hengine ▸ mss_eq start ops
    rw [← hengine] at hok
    constructor
    · change p.refused + refusals p.engine (.send clk data) = 0
      simp only [refusals, hok, h.accepted]
    · have hnone : p.engine.numbers (.send clk data) = 0 := by
        unfold numbers
        have hsame : (p.engine.step (.send clk data)).snd_nxt = p.engine.snd_nxt := by
          change (p.engine.send clk data).1.snd_nxt = _
          rw [send_eq]
          split_ifs <;> rfl
        rw [hsame, Serial.offset_self]
      have hone : pieces p.engine.mss.toNat [data] = fragment_count p.engine.mss.toNat data.length := Nat.add_zero _
      have hfew := h.few
      rw [hsize] at hfew ⊢
      unfold load at hfew ⊢
      change p.numbered + p.engine.numbers (.send clk data) + (p.engine.send clk data).1.snd_queue.length ≤
        pieces p.engine.mss.toNat (p.sent ++ [data])
      rw [hnone, pieces_append, hone]
      omega
  · have hnone : ∀ clk data, op ≠ .send clk data := fun clk data heq => hsend ⟨clk, data, heq⟩
    obtain ⟨hsent, hrefused, hload⟩ := offer_step hrecorded start.accepted hnone
    exact ⟨hrefused.trans h.accepted, by rw [hload, hsent]; exact h.few⟩

/-- Calls that stay within the limit are accepted, and take no more numbers than their fragments. -/
theorem light_run {start : Start} {ops more : List Op}
    (h : Light (KcpStream.new start.config.toKcpConfig).mss (Trace.run Endpoint.step (.fresh start) ops))
    (hops : ∀ op ∈ more, ∀ clk data, op = .send clk data → data.length ≤ (MessageStream.new start.config.toKcpConfig).max_msg) :
    Light (KcpStream.new start.config.toKcpConfig).mss (Trace.run Endpoint.step (.fresh start) (ops ++ more)) := by
  induction more generalizing ops with
  | nil =>
    rw [List.append_nil]
    exact h
  | cons op more ih =>
    rw [← List.singleton_append, ← List.append_assoc]
    apply ih
    · rw [Trace.run_concat]
      exact light_step h (hops op List.mem_cons_self)
    · exact fun other hother => hops other (List.mem_cons_of_mem _ hother)

end kcp_core.network

namespace kcp_tokio.system

/-- A stream with its task, and all the datagrams that the task has given to the transport. -/
structure Host where
  connection : Connection
  wire : List Bytes

namespace Host

/-- A new stream with this engine. -/
def launch (config : config.KcpConfig) (engine : KcpEngine) (boot : Boot) : Host where
  connection := .launch config engine boot
  wire := Trace.log KcpEngine.step drained engine
    (start_calls engine (.new Bytes DATA_CHANNEL_CAPACITY) boot.now boot.clk boot.pace)

def step (self : Host) (event : connection.Event) : Host where
  connection := self.connection.step event
  wire := self.wire ++ Trace.log KcpEngine.step drained self.connection.actor.engine (self.connection.calls event)

/-! ### As one side of the network -/

/-- The endpoint has made the calls of the task: it was given what the stream has passed on, and
returned what the task has placed in the data channel. -/
structure Backed (start : Start) (host : Host) (p : Endpoint) : Prop where
  reached : ∃ ops, p = Trace.run Endpoint.step (.fresh start) ops
  engine : p.engine = host.connection.actor.engine
  sent : p.sent = host.connection.passed
  received : p.received = host.connection.actor.data_tx.sent
  wire : p.wire = host.wire
  light : Light (KcpStream.new start.config.toKcpConfig).mss p

variable {start : Start} {host : Host} {p : Endpoint}

/-- The stream cuts and limits what is written as one with these settings does. -/
def Lined (start : Start) (host : Host) : Prop :=
  Connection.Lined (KcpStream.new start.config.toKcpConfig).mss (MessageStream.new start.config.toKcpConfig).max_msg host.connection

/-- A stream is launched with nothing to pass on. -/
theorem lined_launch (start : Start) (engine : KcpEngine) (boot : Boot) :
    Lined start (launch start.config.toKcpConfig engine boot) := Connection.lined_new ..

/-- A stream passes on only what was written to it, in order. -/
theorem lined_step (h : Lined start host) (event : connection.Event) : Lined start (host.step event) :=
  Connection.lined_step (mss_le_max_msg start.accepted.rcv_pos) h event

/-- The calls that an event comes to are calls of the endpoint. -/
theorem Backed.step (h : Backed start host p) (hlined : Lined start host) (event : connection.Event) :
    Backed start (host.step event) (Trace.run Endpoint.step p (host.connection.calls event)) := by
  obtain ⟨⟨ops, rfl⟩, hengine, hsent, hreceived, hwire, hlight⟩ := h
  have hmakes := host.connection.makes_step event
  refine ⟨⟨ops ++ host.connection.calls event, (Trace.run_append ..).symm⟩, ?_, ?_, ?_, ?_, ?_⟩
  · rw [Endpoint.run_engine, hengine]
    exact hmakes.engine
  · rw [Endpoint.run_sent, hsent]
    exact hmakes.passed.symm
  · rw [Endpoint.run_received, hengine, hreceived]
    exact hmakes.placed.symm
  · rw [Endpoint.run_wire, hengine, hwire]
    rfl
  · rw [← Trace.run_append]
    exact light_run hlight (Connection.Lined.offered (mss_le_max_msg start.accepted.rcv_pos) hlined event)

/-- A stream whose engine has received at most. -/
theorem backed_launch (start : Start) (before : List Op) (hquiet : ∀ op ∈ before, op.NoSend)
    (hreturned : messages start.fresh before = []) (hdrained : Trace.log KcpEngine.step drained start.fresh before = [])
    (boot : Boot) : ∃ calls, Backed start (launch start.config.toKcpConfig (start.reached before) boot)
      (Trace.run Endpoint.step (.fresh start) (before ++ calls)) ∧ ∀ op ∈ calls, is_local op = true := by
  obtain ⟨calls, hcalls⟩ : ∃ calls, calls =
      start_calls (start.reached before) (.new Bytes DATA_CHANNEL_CAPACITY) boot.now boot.clk boot.pace := ⟨_, rfl⟩
  have hlocal : ∀ op ∈ calls, is_local op = true ∧ op.NoSend := by
    intro op hmem
    rw [hcalls] at hmem
    rcases List.mem_append.mp hmem with hmem | hmem
    · rcases List.mem_pair.mp hmem with rfl | rfl <;> exact ⟨rfl, trivial⟩
    · rw [mem_drain_calls hmem]
      exact ⟨rfl, trivial⟩
  have hnone : ∀ op ∈ before ++ calls, op.NoSend := fun op hmem =>
    (List.mem_append.mp hmem).elim (hquiet op) fun h => (hlocal op h).2
  refine ⟨calls, ⟨⟨_, rfl⟩, ?_, ?_, ?_, ?_, ?_⟩, fun op hmem => (hlocal op hmem).1⟩
  · rw [Endpoint.run_engine, Trace.run_append, hcalls]
    exact Actor.run_start_calls ..
  · rw [Endpoint.run_sent, Actor.offered_of_noSend hnone]
    rfl
  · rw [Endpoint.run_received]
    change [] ++ messages start.fresh (before ++ calls) = _
    rw [messages_append, hreturned, hcalls, List.nil_append]
    exact (Actor.sent_start (.new start.config.toKcpConfig boot.keep_alive_ms) (start.reached before)
      (.new Bytes DATA_CHANNEL_CAPACITY) boot.last_probe boot.now boot.clk boot.pace).symm
  · rw [Endpoint.run_wire, Trace.log_append]
    change [] ++ (Trace.log KcpEngine.step drained start.fresh before ++ _) = _
    rw [hdrained, hcalls]
    rfl
  · have hfresh : Light (KcpStream.new start.config.toKcpConfig).mss (Trace.run Endpoint.step (.fresh start) []) :=
      ⟨rfl, Nat.le_refl 0⟩
    apply light_run hfresh
    rintro op hmem clk data rfl
    exact (hnone _ hmem).elim

end Host

end kcp_tokio.system
