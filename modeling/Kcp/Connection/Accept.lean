import Kcp.Stream.Send
import Kcp.Actor.Launch

/-! What is written to a stream, against what its engine accepts. -/

open Mpsc kcp_core.protocol kcp_core.error kcp_core.engine kcp_tokio.stream kcp_tokio.actor

namespace kcp_tokio.connection

/-- The call is not one that the engine rejects data in. -/
def Takes (e : KcpEngine) (op : Op) : Prop := ∀ clk data, op = .send clk data → (e.send clk data).2 = .ok ()

/-- The stream has handed the data over, or its `send` would let it pass. -/
def Offered (s : MessageStream) (data : Bytes) : Prop := s.Handed data ∨ data.length ≤ s.max_msg

/-- Whatever is written to a stream with accepted settings, the engine with these settings
takes what the stream places in its channel, cuts off a buffer or lets pass, in every state it
can reach. So no run of the task that writes such data has the engine reject any. -/
theorem writes_accepted (launch : Launch) (calls : List Outgoing) :
    (∀ data, Offered (.reached launch.start.config.toKcpConfig calls) data →
        ∀ ops clk, ((launch.start.reached ops).send clk data).2 = .ok ()) ∧
      ∀ events : List actor.Event,
        (∀ event ∈ events, ∀ data ∈ event.writes, Offered (.reached launch.start.config.toKcpConfig calls) data) →
          Trace.Always Actor.step (fun a event => Trace.Always KcpEngine.step Takes a.engine (a.calls event)) launch.task events := by
  have hrcv : 0 < launch.start.config.rcv_wnd.toNat := launch.start.accepted.rcv_pos
  obtain ⟨hchunked, hmax⟩ := chunked_run launch.start.config.toKcpConfig hrcv calls
  have haccepted : ∀ data, Offered (.reached launch.start.config.toKcpConfig calls) data →
      ∀ ops clk, ((launch.start.reached ops).send clk data).2 = .ok () := by
    rintro data (hhanded | hshort) ops clk
    · exact send_of_length_le launch.start ops clk (hchunked.handed (mss_le_max_msg hrcv) hhanded)
    · exact send_of_length_le launch.start ops clk (hmax ▸ hshort)
  refine ⟨haccepted, fun events hevents => ?_⟩
  induction events using List.reverseRecOn with
  | nil => trivial
  | append_singleton events event ih =>
    rw [Trace.always_concat]
    refine ⟨ih fun other hother => hevents other (List.mem_append_left _ hother), ?_⟩
    obtain ⟨ops, hengine⟩ := launch.exists_reached events
    rw [hengine]
    refine Trace.always_of_reached (fun more op hop clk data heq => ?_) ops
    have hwrite := Actor.sendsFrom_calls _ event op hop clk data heq
    exact haccepted data (hevents event (List.mem_append_right _ (List.mem_singleton.mpr rfl)) data hwrite) more clk

/-- A message is sent, and the task of a client takes it. -/
theorem writes_accepted_one :
    Trace.Always Actor.step (fun a event => Trace.Always KcpEngine.step Takes a.engine (a.calls event))
      (Launch.client plain none (.new Bytes 256) 0 0 (.at 0) fun _ => 0).task [.write (some (.at 0, [1, 2])) [] (.at 0)] := by
  refine (writes_accepted (.client plain none (.new Bytes 256) 0 0 (.at 0) fun _ => 0) [.send [1, 2] false]).2 _ ?_
  intro event hevent data hdata
  rw [List.mem_singleton.mp hevent] at hdata
  rw [List.mem_singleton.mp hdata]
  exact .inl (.inl (by decide +kernel))

end kcp_tokio.connection
