import Kcp.Connection.Closing
import Kcp.System.Delivery

/-! A stream that has been closed and has nothing unsent has lost nothing. -/

open Mpsc kcp_core.protocol kcp_core.config kcp_core.error kcp_core.engine kcp_core.network
open kcp_tokio.stream kcp_tokio.actor kcp_tokio.connection kcp_tokio.listener

namespace kcp_tokio.system

open Connection (Emptied)

namespace System

/-- Nothing is written to an open stream once its task has been asked to close. -/
def Stops (self : System) : Event → Prop
  | .client event => self.client.connection.Stops event
  | .server event => ∀ host ∈ self.server, host.connection.Stops event
  | .accept .. => True

instance decidableStops (self : System) : (event : Event) → Decidable (self.Stops event)
  | .client event => inferInstanceAs (Decidable (self.client.connection.Stops event))
  | .server event => inferInstanceAs (Decidable (∀ host ∈ self.server, host.connection.Stops event))
  | .accept .. => .isTrue trivial

end System

variable {start : Start} {s : System}

/-- At neither end a task closes with something left to take. -/
structure Drains (s : System) : Prop where
  client : Emptied s.client.connection
  server : ∀ host ∈ s.server, Emptied host.connection

/-- A new task does not close. -/
theorem emptied_launch (config : config.KcpConfig) (engine : KcpEngine) (boot : Boot) :
    Emptied (Host.launch config engine boot).connection := fun hclosing => by cases hclosing

/-- A step of either side, or `accept`, leaves it so at both ends. -/
theorem drains_step (hjoint : Joint start s) (h : Drains s) {event : Event} (hstops : s.Stops event) : Drains (s.step event) := by
  unfold System.step
  split_ifs with hpossible
  · cases event with
    | client event => exact ⟨Connection.emptied_step h.client hjoint.lined hstops, h.server⟩
    | server event =>
      refine ⟨h.client, fun host hhost => ?_⟩
      obtain ⟨before, hbefore, rfl⟩ := Option.map_eq_some_iff.mp hhost
      rcases hjoint.matched with ⟨_, hnone, _⟩ | ⟨_, _, other, hsome, _, _, _, _, hlined⟩
      · rw [hnone] at hbefore
        cases hbefore
      · obtain rfl := Option.some.inj (hbefore.symm.trans hsome)
        exact Connection.emptied_step (h.server before hbefore) hlined (hstops before hbefore)
    | accept packet arrival r boot =>
      change Drains (s.accept packet arrival r boot)
      unfold System.accept
      split
      · split
        · refine ⟨h.client, fun host hhost => ?_⟩
          cases hhost
          exact emptied_launch _ _ _
        · exact h
      · exact h
  · exact h

/-- The listener keeps its settings. -/
theorem settings_step (s : System) (event : Event) : (s.step event).settings = s.settings := by
  unfold System.step
  split_ifs
  · cases event with
    | client event => rfl
    | server event => rfl
    | accept packet arrival r boot =>
      change (s.accept packet arrival r boot).settings = _
      unfold System.accept
      split
      · split <;> rfl
      · rfl
  · rfl

/-- What `rest` holds is still in the engine, for the calls of `recv` that return nothing else. -/
def Holds (engine : KcpEngine) (rest : List Bytes) : Prop := ∃ fuel, recv_until_none fuel engine = some rest

/-- Once a closing task has nothing unsent, all that was written at its end has reached the other:
it has been placed in the data channel there, or its engine returns it without another datagram.
A task leaves its loop in this state, unless its time has run out. -/
theorem close_loses_nothing (start : Start) (hconv : start.conv ≠ 0) (settings : listener.Settings) (boot : Boot)
    (events : List Event) (hstops : Trace.Always System.step System.Stops (.new start settings boot) events)
    (hfew : Few (Trace.run System.step (.new start settings boot) events)) (host : Host)
    (hserver : (Trace.run System.step (.new start settings boot) events).server = some host) :
    (min start.config.rcv_wnd.toNat 128 ≤ settings.config.rcv_wnd.toNat →
      (Trace.run System.step (.new start settings boot) events).client.connection.actor.closing = true →
      (Trace.run System.step (.new start settings boot) events).client.connection.actor.engine.has_unsent_data = false →
      ∃ rest, Holds host.connection.actor.engine rest ∧
        host.connection.actor.data_tx.sent.flatten ++ rest.flatten =
          (Trace.run System.step (.new start settings boot) events).client.connection.stream.send_tx.sent.flatten) ∧
    (min settings.config.rcv_wnd.toNat 128 ≤ start.config.rcv_wnd.toNat → host.connection.actor.closing = true →
      host.connection.actor.engine.has_unsent_data = false →
      ∃ rest, Holds (Trace.run System.step (.new start settings boot) events).client.connection.actor.engine rest ∧
        (Trace.run System.step (.new start settings boot) events).client.connection.actor.data_tx.sent.flatten ++ rest.flatten =
          host.connection.stream.send_tx.sent.flatten) := by
  have hjoint := joint_run hconv settings boot events
  obtain ⟨hdrains, hsettings⟩ : Drains (Trace.run System.step (.new start settings boot) events) ∧
      (Trace.run System.step (.new start settings boot) events).settings = settings := by
    refine Trace.invariant_of_always (fun _ s => Drains s ∧ s.settings = settings) ?_ ?_ hstops
    · exact ⟨⟨emptied_launch _ _ _, fun _ h => by cases h⟩, rfl⟩
    · rintro before event ⟨h, hsettings⟩ hstop
      exact ⟨drains_step (joint_run hconv settings boot before) h hstop, (settings_step _ event).trans hsettings⟩
  generalize Trace.run System.step (.new start settings boot) events = s at *
  rcases hjoint.matched with ⟨_, hnone, _⟩ | ⟨pair, more, other, hsome, rfl, hclient, hback, hconfig, hlined⟩
  · rw [hnone] at hserver
    cases hserver
  · obtain rfl := Option.some.inj (hserver.symm.trans hsome)
    rw [hsettings] at hconfig
    obtain ⟨hfew_client, hfew_server⟩ := hfew
    constructor
    · intro hwnd hclosing hdone
      obtain ⟨fuel, rest, hrest, hbytes⟩ := rest_of_settled pair more (by rw [hconfig]; exact hwnd) hclient.light.accepted
        (hclient.few hjoint.lined hfew_client) (by rw [hclient.engine]; exact hdone)
      rw [hback.engine] at hrest
      rw [hback.received, hclient.sent, (hdrains.client hclosing).passed] at hbytes
      exact ⟨rest, ⟨fuel, hrest⟩, hbytes⟩
    · intro hwnd hclosing hdone
      have hswap := pair.reached_swap more
      obtain ⟨fuel, rest, hrest, hbytes⟩ := rest_of_settled pair.swap (more.map Event.swap)
        (by change min pair.b.config.rcv_wnd.toNat 128 ≤ _; rw [hconfig]; exact hwnd)
        (by rw [hswap]; exact hback.light.accepted) (by rw [hswap]; exact hback.few hlined (hfew_server host hserver))
        (by rw [hswap]; exact hback.engine ▸ hdone)
      rw [hswap] at hrest hbytes
      change recv_until_none fuel (pair.reached more).a.engine = _ at hrest
      change (pair.reached more).a.received.flatten ++ _ = (pair.reached more).b.sent.flatten at hbytes
      rw [hclient.engine] at hrest
      rw [hclient.received, hback.sent, (hdrains.server host hserver hclosing).passed] at hbytes
      exact ⟨rest, ⟨fuel, hrest⟩, hbytes⟩

/-- After both messages have been sent, the client shuts down; its datagram opens a stream, which has
read one of them, and the acknowledgement comes back. -/
def first_close : List Event :=
  first_write ++ [.client (.poll_shutdown false false), .client (.advance quiet), .client (.advance quiet)] ++ first_read

/-- The acknowledgement arrives. -/
def acknowledged : List Event :=
  first_close ++ [.client (.advance quiet), .client (.advance quiet),
    .client (.advance { quiet with
      packet := some (some ((Trace.run System.step (.new plain .default .plain) first_close).returning.headD [])) })]

/-- The messages of a client that is shutting down have arrived when its acknowledgement has. -/
theorem close_loses_nothing_first : ∃ host, (Trace.run System.step (.new plain .default .plain) acknowledged).server = some host ∧
    ∃ rest, Holds host.connection.actor.engine rest ∧
      host.connection.actor.data_tx.sent.flatten ++ rest.flatten =
        (Trace.run System.step (.new plain .default .plain) acknowledged).client.connection.stream.send_tx.sent.flatten := by
  obtain ⟨host, hhost⟩ := Option.isSome_iff_exists.mp
    (show (Trace.run System.step (.new plain .default .plain) acknowledged).server.isSome = true by decide +kernel)
  exact ⟨host, hhost, (close_loses_nothing plain (by decide) .default .plain acknowledged (by decide +kernel) (by decide +kernel) host
    hhost).1 (by decide) (by decide +kernel) (by decide +kernel)⟩

end kcp_tokio.system
