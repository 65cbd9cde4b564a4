import Kcp.Network.Round

/-! What a run of calls does to one side, and to the pair it belongs to. -/

open kcp_core.protocol kcp_core.config kcp_core.error kcp_core.engine
open kcp_core.engine.KcpEngine Trace

namespace kcp_core.network

namespace Endpoint

variable (p : Endpoint) (ops : List Op)

/-- The endpoint makes its calls on its engine. -/
theorem run_engine : (run step p ops).engine = run KcpEngine.step p.engine ops := by
  induction ops generalizing p with
  | nil => rfl
  | cons op ops ih => exact ih (p.step op)

/-- What is offered to the engine is recorded as sent. -/
theorem run_sent : (run step p ops).sent = p.sent ++ ops.flatMap offered := by
  induction ops generalizing p with
  | nil => exact (List.append_nil _).symm
  | cons op ops ih => exact (ih (p.step op)).trans (List.append_assoc ..)

/-- What `recv` returns is recorded as received. -/
theorem run_received : (run step p ops).received = p.received ++ log KcpEngine.step returned p.engine ops := by
  induction ops generalizing p with
  | nil => exact (List.append_nil _).symm
  | cons op ops ih => exact (ih (p.step op)).trans (List.append_assoc ..)

/-- What is drained is recorded on the wire. -/
theorem run_wire : (run step p ops).wire = p.wire ++ log KcpEngine.step drained p.engine ops := by
  induction ops generalizing p with
  | nil => exact (List.append_nil _).symm
  | cons op ops ih => exact (ih (p.step op)).trans (List.append_assoc ..)

end Endpoint

/-- Whatever a side is fed, it stays on record. -/
theorem recorded_run (start : Start) (ops : List Op) :
    ∃ log n, Recorded start.config.into log n (run Endpoint.step (.fresh start) ops) := by
  induction ops using List.reverseRecOn with
  | nil => exact ⟨[], 0, recorded_fresh start⟩
  | append_singleton ops op ih =>
    obtain ⟨log, n, h⟩ := ih
    obtain ⟨k, m, hmoved, _⟩ := moved_step h.ledger.count (h.rcv_le start.accepted) (h.rcv_pos start.accepted) op
    rw [run_concat]
    exact ⟨_, m, h.step start.accepted op hmoved⟩

/-! ### In the pair -/

/-- What one side can be made to do, call by call, is a run of the pair. -/
theorem Net.run_a (self : Net) (ops : List Op) (h : ∀ op ∈ ops, Feasible self.b op) :
    ∃ events, run Net.step self events = { self with a := run Endpoint.step self.a ops } := by
  induction ops generalizing self with
  | nil => exact ⟨[], rfl⟩
  | cons op ops ih =>
    have hfirst : ∃ event, self.step event = { self with a := self.a.step op } := by
      rcases h op List.mem_cons_self with hlocal | ⟨now, data, hdata, rfl⟩
      · exact ⟨.call .a ⟨op, hlocal⟩, rfl⟩
      · obtain ⟨i, hi⟩ := List.mem_iff_getElem?.mp hdata
        refine ⟨.deliver .a i now, ?_⟩
        simp only [Net.step, hi]
    obtain ⟨event, hevent⟩ := hfirst
    obtain ⟨events, hrest⟩ := ih { self with a := self.a.step op } fun other hother => h other (List.mem_cons_of_mem _ hother)
    refine ⟨event :: events, ?_⟩
    rw [run_cons, hevent, hrest]
    rfl

/-- Calls that are possible for `b` are a run of the network. -/
theorem Net.run_b (self : Net) (ops : List Op) (h : ∀ op ∈ ops, Feasible self.a op) :
    ∃ events, run Net.step self events = { self with b := run Endpoint.step self.b ops } := by
  obtain ⟨events, hrun⟩ := self.swap.run_a ops h
  refine ⟨events.map Event.swap, ?_⟩
  have hswap := self.swap.swap_run events
  rw [hrun] at hswap
  exact hswap

theorem Pair.reached_append (pair : Pair) (events more : List Event) :
    pair.reached (events ++ more) = run Net.step (pair.reached events) more := run_append ..

/-! ### What has arrived -/

/-- The bytes received at `b` are the first of those sent at `a`, in message mode and in stream
mode. -/
theorem received_bytes (pair : Pair) (events : List Event) (hok : (pair.reached events).a.refused = 0)
    (hcount : (pair.reached events).a.numbered < 2 ^ 31) :
    (pair.reached events).b.received.flatten <+: (pair.reached events).a.sent.flatten := by
  obtain ⟨log, na, blog, n, ha, hb, hlink⟩ := pair.linked events
  rw [ha.numbered] at hcount
  obtain ⟨fs, h⟩ := hlink hcount
  cases hmode : (pair.reached events).a.engine.config.stream_mode with
  | false =>
    have hall := congrArg List.flatten (h.message hok hmode)
    rw [List.flatten_filter_not_isEmpty, List.flatten_append] at hall
    rw [hall]
    exact List.prefix_append ..
  | true =>
    rw [h.stream hok hmode]
    exact List.prefix_append ..

/-- With nothing left at `a`, the rest of its bytes can be received at `b`. -/
theorem rest_of_settled (pair : Pair) (events : List Event)
    (hwnd : min pair.a.config.rcv_wnd.toNat 128 ≤ pair.b.config.rcv_wnd.toNat)
    (hok : (pair.reached events).a.refused = 0) (hcount : (pair.reached events).a.numbered < 2 ^ 31)
    (hdone : (pair.reached events).a.engine.has_unsent_data = false) :
    ∃ fuel rest, recv_until_none fuel (pair.reached events).b.engine = some rest ∧
      (pair.reached events).b.received.flatten ++ rest.flatten = (pair.reached events).a.sent.flatten := by
  obtain ⟨log, na, blog, n, ha, hb, hlink⟩ := pair.linked events
  rw [ha.numbered] at hcount
  obtain ⟨fs, h⟩ := hlink hcount
  obtain ⟨hbuf, hqueue⟩ := Nat.add_eq_zero_iff.mp ((has_unsent_data_iff _).mp hdone)
  have hmost : max_frags pair.a.config.into ≤ pair.b.config.rcv_wnd.toNat := by
    unfold max_frags
    rw [Word.toNat_min]
    exact hwnd
  refine ⟨fs.length + 1, fs.map Fragment.joined, ?_, ?_⟩
  · exact recv_until_none_link ha hmost hcount (List.length_eq_zero_iff.mp hqueue) (List.length_eq_zero_iff.mp hbuf) fs _ blog n _
      hb h (Nat.lt_succ_self _)
  · cases hmode : (pair.reached events).a.engine.config.stream_mode with
    | false =>
      have hall := congrArg List.flatten (h.message hok hmode)
      rw [List.flatten_filter_not_isEmpty, List.flatten_append] at hall
      exact hall.symm
    | true => exact (h.stream hok hmode).symm

end kcp_core.network
