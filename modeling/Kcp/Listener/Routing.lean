import Kcp.Trace
import Kcp.Listener.Handshake

/-! Whom the listener takes for active, and whose datagrams it routes to a stream. The lock
guards the one and not the other. Here each operation is completed before the next begins. -/

open Mpsc Retain kcp_core.protocol kcp_core.error kcp_core.engine kcp_tokio.error

namespace kcp_tokio.listener

variable {A : Type}

/-- The steps until the task waits again, at most. -/
def Listening.left : Listening A → Nat
  | .select => 0
  | .check .. => 4
  | .insert .. => 3
  | .enqueue _ => 2
  | .withdraw _ => 1
  | .remove_dead _ => 2
  | .expire => 1

/-- The steps until `accept` waits again, at most. -/
def Accepting.left : Accepting A → Nat
  | .recv => 0
  | .mark _ => 5
  | .create _ => 4
  | .register .. => 3
  | .route .. => 2
  | .unmark .. => 1

/-- The task with no step left waits for the next packet. -/
theorem Listening.left_eq_zero {listening : Listening A} (h : listening.left = 0) : listening = .select := by
  cases listening <;> first | rfl | cases h

/-- An operation of the listener, from its beginning to its end. `accept` is a turn of its loop.
Between operations the tasks of the streams take packets, and exit. -/
inductive Operation (A : Type) where
  | handle (arrival : Arrival A)
  | accept (r : Readings)
  | remove_active_connection (peer_addr : A)
  | taken (peer_addr : A) (n : Nat)
  | exited (peer_addr : A)

namespace KcpListener

/-! ### Between the operations -/

/-- Neither the task nor `accept` is in the middle of anything. -/
structure Settled (l : KcpListener A) : Prop where
  listening : l.listening = .select
  accepting : l.accepting = .recv

/-- `accept` marks the peer as active, and then routes its packets. It alone marks a peer as
being accepted. -/
structure Consistent (l : KcpListener A) : Prop where
  agrees : ∀ p, p ∈ l.conn_state.active ↔ p ∈ l.active_streams ∨ ∃ stream, l.accepting = .route p stream
  marked : ∀ p, p ∈ l.conn_state.accepting ↔ l.accepting.peer = some p

/-- No active peer has a pending entry, or is about to get one. -/
structure Apart (l : KcpListener A) : Prop where
  distinct : ∀ p ∈ l.conn_state.active, p ∉ l.conn_state.pending
  candidate : ∀ p data client_conv, l.listening = .insert p data client_conv → p ∉ l.conn_state.active

/-- What holds between the operations. -/
structure AtRest (l : KcpListener A) : Prop extends Settled l, Consistent l, Apart l

/-- The peers taken for active are those whose packets are routed to a stream. -/
def RoutingAgrees (self : KcpListener A) : Prop := ∀ p, p ∈ self.conn_state.active ↔ p ∈ self.active_streams

/-- At rest the two tables agree. -/
theorem AtRest.routingAgrees {l : KcpListener A} (h : AtRest l) : l.RoutingAgrees := fun p => by
  simpa [h.accepting] using h.agrees p

variable [DecidableEq A] {l : KcpListener A}

/-! ### Operations -/

def settle (arrival : Arrival A) : Nat → KcpListener A → KcpListener A
  | 0, self => self
  | fuel + 1, self => if self.listening = .select then self else settle arrival fuel (self.listen arrival)

/-- A datagram, or the tick of a cleanup. -/
def handle (self : KcpListener A) (arrival : Arrival A) : KcpListener A := settle arrival 4 (self.listen arrival)

def conclude (r : Readings) : Nat → KcpListener A → KcpListener A
  | 0, self => self
  | fuel + 1, self =>
    match self.accepting with
    | .recv => self
    | _ => conclude r fuel (self.accept r)

def accept_turn (self : KcpListener A) (r : Readings) : KcpListener A := conclude r 5 (self.accept r)

def remove_active_connection (self : KcpListener A) (peer_addr : A) : KcpListener A :=
  { self with conn_state := { self.conn_state with active := self.conn_state.active.erase peer_addr } }

def operate (self : KcpListener A) : Operation A → KcpListener A
  | .handle arrival => self.handle arrival
  | .accept r => self.accept_turn r
  | .remove_active_connection peer_addr => self.remove_active_connection peer_addr
  | .taken peer_addr n => self.taken peer_addr n
  | .exited peer_addr => self.exited peer_addr

/-- A packet takes three more steps at most. -/
theorem left_check (l : KcpListener A) (peer_addr : A) (data : Bytes) : (l.check peer_addr data).left ≤ 3 := by
  unfold check
  split
  · split
    · exact Nat.zero_le _
    · split_ifs <;> first | exact Nat.zero_le _ | exact le_rfl
  · exact Nat.zero_le _

/-- The task comes closer to its end. -/
theorem left_listen (l : KcpListener A) (arrival : Arrival A) :
    (l.listen arrival).listening.left ≤ 4 ∧
      (l.listening ≠ .select → (l.listen arrival).listening.left < l.listening.left) := by
  unfold listen
  cases hat : l.listening with
  | select =>
    refine ⟨?_, fun h => absurd rfl h⟩
    dsimp only
    split
    · unfold receive
      split
      · split <;> simp [hat, Listening.left]
      · exact le_rfl
    · dsimp only
      split <;> simp [Listening.left]
  | check peer_addr data =>
    have hleft := l.left_check peer_addr data
    exact ⟨by dsimp only; omega, fun _ => Nat.lt_succ_of_le hleft⟩
  | insert peer_addr data client_conv => simp [set_pending, Listening.left]
  | enqueue incoming =>
    dsimp only
    unfold enqueue
    split <;> simp [Listening.left]
  | withdraw peer_addr => simp [set_pending, Listening.left]
  | remove_dead dead_addrs => simp [cleanup_dead_streams, Listening.left]
  | expire => simp [cleanup_pending_connections, set_pending, Listening.left]

/-- With steps enough the operation is over. -/
theorem settle_select {arrival : Arrival A} {fuel : Nat} (h : l.listening.left ≤ fuel) :
    (settle arrival fuel l).listening = .select := by
  induction fuel generalizing l with
  | zero => exact Listening.left_eq_zero (Nat.le_zero.mp h)
  | succ fuel ih =>
    unfold settle
    split
    · assumption
    · next hnot =>
      have hlt := (l.left_listen arrival).2 hnot
      exact ih (by omega)

/-- What every step of the task keeps, the whole operation keeps. -/
theorem settle_rule {P : KcpListener A → Prop} {arrival : Arrival A} (hstep : ∀ l, P l → P (l.listen arrival))
    (fuel : Nat) (h : P l) : P (settle arrival fuel l) := by
  induction fuel generalizing l with
  | zero => exact h
  | succ fuel ih =>
    unfold settle
    split
    · exact h
    · exact ih (hstep l h)

/-- `accept` has five steps at most, and each but the first brings it closer to the end. -/
theorem left_accept (l : KcpListener A) (r : Readings) :
    (l.accept r).accepting.left ≤ 5 ∧ (l.accepting ≠ .recv → (l.accept r).accepting.left < l.accepting.left) := by
  unfold accept
  cases hat : l.accepting with
  | recv =>
    refine ⟨?_, fun h => absurd rfl h⟩
    dsimp only
    split
    · exact le_rfl
    · simp [hat, Accepting.left]
  | mark incoming =>
    dsimp only
    split <;> simp [Accepting.left]
  | create incoming =>
    dsimp only
    split <;> simp [Accepting.left]
  | _ => simp [Accepting.left]

/-- With steps enough the call is over. -/
theorem conclude_recv {r : Readings} {fuel : Nat} (h : l.accepting.left ≤ fuel) :
    (conclude r fuel l).accepting = .recv := by
  induction fuel generalizing l with
  | zero =>
    cases hat : l.accepting <;> rw [hat] at h <;> first | exact hat | cases h
  | succ fuel ih =>
    unfold conclude
    split
    · assumption
    · next hnot =>
      have hlt := (l.left_accept r).2 hnot
      exact ih (by omega)

/-- What every step of `accept` keeps, the whole call keeps. -/
theorem conclude_rule {P : KcpListener A → Prop} {r : Readings} (hstep : ∀ l, P l → P (l.accept r)) (fuel : Nat)
    (h : P l) : P (conclude r fuel l) := by
  induction fuel generalizing l with
  | zero => exact h
  | succ fuel ih =>
    unfold conclude
    split
    · exact h
    · exact ih (hstep l h)

/-- The listener's task leaves `accept` where it is. -/
theorem accepting_listen (l : KcpListener A) (arrival : Arrival A) : (l.listen arrival).accepting = l.accepting := by
  unfold listen
  cases l.listening with
  | select =>
    dsimp only
    split
    · unfold receive
      split
      · split <;> rfl
      · rfl
    · rfl
  | enqueue incoming =>
    dsimp only
    unfold enqueue
    split <;> rfl
  | _ => rfl

/-- `accept` leaves the listener's task where it is. -/
theorem listening_accept (l : KcpListener A) (r : Readings) : (l.accept r).listening = l.listening := by
  unfold accept
  cases l.accepting with
  | recv =>
    dsimp only
    split <;> rfl
  | mark incoming =>
    dsimp only
    split <;> rfl
  | create incoming =>
    dsimp only
    split <;> rfl
  | _ => rfl

/-- Every operation comes to an end. -/
theorem settled_operate (h : Settled l) (op : Operation A) : Settled (l.operate op) := by
  cases op with
  | handle arrival =>
    refine ⟨settle_select (l.left_listen arrival).1, ?_⟩
    exact settle_rule (P := fun l => l.accepting = .recv) (fun m hm => (m.accepting_listen arrival).trans hm) 4
      ((l.accepting_listen arrival).trans h.accepting)
  | accept r =>
    refine ⟨?_, conclude_recv (l.left_accept r).1⟩
    exact conclude_rule (P := fun l => l.listening = .select) (fun m hm => (m.listening_accept r).trans hm) 5
      ((l.listening_accept r).trans h.listening)
  | remove_active_connection peer_addr => exact ⟨h.listening, h.accepting⟩
  | taken peer_addr n =>
    simp only [operate, taken]
    split
    · exact ⟨h.listening, h.accepting⟩
    · exact h
  | exited peer_addr =>
    simp only [operate, exited]
    split
    · exact ⟨h.listening, h.accepting⟩
    · exact h

/-! ### The lock and the routes -/

/-- A step of `accept` that makes a peer active goes on to route its packets. -/
theorem consistent_accept (h : Consistent l) (r : Readings) : Consistent (l.accept r) := by
  unfold accept
  cases hat : l.accepting with
  | recv =>
    dsimp only
    split
    · refine ⟨fun p => ?_, fun p => ?_⟩
      · simpa [hat] using h.agrees p
      · simpa [hat, Accepting.peer] using h.marked p
    · exact h
  | mark incoming =>
    dsimp only
    split
    · refine ⟨fun p => ?_, fun p => ?_⟩
      · simpa [hat] using h.agrees p
      · simpa [hat, Accepting.peer] using h.marked p
    · refine ⟨fun p => ?_, fun p => ?_⟩
      · simpa [hat] using h.agrees p
      · have hmarked := h.marked p
        simp only [hat, Accepting.peer, reduceCtorEq, iff_false] at hmarked
        simp [hmarked, Accepting.peer, eq_comm]
  | create incoming =>
    dsimp only
    split
    · refine ⟨fun p => ?_, fun p => ?_⟩
      · simpa [hat] using h.agrees p
      · simpa [hat, Accepting.peer] using h.marked p
    · refine ⟨fun p => ?_, fun p => ?_⟩
      · simpa [hat] using h.agrees p
      · simpa [hat, Accepting.peer] using h.marked p
  | register peer_addr stream =>
    refine ⟨fun p => ?_, fun p => ?_⟩
    · have hagrees := h.agrees p
      simp only [hat, reduceCtorEq, exists_false, or_false] at hagrees
      simp [hagrees, or_comm, eq_comm]
    · simpa [hat, Accepting.peer] using h.marked p
  | route peer_addr stream =>
    refine ⟨fun p => ?_, fun p => ?_⟩
    · simpa [hat, or_comm, eq_comm] using h.agrees p
    · simpa [hat, Accepting.peer] using h.marked p
  | unmark peer_addr result =>
    refine ⟨fun p => ?_, fun p => ?_⟩
    · simpa [hat] using h.agrees p
    · have hmarked := h.marked p
      simp only [hat, Accepting.peer, Option.some.injEq] at hmarked
      simp only [Finset.mem_erase, hmarked, Accepting.peer, reduceCtorEq, iff_false]
      exact fun hnot => hnot.1 hnot.2.symm

/-- While `accept` waits, the task keeps the two in step. -/
theorem consistent_listen (h : Consistent l) (hwait : l.accepting = .recv) (arrival : Arrival A) :
    Consistent (l.listen arrival) := by
  unfold listen
  cases l.listening with
  | select =>
    dsimp only
    split
    · unfold receive
      split
      · split
        · exact ⟨fun p => (h.agrees p).trans (or_congr_left AList.mem_replace.symm), h.marked⟩
        · exact h
      · exact ⟨h.agrees, h.marked⟩
    · exact ⟨h.agrees, h.marked⟩
  | enqueue incoming =>
    dsimp only
    unfold enqueue
    split <;> exact ⟨h.agrees, h.marked⟩
  | remove_dead dead_addrs =>
    refine ⟨fun p => ?_, h.marked⟩
    have hagrees := h.agrees p
    simp only [hwait, reduceCtorEq, exists_false, or_false] at hagrees
    simp only [cleanup_dead_streams, Finset.mem_sdiff, List.mem_toFinset, mem_foldl_erase, hagrees, hwait, reduceCtorEq,
      exists_false, or_false]
    exact and_comm
  | _ => exact ⟨h.agrees, h.marked⟩

/-- `accept` makes a peer active when its entry is gone. -/
theorem apart_accept (h : Apart l) (hsel : l.listening = .select) (r : Readings) : Apart (l.accept r) := by
  refine ⟨?_, fun p data client_conv hat => ?_⟩
  · unfold accept
    cases l.accepting with
    | recv =>
      dsimp only
      split <;> exact h.distinct
    | mark incoming =>
      dsimp only
      split <;> exact h.distinct
    | create incoming =>
      dsimp only
      split <;> exact h.distinct
    | register peer_addr stream =>
      intro p hactive hpending
      obtain ⟨hne, hmem⟩ := AList.mem_erase.mp hpending
      exact h.distinct p (Finset.mem_of_mem_insert_of_ne hactive hne) hmem
    | _ => exact h.distinct
  · rw [l.listening_accept r, hsel] at hat
    cases hat

/-- An entry is made for a peer that is not active. -/
theorem not_mem_active_of_check {peer_addr p : A} {data first : Bytes} {client_conv : ConvId}
    (h : l.check peer_addr data = .insert p first client_conv) : p ∉ l.conn_state.active := by
  unfold check at h
  split at h
  · split at h
    · cases h
    · split_ifs at h with _ hactive
      cases h
      exact hactive
  · cases h

/-- The listener opens no entry for an active peer. -/
theorem apart_listen (h : Apart l) (arrival : Arrival A) : Apart (l.listen arrival) := by
  unfold listen
  cases hat : l.listening with
  | select =>
    dsimp only
    split
    · unfold receive
      split
      · split <;> exact ⟨h.distinct, h.candidate⟩
      · exact ⟨h.distinct, fun _ _ _ hnot => by cases hnot⟩
    · refine ⟨h.distinct, fun _ _ _ hnot => ?_⟩
      dsimp only at hnot
      split at hnot <;> cases hnot
  | check peer_addr data => exact ⟨h.distinct, fun _ _ _ heq => not_mem_active_of_check heq⟩
  | insert peer_addr data client_conv =>
    refine ⟨fun p hactive hpending => ?_, fun _ _ _ hnot => by cases hnot⟩
    rcases (AList.mem_insert _).mp hpending with rfl | hmem
    · exact h.candidate p data client_conv hat hactive
    · exact h.distinct p hactive hmem
  | enqueue incoming =>
    dsimp only
    unfold enqueue
    split <;> exact ⟨h.distinct, fun _ _ _ hnot => by cases hnot⟩
  | withdraw peer_addr =>
    refine ⟨fun p hactive hpending => ?_, fun _ _ _ hnot => by cases hnot⟩
    exact h.distinct p hactive (AList.mem_erase.mp hpending).2
  | remove_dead dead_addrs =>
    exact ⟨fun p hactive => h.distinct p (Finset.mem_sdiff.mp hactive).1, fun _ _ _ hnot => by cases hnot⟩
  | expire =>
    exact ⟨fun p hactive hpending => h.distinct p hactive (mem_of_mem_retain hpending), fun _ _ _ hnot => by cases hnot⟩

/-! ### Runs -/

/-- The caller has an active peer removed. -/
def RemovesActive (self : KcpListener A) : Operation A → Prop
  | .remove_active_connection peer_addr => peer_addr ∈ self.conn_state.active
  | _ => False

instance decidableRemovesActive (self : KcpListener A) : (op : Operation A) → Decidable (self.RemovesActive op)
  | .handle _ => .isFalse id
  | .accept _ => .isFalse id
  | .remove_active_connection peer_addr => inferInstanceAs (Decidable (peer_addr ∈ self.conn_state.active))
  | .taken .. => .isFalse id
  | .exited _ => .isFalse id

/-- A new listener is at rest. -/
theorem atRest_new (settings : Settings) : AtRest (new A settings) where
  listening := rfl
  accepting := rfl
  agrees := fun p => by simp [new, AList.notMem_empty]
  marked := fun p => by simp [new, Accepting.peer]
  distinct := fun p hnot => by simp [new] at hnot
  candidate := fun _ _ _ hnot => by cases hnot

/-- Other handles for the same peers. -/
theorem AtRest.replace (h : AtRest l) (peer_addr : A) (handle : StreamHandle) :
    AtRest { l with active_streams := l.active_streams.replace peer_addr handle } where
  listening := h.listening
  accepting := h.accepting
  agrees := fun p => (h.agrees p).trans (or_congr_left AList.mem_replace.symm)
  marked := h.marked
  distinct := h.distinct
  candidate := h.candidate

/-- To remove a peer that is not active changes nothing. -/
theorem remove_of_not_mem {peer_addr : A} (h : peer_addr ∉ l.conn_state.active) :
    l.remove_active_connection peer_addr = l := by
  rw [remove_active_connection, Finset.erase_eq_of_notMem h]

/-- Every operation but the removal of an active peer comes to rest again. -/
theorem atRest_operate (h : AtRest l) {op : Operation A} (hkeeps : ¬ l.RemovesActive op) : AtRest (l.operate op) := by
  have hsettled := settled_operate h.toSettled op
  cases op with
  | handle arrival =>
    have hrest : (Consistent (l.handle arrival) ∧ (l.handle arrival).accepting = .recv) ∧ Apart (l.handle arrival) := by
      refine settle_rule (P := fun m => (Consistent m ∧ m.accepting = .recv) ∧ Apart m) (fun m hm => ?_) 4 ?_
      · exact ⟨⟨consistent_listen hm.1.1 hm.1.2 arrival, (m.accepting_listen arrival).trans hm.1.2⟩,
          apart_listen hm.2 arrival⟩
      · exact ⟨⟨consistent_listen h.toConsistent h.accepting arrival, (l.accepting_listen arrival).trans h.accepting⟩,
          apart_listen h.toApart arrival⟩
    exact ⟨hsettled, hrest.1.1, hrest.2⟩
  | accept r =>
    have hrest : Consistent (l.accept_turn r) ∧ Apart (l.accept_turn r) ∧ (l.accept_turn r).listening = .select := by
      refine conclude_rule (P := fun m => Consistent m ∧ Apart m ∧ m.listening = .select) (fun m hm => ?_) 5 ?_
      · exact ⟨consistent_accept hm.1 r, apart_accept hm.2.1 hm.2.2 r, (m.listening_accept r).trans hm.2.2⟩
      · exact ⟨consistent_accept h.toConsistent r, apart_accept h.toApart h.listening r,
          (l.listening_accept r).trans h.listening⟩
    exact ⟨hsettled, hrest.1, hrest.2.1⟩
  | remove_active_connection peer_addr =>
    rw [operate, remove_of_not_mem hkeeps]
    exact h
  | taken peer_addr n =>
    simp only [operate, taken]
    split
    · exact h.replace _ _
    · exact h
  | exited peer_addr =>
    simp only [operate, exited]
    split
    · exact h.replace _ _
    · exact h

/-- The removal of an active peer leaves its route behind. -/
theorem not_routingAgrees_of_removes (h : l.RoutingAgrees) {op : Operation A} (hremoves : l.RemovesActive op) :
    ¬ (l.operate op).RoutingAgrees := by
  cases op with
  | remove_active_connection peer_addr =>
    intro hnot
    have hmem : peer_addr ∈ l.conn_state.active.erase peer_addr := (hnot peer_addr).mpr ((h peer_addr).mp hremoves)
    exact Finset.notMem_erase _ _ hmem
  | _ => cases hremoves

/-! ### Datagrams -/

theorem settle_of_select {arrival : Arrival A} {fuel : Nat} (h : l.listening = .select) :
    settle arrival fuel l = l := by
  cases fuel with
  | zero => rfl
  | succ fuel =>
    unfold settle
    rw [if_pos h]

theorem settle_succ {arrival : Arrival A} {fuel : Nat} (h : l.listening ≠ .select) :
    settle arrival (fuel + 1) l = settle arrival fuel (l.listen arrival) := by
  rw [settle, if_neg h]

/-- A datagram of a peer with a route goes to its stream, if there is room for it, and does nothing else. -/
theorem handle_of_route (h : l.listening = .select) {arrival : Arrival A} {peer_addr : A} {data : Bytes}
    {handle : StreamHandle} (hdatagram : arrival.datagram = some (peer_addr, data))
    (hroute : l.active_streams.lookup peer_addr = some handle) :
    (∀ hroom : handle.input_tx.HasRoom, l.handle arrival =
      { l with active_streams := l.active_streams.replace peer_addr { input_tx := handle.input_tx.push hroom data } }) ∧
    (¬ handle.input_tx.HasRoom → l.handle arrival = l) := by
  have hlisten : l.listen arrival = l.receive peer_addr data := by
    unfold listen
    rw [h]
    dsimp only
    rw [hdatagram]
  rw [KcpListener.handle, hlisten, receive, hroute]
  dsimp only
  refine ⟨fun hroom => ?_, fun hfull => ?_⟩
  · rw [Channel.try_send_of_room hroom]
    exact settle_of_select h
  · rw [Channel.try_send_of_full hfull]
    exact settle_of_select h

/-- A valid first packet: at least a header, with a command that may open a connection. -/
def Opening (data : Bytes) (client_conv : ConvId) : Prop :=
  KcpHeader.SIZE ≤ data.length ∧ ∃ header rest, KcpHeader.decode data = some (header, rest) ∧ opens header.cmd = true ∧
    header.conv = client_conv

/-- The first packet of a peer that is neither active nor pending is queued as a new connection, if there is room for
it. -/
theorem handle_of_first (h : AtRest l) {arrival : Arrival A} {peer_addr : A} {data : Bytes} {client_conv : ConvId}
    (hdatagram : arrival.datagram = some (peer_addr, data)) (hopening : Opening data client_conv)
    (hactive : peer_addr ∉ l.conn_state.active) (hpending : peer_addr ∉ l.conn_state.pending)
    (hmax : l.conn_state.pending.entries.length < l.settings.max_pending_connections)
    (hroom : l.connection_queue.HasRoom) :
    l.handle arrival = { l with
      conn_state := { l.conn_state with
        pending := l.conn_state.pending.insert peer_addr (incoming peer_addr data client_conv arrival) }
      connection_queue := l.connection_queue.push hroom (incoming peer_addr data client_conv arrival) } := by
  obtain ⟨hsize, header, rest, hdecode, hopens, rfl⟩ := hopening
  have hroute : l.active_streams.lookup peer_addr = none :=
    AList.lookup_eq_none.mpr fun hmem => hactive ((h.routingAgrees peer_addr).mpr hmem)
  have haccepting : peer_addr ∉ l.conn_state.accepting := fun hmem => by
    have hpeer := (h.marked peer_addr).mp hmem
    rw [h.accepting] at hpeer
    cases hpeer
  have hcheck : l.check peer_addr data = .insert peer_addr data header.conv := by
    unfold check
    rw [if_pos hsize, hdecode]
    dsimp only
    rw [if_neg (not_not_intro hopens), if_neg hactive, if_neg haccepting, if_neg hpending, if_neg (Nat.not_le.mpr hmax)]
  have hfirst : l.listen arrival = { l with listening := .check peer_addr data } := by
    unfold listen receive
    rw [h.listening]
    dsimp only
    rw [hdatagram]
    dsimp only
    rw [hroute]
  rw [handle, hfirst, settle_succ (by simp), listen]
  dsimp only
  rw [show check { l with listening := .check peer_addr data } peer_addr data = _ from hcheck, settle_succ (by simp),
    listen]
  dsimp only [set_pending]
  rw [settle_succ (by simp), listen]
  dsimp only [enqueue]
  rw [Channel.try_send_of_room hroom, settle_of_select rfl]
  simp only [← h.listening]

/-- A cleanup removes the peers whose streams have ended. None of them is pending. -/
theorem handle_cleanup (h : AtRest l) {arrival : Arrival A} {peer_addr : A} {handle : StreamHandle}
    (hnone : arrival.datagram = none) (hroute : l.active_streams.lookup peer_addr = some handle)
    (hclosed : handle.is_closed = true) :
    peer_addr ∉ (l.handle arrival).conn_state.active ∧ peer_addr ∉ (l.handle arrival).active_streams ∧
      peer_addr ∉ (l.handle arrival).conn_state.pending := by
  have hdead : peer_addr ∈ l.dead_addrs :=
    List.mem_map.mpr ⟨⟨peer_addr, handle⟩, List.mem_filter.mpr ⟨AList.mem_lookup_iff.mp hroute, hclosed⟩, rfl⟩
  have hactive : peer_addr ∈ l.conn_state.active :=
    (h.routingAgrees peer_addr).mpr (AList.lookup_isSome.mp (by rw [hroute]; rfl))
  have hfirst : l.listen arrival = { l with listening := .remove_dead l.dead_addrs } := by
    unfold listen
    rw [h.listening]
    dsimp only
    rw [hnone]
    dsimp only
    rw [if_neg (List.ne_nil_of_mem hdead)]
  have hcleaned : l.handle arrival = (l.cleanup_dead_streams l.dead_addrs).cleanup_pending_connections arrival.now := by
    rw [KcpListener.handle, hfirst, settle_succ (by simp), listen]
    dsimp only [cleanup_dead_streams]
    rw [settle_succ (by simp), listen]
    exact settle_of_select rfl
  rw [hcleaned]
  refine ⟨fun hmem => ?_, fun hmem => ?_, fun hmem => ?_⟩
  · exact (Finset.mem_sdiff.mp hmem).2 (List.mem_toFinset.mpr hdead)
  · exact (mem_foldl_erase.mp hmem).1 hdead
  · exact h.distinct peer_addr hactive (mem_of_mem_retain hmem)

/-- What becomes of the next datagram of a peer. That of an active peer goes to its stream, and that of a peer removed
is queued as a new connection. -/
structure Serves (l : KcpListener A) : Prop where
  routed : ∀ peer_addr ∈ l.conn_state.active, ∃ handle, l.active_streams.lookup peer_addr = some handle ∧
    ∀ (arrival : Arrival A) (data : Bytes), arrival.datagram = some (peer_addr, data) →
      (∀ hroom : handle.input_tx.HasRoom, l.handle arrival =
        { l with active_streams := l.active_streams.replace peer_addr { input_tx := handle.input_tx.push hroom data } }) ∧
      (¬ handle.input_tx.HasRoom → l.handle arrival = l)
  removed : ∀ (peer_addr : A) (handle : StreamHandle) (arrival : Arrival A), arrival.datagram = none →
    l.active_streams.lookup peer_addr = some handle → handle.is_closed = true →
      peer_addr ∉ (l.handle arrival).conn_state.active ∧ peer_addr ∉ (l.handle arrival).active_streams ∧
        peer_addr ∉ (l.handle arrival).conn_state.pending
  queued : ∀ (arrival : Arrival A) (peer_addr : A) (data : Bytes) (client_conv : ConvId),
    arrival.datagram = some (peer_addr, data) → Opening data client_conv → peer_addr ∉ l.conn_state.active →
      peer_addr ∉ l.conn_state.pending → l.conn_state.pending.entries.length < l.settings.max_pending_connections →
      ∀ hroom : l.connection_queue.HasRoom, l.handle arrival = { l with
        conn_state := { l.conn_state with
          pending := l.conn_state.pending.insert peer_addr (incoming peer_addr data client_conv arrival) }
        connection_queue := l.connection_queue.push hroom (incoming peer_addr data client_conv arrival) }

/-- At rest every active peer is served. -/
theorem AtRest.serves (h : AtRest l) : Serves l where
  routed := fun peer_addr hactive => by
    have hsome := AList.lookup_isSome.mpr ((h.routingAgrees peer_addr).mp hactive)
    obtain ⟨handle, hroute⟩ := Option.isSome_iff_exists.mp hsome
    exact ⟨handle, hroute, fun _ _ hdatagram => handle_of_route h.listening hdatagram hroute⟩
  removed := fun _ _ _ hnone hroute hclosed => handle_cleanup h hnone hroute hclosed
  queued := fun _ _ _ _ hdatagram hopening hactive hpending hmax hroom =>
    handle_of_first h hdatagram hopening hactive hpending hmax hroom

end KcpListener

open KcpListener

variable [DecidableEq A]

/-- The active peers are those with a route, in every state between the operations of a run, exactly
if the caller never has an active peer removed. Then the datagrams of active peers go to their
streams, and a peer removed may connect again. -/
theorem routing_agrees_iff (settings : Settings) (ops : List (Operation A)) :
    ((∀ n, (Trace.run operate (new A settings) (ops.take n)).RoutingAgrees) ↔
      Trace.Always operate (fun l op => ¬ l.RemovesActive op) (new A settings) ops) ∧
    (Trace.Always operate (fun l op => ¬ l.RemovesActive op) (new A settings) ops →
      Serves (Trace.run operate (new A settings) ops)) := by
  refine ⟨?_, fun h => ?_⟩
  · refine Trace.states_iff (I := AtRest) (fun _ h => h.routingAgrees) (fun _ _ h => atRest_operate h) ?_
      (atRest_new settings) ops
    exact fun _ _ h hafter hremoves => not_routingAgrees_of_removes h.routingAgrees hremoves hafter
  · have hrest : AtRest (Trace.run operate (new A settings) ops) :=
      Trace.invariant_of_always (fun _ l => AtRest l) (atRest_new settings) (fun _ _ h hkeeps => atRest_operate h hkeeps) h
    exact hrest.serves

theorem conv_one_ne_zero : (1 : ConvId) ≠ 0 := by decide

/-- A first packet of the peer 5. -/
def greeting : Arrival Nat := { datagram := some (5, hello), now := 0, random_conv := ⟨1, conv_one_ne_zero⟩ }

/-- The peer is accepted, its next datagram reaches its stream, the stream ends and is cleaned up,
and the peer connects again. -/
def reconnect : List (Operation Nat) :=
  [.handle greeting, .accept (.at 0), .handle greeting, .remove_active_connection 6, .exited 5,
    .handle { greeting with datagram := none }, .handle greeting, .accept (.at 0)]

/-- A peer comes back after its stream has gone. -/
theorem routing_agrees_reconnect :
    (∀ n, (Trace.run operate (new Nat .default) (reconnect.take n)).RoutingAgrees) ∧
      Serves (Trace.run operate (new Nat .default) reconnect) :=
  ⟨(routing_agrees_iff .default reconnect).1.mpr (by decide +kernel),
    (routing_agrees_iff .default reconnect).2 (by decide +kernel)⟩

/-- The peer is accepted, and removed while its stream is open. It is no longer active and still has its
route: its next valid datagram goes to the stream that it had, and nothing is queued. -/
theorem removed_peer_keeps_route :
    let removed := Trace.run operate (new Nat .default) [.handle greeting, .accept (.at 0), .remove_active_connection 5]
    5 ∉ removed.conn_state.active ∧ 5 ∈ removed.active_streams ∧ ¬ removed.RoutingAgrees ∧
      (removed.handle greeting).connection_queue.queue = [] ∧
      ((removed.handle greeting).active_streams.lookup 5).map (fun handle => handle.input_tx.queue) = some [hello] := by
  have hactive : 5 ∉ (Trace.run operate (new Nat .default)
      [.handle greeting, .accept (.at 0), .remove_active_connection 5]).conn_state.active := by decide +kernel
  have hroute : 5 ∈ (Trace.run operate (new Nat .default)
      [.handle greeting, .accept (.at 0), .remove_active_connection 5]).active_streams := by decide +kernel
  exact ⟨hactive, hroute, fun hagrees => hactive ((hagrees 5).mpr hroute), by decide +kernel⟩

end kcp_tokio.listener
