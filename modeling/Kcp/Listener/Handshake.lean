import Kcp.Listener.State

/-! One handshake, one entry of the queue, one stream. -/

open Mpsc Retain kcp_core.protocol kcp_core.error kcp_core.engine kcp_tokio.error

namespace kcp_tokio.listener

variable {A : Type}

/-- The entry that `accept` has taken and made no stream of yet. -/
def Accepting.hand : Accepting A → List (IncomingConnection A)
  | .mark incoming => [incoming]
  | .create incoming => [incoming]
  | _ => []

/-- The peer whose connection is being accepted. -/
def Accepting.peer : Accepting A → Option A
  | .create incoming => some incoming.peer_addr
  | .register peer_addr _ => some peer_addr
  | .route peer_addr _ => some peer_addr
  | .unmark peer_addr _ => some peer_addr
  | _ => none

/-- The peer for which the task is about to queue an entry. -/
def Listening.candidate : Listening A → Option A
  | .insert peer_addr _ _ => some peer_addr
  | .enqueue incoming => some incoming.peer_addr
  | _ => none

namespace KcpListener

/-- The entries of which no stream has been made yet. -/
def outstanding (self : KcpListener A) : List (IncomingConnection A) :=
  self.accepting.hand ++ self.connection_queue.queue

def peers (self : KcpListener A) : List A := self.outstanding.map IncomingConnection.peer_addr

/-- Without an entry in the hands of `accept`, what is outstanding is in the queue. -/
theorem queue_sublist (l : KcpListener A) (accepting : Accepting A) (hnone : accepting.hand = []) :
    (accepting.hand ++ l.connection_queue.queue).Sublist l.outstanding := by
  rw [hnone]
  exact List.sublist_append_right ..

variable [DecidableEq A]

/-- The entry has not been expired. -/
def Current (self : KcpListener A) (incoming : IncomingConnection A) : Prop :=
  self.conn_state.pending.lookup incoming.peer_addr = some incoming

/-- Every outstanding entry is the pending one of its peer, and its only one. The task is not
about to queue another for a peer with an outstanding entry, a connection being accepted or an active
stream. -/
structure Inv (l : KcpListener A) : Prop where
  current : ∀ incoming ∈ l.outstanding, l.Current incoming
  distinct : l.peers.Nodup
  marked : ∀ peer ∈ l.accepting.peer, peer ∈ l.conn_state.accepting
  built : ∀ peer stream, l.accepting = .register peer stream → peer ∉ l.peers
  inactive : ∀ incoming, l.accepting = .create incoming → incoming.peer_addr ∉ l.conn_state.active
  candidate : ∀ peer ∈ l.listening.candidate,
    peer ∉ l.conn_state.accepting ∧ peer ∉ l.conn_state.active ∧ peer ∉ l.peers
  recorded : ∀ incoming, l.listening = .enqueue incoming → l.Current incoming
  refused : ∀ peer, l.listening = .withdraw peer → peer ∉ l.peers

variable {l : KcpListener A}

/-- Nothing is on its way yet. -/
theorem inv_new (settings : Settings) : Inv (new A settings) where
  current := fun _ h => by cases h
  distinct := List.nodup_nil
  marked := fun _ h => by cases h
  built := fun _ _ h => by cases h
  inactive := fun _ h => by cases h
  candidate := fun _ h => by cases h
  recorded := fun _ h => by cases h
  refused := fun _ h => by cases h

/-! ### Steps of the task -/

/-- The task moves on, with nothing in its hands and everything else as it was. -/
theorem Inv.moves (h : Inv l) {listening : Listening A} (hcandidate : listening.candidate = none)
    (hwithdraw : ∀ peer, listening ≠ .withdraw peer) (active_streams : AList fun _ : A => StreamHandle) :
    Inv { l with listening, active_streams } where
  current := h.current
  distinct := h.distinct
  marked := h.marked
  built := h.built
  inactive := h.inactive
  candidate := fun peer hpeer => by
    rw [hcandidate] at hpeer
    cases hpeer
  recorded := fun incoming hincoming => by
    rw [show listening = .enqueue incoming from hincoming] at hcandidate
    cases hcandidate
  refused := fun peer hpeer => absurd hpeer (hwithdraw peer)

/-- A packet that has been read is only looked at. -/
theorem inv_receive (h : Inv l) (peer_addr : A) (data : Bytes) : Inv (l.receive peer_addr data) := by
  have hsame : ∀ streams, Inv { l with active_streams := streams } := fun streams =>
    ⟨h.current, h.distinct, h.marked, h.built, h.inactive, h.candidate, h.recorded, h.refused⟩
  unfold receive
  split
  · split
    · exact hsame _
    · exact h
  · exact h.moves rfl (fun _ hnot => by cases hnot) _

/-- A packet that passes the checks comes from a peer without an entry, a connection being
accepted or an active stream. -/
theorem inv_check (h : Inv l) (peer_addr : A) (data : Bytes) : Inv { l with listening := l.check peer_addr data } := by
  have hsel : ∀ {check : Listening A}, check = .select → Inv { l with listening := check } := fun heq =>
    h.moves (by rw [heq]; rfl) (fun _ hnot => by rw [heq] at hnot; cases hnot) _
  unfold check
  split
  · split
    · exact hsel rfl
    · split
      · exact hsel rfl
      split
      · exact hsel rfl
      split
      · exact hsel rfl
      split
      · exact hsel rfl
      split
      · exact hsel rfl
      next hactive haccepting hpending _ =>
      refine ⟨h.current, h.distinct, h.marked, h.built, h.inactive, fun peer hpeer => ?_, fun _ hnot => (by cases hnot),
        fun _ hnot => by cases hnot⟩
      cases hpeer
      refine ⟨haccepting, hactive, fun hmem => ?_⟩
      obtain ⟨incoming, hincoming, rfl⟩ := List.mem_map.mp hmem
      exact hpending (AList.lookup_isSome.mp (by rw [h.current incoming hincoming]; rfl))
  · exact hsel rfl

/-- Nothing changes for the peers of the outstanding entries. -/
theorem Inv.set_pending (h : Inv l) {pending : AList fun _ : A => IncomingConnection A} {listening : Listening A}
    (hkept : ∀ peer ∈ l.peers, pending.lookup peer = l.conn_state.pending.lookup peer)
    (hcandidate : ∀ peer ∈ listening.candidate, peer ∈ l.listening.candidate)
    (hrecorded : ∀ incoming, listening = .enqueue incoming → pending.lookup incoming.peer_addr = some incoming)
    (hrefused : ∀ peer, listening ≠ .withdraw peer) : Inv (l.set_pending pending listening) where
  current := fun incoming hincoming =>
    (hkept _ (List.mem_map_of_mem hincoming)).trans (h.current incoming hincoming)
  distinct := h.distinct
  marked := h.marked
  built := h.built
  inactive := h.inactive
  candidate := fun peer hpeer => h.candidate peer (hcandidate peer hpeer)
  recorded := hrecorded
  refused := fun peer hpeer => absurd hpeer (hrefused peer)

/-- The entry of a peer that has none is on its way. -/
theorem inv_insert (h : Inv l) {peer_addr : A} {data : Bytes} {client_conv : ConvId}
    (hat : l.listening = .insert peer_addr data client_conv) (arrival : Arrival A) :
    Inv (l.set_pending (l.conn_state.pending.insert peer_addr (incoming peer_addr data client_conv arrival))
      (.enqueue (incoming peer_addr data client_conv arrival))) := by
  have hpeer : (incoming peer_addr data client_conv arrival).peer_addr = peer_addr := by
    unfold incoming
    split <;> rfl
  have hcandidate : peer_addr ∈ l.listening.candidate := by
    rw [hat]
    rfl
  obtain ⟨_, _, hnot⟩ := h.candidate peer_addr hcandidate
  refine h.set_pending (fun peer hmem => ?_) (fun peer hmem => ?_) (fun other hother => ?_) fun _ hother => by cases hother
  · exact AList.lookup_insert_ne fun heq => hnot (heq ▸ hmem)
  · cases hmem
    rw [hpeer]
    exact hcandidate
  · cases hother
    rw [hpeer]
    exact AList.lookup_insert _

/-- The entry moves to the queue, or is to be withdrawn. -/
theorem inv_enqueue (h : Inv l) {incoming : IncomingConnection A} (hat : l.listening = .enqueue incoming) :
    Inv (l.enqueue incoming) := by
  have hcandidate : incoming.peer_addr ∈ l.listening.candidate := by
    rw [hat]
    rfl
  obtain ⟨haccepting, hactive, hnot⟩ := h.candidate _ hcandidate
  unfold enqueue
  by_cases hroom : l.connection_queue.HasRoom
  · rw [Channel.try_send_of_room hroom]
    have houtstanding : outstanding { l with connection_queue := l.connection_queue.push hroom incoming, listening := .select } =
        l.outstanding ++ [incoming] := by
      simp only [outstanding, Channel.push_queue, List.append_assoc]
    have hpeers : peers { l with connection_queue := l.connection_queue.push hroom incoming, listening := .select } =
        l.peers ++ [incoming.peer_addr] := by
      rw [peers, houtstanding, List.map_append]
      rfl
    refine ⟨fun other hother => ?_, ?_, h.marked, fun peer stream hpeer => ?_, h.inactive, fun _ hother => (by cases hother),
      fun _ hother => (by cases hother), fun _ hother => by cases hother⟩
    · rw [houtstanding] at hother
      rcases List.mem_append.mp hother with hother | hother
      · exact h.current other hother
      · rw [List.mem_singleton.mp hother]
        exact h.recorded incoming hat
    · rw [hpeers]
      exact h.distinct.append (List.nodup_singleton _) (List.disjoint_singleton.mpr hnot)
    · rw [hpeers, List.mem_append, List.mem_singleton, not_or]
      refine ⟨h.built peer stream hpeer, fun heq => haccepting ?_⟩
      have hmarked := h.marked peer (by rw [show l.accepting = _ from hpeer]; rfl)
      rwa [heq] at hmarked
  · rw [Channel.try_send_of_full hroom]
    refine ⟨h.current, h.distinct, h.marked, h.built, h.inactive, fun _ hother => (by cases hother),
      fun _ hother => (by cases hother), fun peer hpeer => ?_⟩
    cases hpeer
    exact hnot

/-- An entry that did not fit the queue is taken back. -/
theorem inv_withdraw (h : Inv l) {peer_addr : A} (hat : l.listening = .withdraw peer_addr) :
    Inv (l.set_pending (l.conn_state.pending.erase peer_addr) .select) := by
  have hnot := h.refused peer_addr hat
  refine h.set_pending (fun peer hmem => ?_) (fun _ hmem => by cases hmem) (fun _ hother => by cases hother)
    fun _ hother => by cases hother
  exact AList.lookup_erase_ne fun heq => hnot (heq ▸ hmem)

/-- Dead streams are no entries. -/
theorem inv_cleanup_dead_streams (h : Inv l) (dead_addrs : List A) : Inv (l.cleanup_dead_streams dead_addrs) where
  current := h.current
  distinct := h.distinct
  marked := h.marked
  built := h.built
  inactive := fun incoming hincoming hmem => h.inactive incoming hincoming (Finset.mem_sdiff.mp hmem).1
  candidate := fun _ hpeer => by cases hpeer
  recorded := fun _ hother => by cases hother
  refused := fun _ hother => by cases hother

/-- At a cleanup of `pending`, every outstanding entry is younger than the timeout. -/
def Spares (self : KcpListener A) : Event A → Prop
  | .listen arrival => self.listening = .expire → ∀ incoming ∈ self.outstanding,
      arrival.now - incoming.created_at < self.settings.connect_timeout
  | _ => True

instance decidableSpares (self : KcpListener A) : (event : Event A) → Decidable (self.Spares event)
  | .listen arrival =>
    have : Decidable (self.listening = .expire) := inferInstance
    have : Decidable (∀ incoming ∈ self.outstanding, arrival.now - incoming.created_at < self.settings.connect_timeout) :=
      List.decidableBAll _ self.outstanding
    inferInstanceAs (Decidable (self.listening = .expire → _))
  | .accept _ => .isTrue trivial
  | .dropped => .isTrue trivial
  | .taken .. => .isTrue trivial
  | .exited _ => .isTrue trivial

/-- A cleanup expires none of the outstanding entries exactly if they are younger than the
timeout. -/
theorem cleanup_current_iff (h : Inv l) (now : Nat) :
    (∀ incoming ∈ l.outstanding, (l.cleanup_pending_connections now).Current incoming) ↔
      ∀ incoming ∈ l.outstanding, now - incoming.created_at < l.settings.connect_timeout := by
  refine forall₂_congr fun incoming hincoming => ?_
  simp only [Current, cleanup_pending_connections, set_pending, lookup_retain]
  rw [h.current incoming hincoming, Option.filter_some]
  split
  · next hyoung => exact iff_of_true rfl (of_decide_eq_true hyoung)
  · next hold => exact iff_of_false (fun hnot => by cases hnot) fun hyoung => hold (decide_eq_true hyoung)

/-- A cleanup that spares the outstanding entries expires none that matters. -/
theorem inv_cleanup_pending_connections (h : Inv l) {now : Nat}
    (hspares : ∀ incoming ∈ l.outstanding, now - incoming.created_at < l.settings.connect_timeout) :
    Inv (l.cleanup_pending_connections now) where
  current := (cleanup_current_iff h now).mpr hspares
  distinct := h.distinct
  marked := h.marked
  built := h.built
  inactive := h.inactive
  candidate := fun _ hpeer => by cases hpeer
  recorded := fun _ hother => by cases hother
  refused := fun _ hother => by cases hother

/-- A step of the listener's task keeps the invariant, if it spares them. -/
theorem inv_listen (h : Inv l) (arrival : Arrival A) (hspares : l.Spares (.listen arrival)) : Inv (l.listen arrival) := by
  unfold listen
  split
  · split
    · exact inv_receive h ..
    · split
      · exact h.moves rfl (fun _ hnot => by cases hnot) _
      · exact h.moves rfl (fun _ hnot => by cases hnot) _
  · exact inv_check h ..
  · next hat => exact inv_insert h hat arrival
  · next hat => exact inv_enqueue h hat
  · next hat => exact inv_withdraw h hat
  · exact inv_cleanup_dead_streams h _
  · next hat => exact inv_cleanup_pending_connections h (hspares hat)

/-! ### Steps of `accept` -/

/-- `accept` moves on, and no entry becomes outstanding. -/
theorem Inv.accepts (h : Inv l) {accepting : Accepting A} {connection_queue : Channel (IncomingConnection A)}
    (hsub : (accepting.hand ++ connection_queue.queue).Sublist l.outstanding)
    (hmarked : ∀ peer ∈ accepting.peer, peer ∈ l.conn_state.accepting)
    (hbuilt : ∀ peer stream, accepting = .register peer stream →
      peer ∉ connection_queue.queue.map IncomingConnection.peer_addr)
    (hinactive : ∀ incoming, accepting = .create incoming → incoming.peer_addr ∉ l.conn_state.active)
    (active_streams : AList fun _ : A => StreamHandle) : Inv { l with accepting, connection_queue, active_streams } where
  current := fun incoming hincoming => h.current incoming (hsub.subset hincoming)
  distinct := h.distinct.sublist (hsub.map _)
  marked := hmarked
  built := fun peer stream hpeer => by
    have hnot := hbuilt peer stream hpeer
    rw [peers, outstanding, show accepting = .register peer stream from hpeer]
    exact hnot
  inactive := hinactive
  candidate := fun peer hpeer =>
    ⟨(h.candidate peer hpeer).1, (h.candidate peer hpeer).2.1, fun hmem => (h.candidate peer hpeer).2.2 ((hsub.map _).subset hmem)⟩
  recorded := h.recorded
  refused := fun peer hpeer hmem => h.refused peer hpeer ((hsub.map _).subset hmem)

/-- An entry that is taken from the queue is the one that `accept` goes on with. -/
theorem inv_recv (h : Inv l) (hat : l.accepting = .recv) {incoming : IncomingConnection A} {rest : List (IncomingConnection A)}
    (hqueue : l.connection_queue.queue = incoming :: rest) :
    Inv { l with connection_queue := l.connection_queue.take 1, accepting := .mark incoming } := by
  refine h.accepts ?_ (fun _ hpeer => by cases hpeer) (fun _ _ hpeer => by cases hpeer) (fun _ hpeer => by cases hpeer) _
  rw [Channel.take_queue, outstanding, hat, hqueue]
  exact List.Sublist.refl _

/-- `accept` keeps what it has in its hands, and changes nothing for the peers of the outstanding
entries and for the one about to be queued. -/
theorem Inv.turns (h : Inv l) {conn_state : ConnectionState A} {accepting : Accepting A}
    (hhand : accepting.hand = l.accepting.hand)
    (hkept : ∀ peer ∈ l.peers, conn_state.pending.lookup peer = l.conn_state.pending.lookup peer)
    (hmarked : ∀ peer ∈ accepting.peer, peer ∈ conn_state.accepting)
    (hbuilt : ∀ peer stream, accepting ≠ .register peer stream)
    (hinactive : ∀ incoming, accepting = .create incoming → incoming.peer_addr ∉ conn_state.active)
    (hcandidate : ∀ peer ∈ l.listening.candidate, peer ∉ conn_state.accepting ∧ peer ∉ conn_state.active ∧
      conn_state.pending.lookup peer = l.conn_state.pending.lookup peer) : Inv { l with conn_state, accepting } := by
  have hsame : outstanding { l with conn_state, accepting } = l.outstanding := congrArg (· ++ _) hhand
  have hpeers : peers { l with conn_state, accepting } = l.peers := congrArg (List.map _) hsame
  refine ⟨fun incoming hincoming => ?_, ?_, hmarked, fun peer stream hpeer => absurd hpeer (hbuilt peer stream), hinactive,
    fun peer hpeer => ?_, fun incoming hincoming => ?_, fun peer hpeer => ?_⟩
  · rw [hsame] at hincoming
    exact (hkept _ (List.mem_map_of_mem hincoming)).trans (h.current incoming hincoming)
  · rw [hpeers]
    exact h.distinct
  · obtain ⟨haccepting, hactive, _⟩ := hcandidate peer hpeer
    rw [hpeers]
    exact ⟨haccepting, hactive, (h.candidate peer hpeer).2.2⟩
  · have hpeer : incoming.peer_addr ∈ l.listening.candidate := by
      rw [show l.listening = .enqueue incoming from hincoming]
      rfl
    exact (hcandidate _ hpeer).2.2.trans (h.recorded incoming hincoming)
  · rw [hpeers]
    exact h.refused peer hpeer

/-- The peer is marked, unless it has an active stream. -/
theorem inv_mark (h : Inv l) {incoming : IncomingConnection A} (hat : l.accepting = .mark incoming)
    (hactive : incoming.peer_addr ∉ l.conn_state.active) :
    Inv { l with
      conn_state := { l.conn_state with accepting := insert incoming.peer_addr l.conn_state.accepting }
      accepting := .create incoming } := by
  have hmem : incoming.peer_addr ∈ l.peers := by
    rw [peers, outstanding, hat]
    exact List.mem_cons_self
  refine h.turns (by rw [hat]; rfl) (fun _ _ => rfl) (fun peer hpeer => ?_) (fun _ _ hother => by cases hother)
    (fun other hother => ?_) fun peer hpeer => ?_
  · cases hpeer
    exact Finset.mem_insert_self ..
  · cases hother
    exact hactive
  · obtain ⟨haccepting, hnot, hpeers⟩ := h.candidate peer hpeer
    refine ⟨fun hinsert => ?_, hnot, rfl⟩
    rcases Finset.mem_insert.mp hinsert with rfl | hinsert
    · exact hpeers hmem
    · exact haccepting hinsert

/-- The entry becomes a stream, or comes to nothing. -/
theorem inv_create (h : Inv l) {incoming : IncomingConnection A} (hat : l.accepting = .create incoming) (r : Readings) :
    Inv (l.accept r) := by
  have hmarked : incoming.peer_addr ∈ l.conn_state.accepting := h.marked _ (by rw [hat]; rfl)
  have hdistinct := h.distinct
  rw [peers, outstanding, hat] at hdistinct
  have hnot : incoming.peer_addr ∉ l.connection_queue.queue.map IncomingConnection.peer_addr :=
    (List.nodup_cons.mp hdistinct).1
  unfold accept
  rw [hat]
  dsimp only
  split
  · refine h.accepts (l.queue_sublist (.register ..) rfl) (fun peer hpeer => ?_) (fun peer stream hpeer => ?_)
      (fun _ hpeer => by cases hpeer) _
    · cases hpeer
      exact hmarked
    · cases hpeer
      exact hnot
  · refine h.accepts (l.queue_sublist (.unmark ..) rfl) (fun peer hpeer => ?_) (fun _ _ hpeer => by cases hpeer)
      (fun _ hpeer => by cases hpeer) _
    cases hpeer
    exact hmarked

/-- The peer of the stream becomes active. It has no other entry. -/
theorem inv_register (h : Inv l) {peer_addr : A} {stream : KcpEngine} (hat : l.accepting = .register peer_addr stream) :
    Inv { l with
      conn_state := { l.conn_state with
        pending := l.conn_state.pending.erase peer_addr
        active := insert peer_addr l.conn_state.active }
      accepting := .route peer_addr stream } := by
  have hmarked : peer_addr ∈ l.conn_state.accepting := h.marked _ (by rw [hat]; rfl)
  have hnot := h.built peer_addr stream hat
  refine h.turns (by rw [hat]; rfl) (fun peer hpeer => ?_) (fun peer hpeer => ?_) (fun _ _ hother => by cases hother)
    (fun _ hother => by cases hother) fun peer hpeer => ?_
  · exact AList.lookup_erase_ne fun heq => hnot (heq ▸ hpeer)
  · cases hpeer
    exact hmarked
  · obtain ⟨haccepting, hactive, _⟩ := h.candidate peer hpeer
    have hother : peer ≠ peer_addr := fun heq => haccepting (heq ▸ hmarked)
    refine ⟨haccepting, fun hinsert => ?_, AList.lookup_erase_ne hother⟩
    rcases Finset.mem_insert.mp hinsert with heq | hinsert
    · exact hother heq
    · exact hactive hinsert

/-- The peer is no longer being accepted. -/
theorem inv_unmark (h : Inv l) {peer_addr : A} {result : Except KcpError KcpEngine}
    (hat : l.accepting = .unmark peer_addr result) :
    Inv { l with
      conn_state := { l.conn_state with accepting := l.conn_state.accepting.erase peer_addr }
      accepting := .recv } := by
  refine h.turns (by rw [hat]; rfl) (fun _ _ => rfl) (fun _ hpeer => by cases hpeer) (fun _ _ hother => by cases hother)
    (fun _ hother => by cases hother) fun peer hpeer => ?_
  obtain ⟨haccepting, hactive, _⟩ := h.candidate peer hpeer
  exact ⟨fun hmem => haccepting (Finset.mem_of_mem_erase hmem), hactive, rfl⟩

/-- A step of `accept` keeps the invariant. -/
theorem inv_accept (h : Inv l) (r : Readings) : Inv (l.accept r) := by
  cases hat : l.accepting with
  | recv =>
    unfold accept
    rw [hat]
    dsimp only
    cases hqueue : l.connection_queue.queue with
    | nil =>
      rw [Channel.poll_recv_nil hqueue]
      cases l.connection_queue.sender_open <;> exact h
    | cons incoming rest =>
      rw [Channel.poll_recv_cons hqueue]
      exact inv_recv h hat hqueue
  | mark incoming =>
    unfold accept
    rw [hat]
    dsimp only
    split
    · exact h.accepts (l.queue_sublist .recv rfl) (fun _ hpeer => by cases hpeer) (fun _ _ hpeer => by cases hpeer)
        (fun _ hpeer => by cases hpeer) _
    · next hactive => exact inv_mark h hat hactive
  | create incoming => exact inv_create h hat r
  | register peer_addr stream =>
    unfold accept
    rw [hat]
    exact inv_register h hat
  | route peer_addr stream =>
    unfold accept
    rw [hat]
    refine h.accepts (l.queue_sublist (.unmark ..) rfl) (fun peer hpeer => ?_) (fun _ _ hpeer => by cases hpeer)
      (fun _ hpeer => by cases hpeer) _
    cases hpeer
    exact h.marked _ (by rw [hat]; rfl)
  | unmark peer_addr result =>
    unfold accept
    rw [hat]
    exact inv_unmark h hat

/-- Every step that spares the outstanding entries keeps the invariant. -/
theorem inv_step (h : Inv l) (event : Event A) (hspares : l.Spares event) : Inv (l.step event) := by
  have hstreams : ∀ streams, Inv { l with active_streams := streams } := fun streams =>
    ⟨h.current, h.distinct, h.marked, h.built, h.inactive, h.candidate, h.recorded, h.refused⟩
  cases event with
  | listen arrival => exact inv_listen h arrival hspares
  | accept r => exact inv_accept h r
  | dropped =>
    exact h.accepts (l.queue_sublist .recv rfl) (fun _ hpeer => by cases hpeer) (fun _ _ hpeer => by cases hpeer)
      (fun _ hpeer => by cases hpeer) _
  | taken peer_addr n =>
    simp only [step, taken]
    split
    · exact hstreams _
    · exact h
  | exited peer_addr =>
    simp only [step, exited]
    split
    · exact hstreams _
    · exact h

/-! ### Streams -/

/-- The entry that becomes a stream. -/
def created (self : KcpListener A) : Event A → List (IncomingConnection A)
  | .accept r =>
    match self.accepting with
    | .create incoming =>
      match new_server_stream incoming.client_conv incoming.conv self.settings.config incoming.handshake_data r with
      | .ok _ => [incoming]
      | .error _ => []
    | _ => []
  | _ => []

/-- The entry that is placed in the queue. -/
def queued (self : KcpListener A) : Event A → List (IncomingConnection A)
  | .listen _ =>
    match self.listening with
    | .enqueue incoming => if self.connection_queue.HasRoom then [incoming] else []
    | _ => []
  | _ => []

/-- The queue holds one entry of a peer at most. An entry becomes a stream only while it is pending, and for a
peer without a stream. An entry is queued only for a peer without another one, or a stream. -/
structure Sound (self : KcpListener A) (event : Event A) : Prop where
  single : (self.connection_queue.queue.map IncomingConnection.peer_addr).Nodup
  fresh : ∀ incoming ∈ self.created event, self.Current incoming ∧ incoming.peer_addr ∉ self.conn_state.active
  first : ∀ incoming ∈ self.queued event, incoming.peer_addr ∉ self.peers ∧ incoming.peer_addr ∉ self.conn_state.active

/-- Under the invariant no packet opens a second entry, and no stream replaces another. -/
theorem Inv.sound (h : Inv l) (event : Event A) : Sound l event := by
  refine ⟨h.distinct.sublist ((List.sublist_append_right ..).map _), fun incoming hincoming => ?_, fun incoming hincoming => ?_⟩
  · unfold created at hincoming
    split at hincoming
    · split at hincoming
      · next hat =>
        split at hincoming
        · rw [List.mem_singleton.mp hincoming]
          have hmem : ∀ made, l.accepting = .create made → made ∈ l.outstanding := fun made hmade => by
            rw [outstanding, hmade]
            exact List.mem_cons_self
          exact ⟨h.current _ (hmem _ hat), h.inactive _ hat⟩
        · cases hincoming
      · cases hincoming
    · cases hincoming
  · unfold queued at hincoming
    split at hincoming
    · split at hincoming
      · next hat =>
        split at hincoming
        · rw [List.mem_singleton.mp hincoming]
          obtain ⟨_, hactive, hpeers⟩ := h.candidate _ (by rw [hat]; rfl)
          exact ⟨hpeers, hactive⟩
        · cases hincoming
      · cases hincoming
    · cases hincoming

/-- What `accept` makes and leaves was outstanding before. -/
theorem accept_sublist (l : KcpListener A) (r : Readings) :
    (l.created (.accept r) ++ (l.accept r).outstanding).Sublist l.outstanding := by
  unfold created accept
  cases hat : l.accepting with
  | recv =>
    dsimp only
    cases hqueue : l.connection_queue.queue with
    | nil =>
      rw [Channel.poll_recv_nil hqueue]
      cases l.connection_queue.sender_open <;> exact List.Sublist.refl _
    | cons incoming rest =>
      rw [Channel.poll_recv_cons hqueue]
      simp only [outstanding, hat, hqueue, Accepting.hand, Channel.take_queue, List.drop_one, List.tail_cons,
        List.nil_append, List.cons_append]
      exact List.Sublist.refl _
  | mark incoming =>
    dsimp only
    rw [List.nil_append]
    split
    · exact l.queue_sublist .recv rfl
    · rw [outstanding, outstanding, hat]
      exact List.Sublist.refl _
  | create incoming =>
    dsimp only
    cases new_server_stream incoming.client_conv incoming.conv l.settings.config incoming.handshake_data r with
    | ok stream =>
      rw [outstanding, outstanding, hat]
      exact List.Sublist.refl _
    | error e => exact l.queue_sublist (.unmark incoming.peer_addr (.error e)) rfl
  | register peer_addr stream => exact l.queue_sublist (.route peer_addr stream) rfl
  | route peer_addr stream => exact l.queue_sublist (.unmark peer_addr (.ok stream)) rfl
  | unmark peer_addr result => exact l.queue_sublist .recv rfl

/-- The listener's task adds what it puts in the queue. -/
theorem listen_outstanding (l : KcpListener A) (arrival : Arrival A) :
    (l.listen arrival).outstanding = l.outstanding ++ l.queued (.listen arrival) := by
  unfold listen queued
  cases hat : l.listening with
  | select =>
    dsimp only
    rw [List.append_nil]
    split
    · unfold receive
      split
      · split <;> rfl
      · rfl
    · rfl
  | enqueue incoming =>
    dsimp only
    unfold enqueue
    by_cases hroom : l.connection_queue.HasRoom
    · rw [Channel.try_send_of_room hroom, if_pos hroom]
      simp only [outstanding, Channel.push_queue, List.append_assoc]
    · rw [Channel.try_send_of_full hroom, if_neg hroom, List.append_nil]
      rfl
  | check peer_addr data => exact (List.append_nil _).symm
  | insert peer_addr data client_conv => exact (List.append_nil _).symm
  | withdraw peer_addr => exact (List.append_nil _).symm
  | remove_dead dead_addrs => exact (List.append_nil _).symm
  | expire => exact (List.append_nil _).symm

/-- Entries that become streams were outstanding, and entries become outstanding in the queue. -/
theorem step_sublist (l : KcpListener A) (event : Event A) :
    (l.created event ++ (l.step event).outstanding).Sublist (l.outstanding ++ l.queued event) := by
  cases event with
  | listen arrival =>
    rw [step, listen_outstanding]
    exact List.Sublist.refl _
  | accept r =>
    rw [show l.queued (.accept r) = [] from rfl, List.append_nil]
    exact l.accept_sublist r
  | dropped =>
    rw [show l.queued .dropped = [] from rfl, List.append_nil]
    exact l.queue_sublist .recv rfl
  | taken peer_addr n =>
    rw [show l.queued (.taken peer_addr n) = [] from rfl, List.append_nil]
    simp only [step, taken]
    split <;> exact List.Sublist.refl _
  | exited peer_addr =>
    rw [show l.queued (.exited peer_addr) = [] from rfl, List.append_nil]
    simp only [step, exited]
    split <;> exact List.Sublist.refl _

/-- An entry that is queued becomes one stream at most, in the order of the queue. -/
theorem run_created_sublist (settings : Settings) (events : List (Event A)) :
    (Trace.log step created (new A settings) events ++ (Trace.run step (new A settings) events).outstanding).Sublist
      (Trace.log step queued (new A settings) events) := by
  induction events using List.reverseRecOn with
  | nil => exact List.Sublist.refl _
  | append_singleton events event ih =>
    rw [Trace.run_concat, Trace.log_concat, Trace.log_concat, List.append_assoc]
    refine (((step_sublist _ event).append_left _).trans ?_)
    rw [← List.append_assoc]
    exact ih.append_right _

end KcpListener

open KcpListener

/-- While no cleanup expires an entry that has not become a stream, the queue holds one entry of a
peer at most, and only pending entries become streams, each of them one. -/
theorem one_handshake_one_entry [DecidableEq A] (settings : Settings) (events : List (Event A))
    (h : Trace.Always step Spares (new A settings) events) :
    Trace.Always step Sound (new A settings) events ∧
      (Trace.log step created (new A settings) events).Sublist (Trace.log step queued (new A settings) events) := by
  refine ⟨?_, (List.sublist_append_left ..).trans (run_created_sublist settings events)⟩
  suffices hrun : ∀ l : KcpListener A, Inv l → Trace.Always step Spares l events → Trace.Always step Sound l events from
    hrun _ (inv_new settings) h
  clear h
  induction events with
  | nil => exact fun _ _ _ => trivial
  | cons event events ih =>
    rintro l hinv ⟨hfirst, hrest⟩
    exact ⟨hinv.sound event, ih _ (inv_step hinv event hfirst) hrest⟩

/-- The first packet of a client: one byte in conversation 7. -/
def hello : Bytes := (KcpSegment.push 7 0 [1] 0).bytes

/-- The four steps by which the task queues the packet of a peer. -/
def first_packet (peer_addr : Nat) (now : Nat) : List (Event Nat) :=
  List.replicate 4 (.listen { datagram := some (peer_addr, hello), now, random_conv := ⟨1, by decide⟩ })

/-- The steps of a cleanup. -/
def cleanup (steps : Nat) (now : Nat) : List (Event Nat) :=
  List.replicate steps (.listen { datagram := none, now, random_conv := ⟨1, by decide⟩ })

/-- The six steps of a call of `accept`. -/
def accepted : List (Event Nat) := List.replicate 6 (.accept (.at 0))

/-- At the cleanup the entry is half as old as the timeout. -/
theorem one_handshake_one_entry_young :
    Trace.Always step Sound (new Nat .default) (first_packet 5 25000 ++ cleanup 2 30000 ++ accepted) ∧
      (Trace.log step created (new Nat .default) (first_packet 5 25000 ++ cleanup 2 30000 ++ accepted)).Sublist
        (Trace.log step queued (new Nat .default) (first_packet 5 25000 ++ cleanup 2 30000 ++ accepted)) :=
  one_handshake_one_entry .default _ (by decide +kernel)

/-- The first packet of a peer waits for `accept` while its entry is expired, and the client
sends it again. -/
def expired : KcpListener Nat :=
  Trace.run step (new Nat .default) (first_packet 5 0 ++ cleanup 2 30000 ++ first_packet 5 30001)

/-- The queue holds two entries of that peer. The first, which is no longer pending, becomes a stream. After
that stream has ended and been cleaned up, so does the second. -/
theorem handshake_replayed :
    expired.connection_queue.queue.map IncomingConnection.peer_addr = [5, 5] ∧
      (Trace.log step created expired (accepted ++ [.exited 5] ++ cleanup 3 60000 ++ accepted)).map
        (fun incoming => (incoming.peer_addr, incoming.handshake_data, incoming.created_at)) =
        [(5, hello, 0), (5, hello, 30001)] ∧
      (expired.conn_state.pending.lookup 5).map IncomingConnection.created_at = some 30001 := by
  decide +kernel

end kcp_tokio.listener
