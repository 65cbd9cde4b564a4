import Kcp.Listener.Handshake

/-! What the listener does for one peer: its stream sees the packets of that peer alone, and a call
of `accept` that is dropped while it makes the stream shuts the peer out. -/

open Mpsc Retain kcp_core.protocol kcp_core.error kcp_core.engine kcp_tokio.error

namespace kcp_tokio.listener

variable {A : Type}

namespace KcpListener

/-! ### The packets of a peer -/

section Packets

variable {packets more : A → List Bytes} {settings : Settings} {l : KcpListener A}

/-- The entry comes from a packet of its peer, in the conversation which the packet opens. -/
structure Genuine (packets : A → List Bytes) (incoming : IncomingConnection A) : Prop where
  read : incoming.handshake_data ∈ packets incoming.peer_addr
  header : ∃ header rest, KcpHeader.decode incoming.handshake_data = some (header, rest) ∧ header.conv = incoming.client_conv
  kept : incoming.client_conv ≠ 0 → incoming.conv = incoming.client_conv

/-- A packet that was read stays read. -/
theorem Genuine.mono {incoming : IncomingConnection A} (h : Genuine packets incoming)
    (hmore : ∀ peer, (packets peer).Sublist (more peer)) : Genuine more incoming :=
  ⟨(hmore _).subset h.read, h.header, h.kept⟩

/-- The entry that a packet opens is genuine. -/
theorem genuine_incoming {peer_addr : A} {data : Bytes} {client_conv : ConvId} (hread : data ∈ packets peer_addr)
    (hheader : ∃ header rest, KcpHeader.decode data = some (header, rest) ∧ header.conv = client_conv) (arrival : Arrival A) :
    Genuine packets (incoming peer_addr data client_conv arrival) := by
  unfold incoming
  split
  · next hzero => exact ⟨hread, hheader, fun hnot => absurd hzero hnot⟩
  · exact ⟨hread, hheader, fun _ => rfl⟩

/-- The engine has been made of such an entry. -/
def Made (settings : Settings) (packets : A → List Bytes) (peer_addr : A) (stream : KcpEngine) : Prop :=
  ∃ incoming : IncomingConnection A, Genuine packets incoming ∧ incoming.peer_addr = peer_addr ∧
    ∃ r, new_server_stream incoming.client_conv incoming.conv settings.config incoming.handshake_data r = .ok stream

variable [DecidableEq A]

/-- The datagrams that the task reads from the peer. -/
def received (peer_addr : A) (self : KcpListener A) : Event A → List Bytes
  | .listen arrival =>
    match self.listening, arrival.datagram with
    | .select, some (addr, data) => if addr = peer_addr then [data] else []
    | _, _ => []
  | _ => []

/-- What belongs to a peer has come from it: the packets in the channel of its stream, in the order
in which they were read and each of them once; and whatever is on its way to become its stream. -/
structure Own (settings : Settings) (packets : A → List Bytes) (l : KcpListener A) : Prop where
  set : l.settings = settings
  routed : ∀ peer handle, l.active_streams.lookup peer = some handle → handle.input_tx.sent.Sublist (packets peer)
  checked : ∀ peer data, l.listening = .check peer data → data ∈ packets peer
  opening : ∀ peer data conv, l.listening = .insert peer data conv → data ∈ packets peer ∧
    ∃ header rest, KcpHeader.decode data = some (header, rest) ∧ header.conv = conv
  entered : ∀ incoming, l.listening = .enqueue incoming → Genuine packets incoming
  outstanding : ∀ incoming ∈ l.outstanding, Genuine packets incoming
  made : ∀ peer stream, l.accepting = .register peer stream → Made settings packets peer stream

/-- Nothing has been read, and nothing routed. -/
theorem own_new (settings : Settings) (packets : A → List Bytes) : Own settings packets (new A settings) where
  set := rfl
  routed := fun _ _ h => by cases h
  checked := fun _ _ h => by cases h
  opening := fun _ _ _ h => by cases h
  entered := fun _ h => by cases h
  outstanding := fun _ h => by cases h
  made := fun _ _ h => by cases h

/-- What a peer has sent may grow. -/
theorem Own.mono (h : Own settings packets l) (hmore : ∀ peer, (packets peer).Sublist (more peer)) : Own settings more l where
  set := h.set
  routed := fun peer handle hlookup => (h.routed peer handle hlookup).trans (hmore peer)
  checked := fun peer data hat => (hmore peer).subset (h.checked peer data hat)
  opening := fun peer data conv hat => ⟨(hmore peer).subset (h.opening peer data conv hat).1, (h.opening peer data conv hat).2⟩
  entered := fun incoming hat => (h.entered incoming hat).mono hmore
  outstanding := fun incoming hmem => (h.outstanding incoming hmem).mono hmore
  made := fun peer stream hat => by
    obtain ⟨incoming, hgenuine, hmade⟩ := h.made peer stream hat
    exact ⟨incoming, hgenuine.mono hmore, hmade⟩

/-- Only what the task has in its hands changes, and that has come from the peer. -/
theorem Own.listening (h : Own settings packets l) {conn_state : ConnectionState A} {listening : Listening A}
    (hchecked : ∀ peer data, listening = .check peer data → data ∈ packets peer)
    (hopening : ∀ peer data conv, listening = .insert peer data conv → data ∈ packets peer ∧
      ∃ header rest, KcpHeader.decode data = some (header, rest) ∧ header.conv = conv)
    (hentered : ∀ incoming, listening = .enqueue incoming → Genuine packets incoming) :
    Own settings packets { l with conn_state, listening } :=
  ⟨h.set, h.routed, hchecked, hopening, hentered, h.outstanding, h.made⟩

/-- What it has in its hands comes from no packet. -/
theorem Own.idle (h : Own settings packets l) (conn_state : ConnectionState A) {listening : Listening A}
    (hchecked : ∀ peer data, listening ≠ .check peer data) (hopening : ∀ peer data conv, listening ≠ .insert peer data conv)
    (hentered : ∀ incoming, listening ≠ .enqueue incoming) : Own settings packets { l with conn_state, listening } :=
  h.listening (fun peer data hat => absurd hat (hchecked peer data)) (fun peer data conv hat => absurd hat (hopening peer data conv))
    fun incoming hat => absurd hat (hentered incoming)

/-- A stream has taken nothing from its channel that its peer has not sent. -/
theorem Own.streams (h : Own settings packets l) {active_streams : AList fun _ : A => StreamHandle}
    (hrouted : ∀ peer handle, active_streams.lookup peer = some handle → handle.input_tx.sent.Sublist (packets peer)) :
    Own settings packets { l with active_streams } :=
  ⟨h.set, hrouted, h.checked, h.opening, h.entered, h.outstanding, h.made⟩

/-- The channel of a stream is given a new state. -/
theorem Own.replace (h : Own settings packets l) {peer_addr : A} {handle : StreamHandle}
    (hrouted : handle.input_tx.sent.Sublist (packets peer_addr)) :
    Own settings packets { l with active_streams := l.active_streams.replace peer_addr handle } := by
  apply h.streams
  intro peer other hlookup
  rcases lookup_replace_cases hlookup with ⟨rfl, rfl⟩ | hbefore
  · exact hrouted
  · exact h.routed peer other hbefore

/-- A packet goes to the channel of its own peer, or is looked at. -/
theorem own_receive (h : Own settings packets l) {peer_addr : A} {data : Bytes}
    (hmore : ∀ peer, (packets peer).Sublist (more peer)) (hdata : more peer_addr = packets peer_addr ++ [data]) :
    Own settings more (l.receive peer_addr data) := by
  unfold receive
  split
  · next handle hlookup =>
    by_cases hroom : handle.input_tx.HasRoom
    · rw [Channel.try_send_of_room hroom]
      apply (h.mono hmore).replace
      rw [Channel.push_sent, hdata]
      exact (h.routed _ _ hlookup).append_right _
    · rw [Channel.try_send_of_full hroom]
      exact h.mono hmore
  · refine (h.mono hmore).listening (fun peer other hat => ?_) (fun _ _ _ hat => by cases hat) fun _ hat => by cases hat
    cases hat
    rw [hdata]
    exact List.mem_append_right _ List.mem_cons_self

/-- A packet that is looked at has been read from its peer. -/
theorem own_check (h : Own settings packets l) {peer_addr : A} {data : Bytes} (hread : data ∈ packets peer_addr) :
    Own settings packets { l with listening := l.check peer_addr data } := by
  have hselect : ∀ {listening : Listening A}, listening = .select → Own settings packets { l with listening } := by
    rintro _ rfl
    exact h.idle l.conn_state (fun _ _ hnot => by cases hnot) (fun _ _ _ hnot => by cases hnot) fun _ hnot => by cases hnot
  unfold check
  split
  · split
    · exact hselect rfl
    · next header rest hdecode =>
      split
      · exact hselect rfl
      split
      · exact hselect rfl
      split
      · exact hselect rfl
      split
      · exact hselect rfl
      split
      · exact hselect rfl
      · refine h.listening (fun _ _ hat => by cases hat) (fun _ _ _ hat => ?_) fun _ hat => by cases hat
        cases hat
        exact ⟨hread, header, rest, hdecode, rfl⟩
  · exact hselect rfl

/-- A step of the listener's task gives every channel what its peer has sent. -/
theorem own_listen (h : Own settings packets l) (arrival : Arrival A) :
    Own settings (fun peer => packets peer ++ l.received peer (.listen arrival)) (l.listen arrival) := by
  have hmore : ∀ peer, (packets peer).Sublist (packets peer ++ l.received peer (.listen arrival)) := fun peer =>
    List.sublist_append_left ..
  have hown := h.mono hmore
  generalize hpackets : (fun peer => packets peer ++ l.received peer (.listen arrival)) = more at *
  unfold listen
  split
  · next hat =>
    split
    · next peer_addr data hdatagram =>
      apply own_receive h (fun peer => hpackets ▸ hmore peer)
      rw [← hpackets]
      simp only [received, hat, hdatagram, if_true]
    · refine hown.idle l.conn_state (fun _ _ hnot => ?_) (fun _ _ _ hnot => ?_) fun _ hnot => ?_ <;> split at hnot <;> cases hnot
  · next peer_addr data hat => exact own_check hown (hown.checked _ _ hat)
  · next peer_addr data client_conv hat =>
    obtain ⟨hread, hheader⟩ := hown.opening _ _ _ hat
    refine hown.listening (fun _ _ hat => by cases hat) (fun _ _ _ hat => by cases hat) fun _ hat => ?_
    cases hat
    exact genuine_incoming hread hheader arrival
  · next incoming hat =>
    unfold enqueue
    by_cases hroom : l.connection_queue.HasRoom
    · rw [Channel.try_send_of_room hroom]
      refine ⟨hown.set, hown.routed, fun _ _ hat => (by cases hat), fun _ _ _ hat => (by cases hat), fun _ hat => (by cases hat),
        fun other hmem => ?_, hown.made⟩
      have hqueue : other ∈ l.outstanding ++ [incoming] := by
        simpa only [KcpListener.outstanding, Channel.push_queue, List.append_assoc] using hmem
      rcases List.mem_append.mp hqueue with hbefore | hnew
      · exact hown.outstanding other hbefore
      · rw [List.mem_singleton.mp hnew]
        exact hown.entered incoming hat
    · rw [Channel.try_send_of_full hroom]
      exact hown.idle l.conn_state (fun _ _ hnot => by cases hnot) (fun _ _ _ hnot => by cases hnot) fun _ hnot => by cases hnot
  · exact hown.idle _ (fun _ _ hnot => by cases hnot) (fun _ _ _ hnot => by cases hnot) fun _ hnot => by cases hnot
  · next dead_addrs _ =>
    have hstreams : Own settings more { l with
        active_streams := dead_addrs.foldl (fun streams addr => streams.erase addr) l.active_streams } :=
      hown.streams fun peer handle hlookup => hown.routed peer handle (lookup_of_foldl_erase hlookup)
    exact hstreams.idle _ (fun _ _ hnot => by cases hnot) (fun _ _ _ hnot => by cases hnot) fun _ hnot => by cases hnot
  · exact hown.idle _ (fun _ _ hnot => by cases hnot) (fun _ _ _ hnot => by cases hnot) fun _ hnot => by cases hnot

/-- `accept` moves on, with entries that were outstanding. -/
theorem Own.accepting (h : Own settings packets l) (conn_state : ConnectionState A)
    {connection_queue : Channel (IncomingConnection A)} {accepting : Accepting A}
    (hsub : accepting.hand ++ connection_queue.queue ⊆ l.outstanding)
    (hmade : ∀ peer stream, accepting = .register peer stream → Made settings packets peer stream) :
    Own settings packets { l with conn_state, connection_queue, accepting } :=
  ⟨h.set, h.routed, h.checked, h.opening, h.entered, fun incoming hmem => h.outstanding incoming (hsub hmem), hmade⟩

/-- `accept` makes a stream of the packet of its peer. -/
theorem own_accept (h : Own settings packets l) (r : Readings) : Own settings packets (l.accept r) := by
  have hempty : ∀ conn_state {accepting : Accepting A}, accepting.hand = [] → (∀ peer stream, accepting ≠ .register peer stream) →
      Own settings packets { l with conn_state, accepting } := fun conn_state accepting hnone hother =>
    h.accepting conn_state (l.queue_sublist accepting hnone).subset fun peer stream hat => absurd hat (hother peer stream)
  unfold accept
  cases hat : l.accepting with
  | recv =>
    dsimp only
    cases hqueue : l.connection_queue.queue with
    | nil =>
      rw [Channel.poll_recv_nil hqueue]
      cases l.connection_queue.sender_open <;> exact h
    | cons incoming rest =>
      rw [Channel.poll_recv_cons hqueue]
      refine h.accepting l.conn_state ?_ fun _ _ hnot => by cases hnot
      rw [outstanding, hat, Channel.take_queue, hqueue]
      exact List.Subset.refl _
  | mark incoming =>
    dsimp only
    split
    · exact hempty l.conn_state rfl fun _ _ hnot => by cases hnot
    · refine h.accepting _ ?_ fun _ _ hnot => by cases hnot
      rw [outstanding, hat]
      exact List.Subset.refl _
  | create incoming =>
    dsimp only
    have hmem : incoming ∈ l.outstanding := by
      rw [outstanding, hat]
      exact List.mem_cons_self
    split
    · next stream hstream =>
      refine h.accepting l.conn_state (l.queue_sublist (.register incoming.peer_addr stream) rfl).subset fun peer other hnew => ?_
      cases hnew
      exact ⟨incoming, h.outstanding incoming hmem, rfl, r, h.set ▸ hstream⟩
    · exact hempty l.conn_state rfl fun _ _ hnot => by cases hnot
  | register peer_addr stream => exact hempty _ rfl fun _ _ hnot => by cases hnot
  | route peer_addr stream =>
    have hstreams : Own settings packets { l with
        active_streams := l.active_streams.insert peer_addr { input_tx := .new Bytes INPUT_CHANNEL_CAPACITY } } := by
      apply h.streams
      intro peer handle hlookup
      by_cases heq : peer = peer_addr
      · subst heq
        rw [AList.lookup_insert] at hlookup
        cases hlookup
        exact List.nil_sublist _
      · rw [AList.lookup_insert_ne heq] at hlookup
        exact h.routed peer handle hlookup
    exact hstreams.accepting l.conn_state (l.queue_sublist (.unmark peer_addr (.ok stream)) rfl).subset
      fun _ _ hnot => by cases hnot
  | unmark peer_addr result => exact hempty _ rfl fun _ _ hnot => by cases hnot

/-- No step crosses two peers. -/
theorem own_step (h : Own settings packets l) (event : Event A) :
    Own settings (fun peer => packets peer ++ l.received peer event) (l.step event) := by
  have hown := h.mono fun peer => List.sublist_append_left (packets peer) (l.received peer event)
  cases event with
  | listen arrival => exact own_listen h arrival
  | accept r => exact own_accept hown r
  | dropped => exact hown.accepting l.conn_state (l.queue_sublist .recv rfl).subset fun _ _ hnot => by cases hnot
  | taken peer_addr n =>
    simp only [step, taken]
    split
    · next handle hlookup =>
      apply hown.replace
      rw [Channel.take_sent]
      exact hown.routed _ _ hlookup
    · exact hown
  | exited peer_addr =>
    simp only [step, exited]
    split
    · next handle hlookup =>
      apply hown.replace
      exact hown.routed _ handle hlookup
    · exact hown

end Packets

/-! ### A dropped call of `accept` -/

section Dropped

variable [DecidableEq A] {l : KcpListener A} {peer : A}

/-- The peer whose connection is being accepted has no entry in the queue. -/
def Alone (l : KcpListener A) : Prop :=
  ∀ peer ∈ l.accepting.peer, peer ∉ l.connection_queue.queue.map IncomingConnection.peer_addr

/-- The peer is marked as being accepted, and nobody is at work on it. -/
structure Shut (peer : A) (l : KcpListener A) : Prop where
  marked : peer ∈ l.conn_state.accepting
  left : peer ∉ l.accepting.peer
  none : peer ∉ l.peers

/-- The task queues an entry of no peer that is marked. -/
theorem queued_unmarked (h : Inv l) (event : Event A) :
    ∀ incoming ∈ l.queued event, incoming.peer_addr ∉ l.conn_state.accepting := by
  intro incoming hmem
  unfold queued at hmem
  split at hmem
  · split at hmem
    · next hat =>
      split at hmem
      · rw [List.mem_singleton.mp hmem]
        exact (h.candidate _ (by rw [hat]; rfl)).1
      · cases hmem
    · cases hmem
  · cases hmem

/-- The task leaves `accept` and its marks as they are. -/
theorem listen_frame (l : KcpListener A) (arrival : Arrival A) :
    (l.listen arrival).accepting = l.accepting ∧ (l.listen arrival).conn_state.accepting = l.conn_state.accepting := by
  unfold listen
  split
  · split
    · unfold receive
      split
      · split <;> exact ⟨rfl, rfl⟩
      · exact ⟨rfl, rfl⟩
    · exact ⟨rfl, rfl⟩
  · exact ⟨rfl, rfl⟩
  · exact ⟨rfl, rfl⟩
  · unfold enqueue
    split <;> exact ⟨rfl, rfl⟩
  · exact ⟨rfl, rfl⟩
  · exact ⟨rfl, rfl⟩
  · exact ⟨rfl, rfl⟩

/-- `accept` takes up an entry of a peer that has no other in the queue. -/
theorem alone_accept (h : Inv l) (halone : Alone l) (r : Readings) : Alone (l.accept r) := by
  have hsame : ∀ accepting : Accepting A, accepting.peer = l.accepting.peer →
      ∀ peer ∈ accepting.peer, peer ∉ l.connection_queue.queue.map IncomingConnection.peer_addr := fun _ heq peer hpeer =>
    halone peer (heq ▸ hpeer)
  unfold accept
  cases hat : l.accepting with
  | recv =>
    dsimp only
    split
    · exact fun peer hpeer => by cases hpeer
    · exact halone
  | mark incoming =>
    dsimp only
    split
    · exact fun peer hpeer => by cases hpeer
    · intro peer hpeer
      cases hpeer
      have hdistinct := h.distinct
      rw [peers, outstanding, hat] at hdistinct
      exact (List.nodup_cons.mp hdistinct).1
  | create incoming =>
    dsimp only
    split
    · exact hsame (.register incoming.peer_addr _) (by rw [hat]; rfl)
    · exact hsame (.unmark incoming.peer_addr _) (by rw [hat]; rfl)
  | register peer_addr stream => exact hsame (.route peer_addr stream) (by rw [hat]; rfl)
  | route peer_addr stream => exact hsame (.unmark peer_addr (.ok stream)) (by rw [hat]; rfl)
  | unmark peer_addr result => exact fun peer hpeer => by cases hpeer

/-- Whoever takes the step. -/
theorem alone_step (h : Inv l) (halone : Alone l) (event : Event A) : Alone (l.step event) := by
  cases event with
  | listen arrival =>
    obtain ⟨haccepting, _⟩ := l.listen_frame arrival
    have hall := l.listen_outstanding arrival
    unfold outstanding at hall
    rw [haccepting, List.append_assoc, List.append_cancel_left_eq] at hall
    intro peer hpeer hmem
    have hbefore : peer ∈ l.accepting.peer := haccepting ▸ hpeer
    change peer ∈ ((l.listen arrival).connection_queue.queue.map IncomingConnection.peer_addr) at hmem
    rw [hall, List.map_append] at hmem
    rcases List.mem_append.mp hmem with hmem | hmem
    · exact halone peer hbefore hmem
    · obtain ⟨incoming, hqueued, rfl⟩ := List.mem_map.mp hmem
      exact queued_unmarked h _ incoming hqueued (h.marked _ hbefore)
  | accept r => exact alone_accept h halone r
  | dropped => exact fun peer hpeer => by cases hpeer
  | taken peer_addr n =>
    simp only [step, taken]
    split <;> exact halone
  | exited peer_addr =>
    simp only [step, exited]
    split <;> exact halone

/-- No entry of the peer becomes outstanding or a stream. -/
theorem Shut.untouched (hshut : Shut peer l) (h : Inv l) (event : Event A) :
    ∀ incoming ∈ l.created event ++ (l.step event).outstanding, incoming.peer_addr ≠ peer := by
  rintro incoming hmem rfl
  rcases List.mem_append.mp ((l.step_sublist event).subset hmem) with hbefore | hqueued
  · exact hshut.none (List.mem_map_of_mem hbefore)
  · exact queued_unmarked h event incoming hqueued hshut.marked

/-- A call of `accept` does not come to the peer that is locked out. -/
theorem shut_accept (hshut : Shut peer l) (r : Readings) :
    peer ∈ (l.accept r).conn_state.accepting ∧ peer ∉ (l.accept r).accepting.peer := by
  obtain ⟨hmarked, hleft, hnone⟩ := hshut
  unfold accept
  cases hat : l.accepting with
  | recv =>
    dsimp only
    split
    · exact ⟨hmarked, fun hpeer => by cases hpeer⟩
    · exact ⟨hmarked, hleft⟩
  | mark incoming =>
    dsimp only
    split
    · exact ⟨hmarked, fun hpeer => by cases hpeer⟩
    · refine ⟨Finset.mem_insert_of_mem hmarked, fun hpeer => hnone ?_⟩
      cases hpeer
      rw [peers, outstanding, hat]
      exact List.mem_cons_self
  | create incoming =>
    rw [hat] at hleft
    dsimp only
    split <;> exact ⟨hmarked, hleft⟩
  | register peer_addr stream =>
    rw [hat] at hleft
    exact ⟨hmarked, hleft⟩
  | route peer_addr stream =>
    rw [hat] at hleft
    exact ⟨hmarked, hleft⟩
  | unmark peer_addr result =>
    rw [hat] at hleft
    refine ⟨Finset.mem_erase.mpr ⟨fun heq => hleft ?_, hmarked⟩, fun hpeer => by cases hpeer⟩
    rw [heq]
    rfl

/-- No step of any other kind comes to the peer that is locked out. -/
theorem shut_step (hshut : Shut peer l) (h : Inv l) (event : Event A) : Shut peer (l.step event) := by
  have hnone : peer ∉ (l.step event).peers := fun hmem => by
    obtain ⟨incoming, hincoming, heq⟩ := List.mem_map.mp hmem
    exact hshut.untouched h event incoming (List.mem_append_right _ hincoming) heq
  cases event with
  | listen arrival =>
    obtain ⟨haccepting, hmarks⟩ := l.listen_frame arrival
    refine ⟨?_, ?_, hnone⟩
    · change peer ∈ (l.listen arrival).conn_state.accepting
      rw [hmarks]
      exact hshut.marked
    · change peer ∉ (l.listen arrival).accepting.peer
      rw [haccepting]
      exact hshut.left
  | accept r => exact ⟨(shut_accept hshut r).1, (shut_accept hshut r).2, hnone⟩
  | dropped => exact ⟨hshut.marked, fun hpeer => (by cases hpeer), hnone⟩
  | taken peer_addr n =>
    simp only [step, taken]
    split <;> exact ⟨hshut.marked, hshut.left, hshut.none⟩
  | exited peer_addr =>
    simp only [step, exited]
    split <;> exact ⟨hshut.marked, hshut.left, hshut.none⟩

/-- From then on the peer is shut out. -/
theorem shut_run (hshut : Shut peer l) (h : Inv l) {events : List (Event A)} (hspares : Trace.Always step Spares l events) :
    Shut peer (Trace.run step l events) ∧ ∀ incoming ∈ Trace.log step created l events, incoming.peer_addr ≠ peer := by
  induction events generalizing l with
  | nil => exact ⟨hshut, fun _ hmem => by cases hmem⟩
  | cons event events ih =>
    obtain ⟨hfirst, hrest⟩ := hspares
    obtain ⟨hlast, hcreated⟩ := ih (shut_step hshut h event) (inv_step h event hfirst) hrest
    refine ⟨hlast, fun incoming hmem => ?_⟩
    rcases List.mem_append.mp hmem with hmem | hmem
    · exact hshut.untouched h event incoming (List.mem_append_left _ hmem)
    · exact hcreated incoming hmem

/-- When `accept` is dropped, nobody is left to take the mark of the peer back. -/
theorem shut_dropped (h : Inv l) (halone : Alone l) (hpeer : peer ∈ l.accepting.peer) : Shut peer (l.step .dropped) where
  marked := h.marked peer hpeer
  left := fun hnot => by cases hnot
  none := halone peer hpeer

end Dropped

end KcpListener

open KcpListener

/-- In every state of every run, what the channel of a stream has ever held are packets of its own peer,
in the order in which they were read and none twice; and a stream that is made is made of a packet of
its own peer, in the conversation of that packet. -/
theorem no_cross_talk [DecidableEq A] (settings : Settings) (events : List (Event A)) :
    (∀ peer handle, (Trace.run step (new A settings) events).active_streams.lookup peer = some handle →
      handle.input_tx.sent.Sublist (Trace.log step (received peer) (new A settings) events)) ∧
      ∀ peer stream, (Trace.run step (new A settings) events).accepting = .register peer stream →
        Made settings (fun peer => Trace.log step (received peer) (new A settings) events) peer stream := by
  have hown : Own settings (fun peer => Trace.log step (received peer) (new A settings) events)
      (Trace.run step (new A settings) events) := by
    induction events using List.reverseRecOn with
    | nil => exact own_new settings _
    | append_singleton events event ih =>
      simp only [Trace.run_concat, Trace.log_concat]
      exact own_step ih event
  exact ⟨hown.routed, hown.made⟩

/-- If a call of `accept` is dropped while it makes the stream of a peer, then, whatever happens after
that, the peer stays marked as being accepted, and no stream is made for it. -/
theorem dropped_locks_out [DecidableEq A] (settings : Settings) (before after : List (Event A))
    (h : Trace.Always step Spares (new A settings) (before ++ .dropped :: after)) (peer : A)
    (hpeer : peer ∈ (Trace.run step (new A settings) before).accepting.peer) :
    peer ∈ (Trace.run step (new A settings) (before ++ .dropped :: after)).conn_state.accepting ∧
      ∀ incoming ∈ Trace.log step created (Trace.run step (new A settings) (before ++ [.dropped])) after,
        incoming.peer_addr ≠ peer := by
  obtain ⟨hbefore, _, hafter⟩ := Trace.always_append.mp h
  have hrun : ∀ events : List (Event A), Trace.Always step Spares (new A settings) events →
      Inv (Trace.run step (new A settings) events) ∧ Alone (Trace.run step (new A settings) events) := by
    intro events hspares
    induction events using List.reverseRecOn with
    | nil => exact ⟨inv_new settings, fun _ hnot => by cases hnot⟩
    | append_singleton events event ih =>
      obtain ⟨hfirst, hlast⟩ := Trace.always_concat.mp hspares
      obtain ⟨hinv, halone⟩ := ih hfirst
      rw [Trace.run_concat]
      exact ⟨inv_step hinv event hlast, alone_step hinv halone event⟩
  obtain ⟨hinv, halone⟩ := hrun before hbefore
  obtain ⟨hshut, hcreated⟩ := shut_run (shut_dropped hinv halone hpeer) (inv_step hinv .dropped trivial) hafter
  rw [Trace.run_append, Trace.run_cons, Trace.run_concat]
  exact ⟨hshut.marked, hcreated⟩

/-- The future of `accept` is dropped when it has made the engine. The peer sends its packet again. -/
theorem dropped_locks_out_retry :
    5 ∈ (Trace.run step (new Nat .default)
        (first_packet 5 0 ++ accepted.take 3 ++ .dropped :: (first_packet 5 1 ++ accepted))).conn_state.accepting ∧
      ∀ incoming ∈ Trace.log step created
        (Trace.run step (new Nat .default) (first_packet 5 0 ++ accepted.take 3 ++ [.dropped])) (first_packet 5 1 ++ accepted),
        incoming.peer_addr ≠ 5 :=
  dropped_locks_out .default (first_packet 5 0 ++ accepted.take 3) (first_packet 5 1 ++ accepted) (by decide +kernel) 5
    (by decide +kernel)

end kcp_tokio.listener
