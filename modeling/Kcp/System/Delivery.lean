import Kcp.System.State

/-! What is written at one end is read at the other: the system is a pipe in each direction. -/

open Mpsc kcp_core.protocol kcp_core.config kcp_core.error kcp_core.engine kcp_core.network
open kcp_tokio.stream kcp_tokio.actor kcp_tokio.connection kcp_tokio.listener

namespace kcp_tokio.system

open Connection (ReadSoFar)

/-! ### The handshake -/

/-- The entry keeps the packet and its conversation, unless that is zero. -/
theorem first_packet_some {settings : listener.Settings} {packet : Bytes} {arrival : Arrival Unit}
    {incoming : IncomingConnection Unit} (h : first_packet settings packet arrival = some incoming) :
    ∃ header rest, KcpHeader.decode packet = some (header, rest) ∧ incoming.handshake_data = packet ∧
      incoming.client_conv = header.conv ∧ (header.conv ≠ 0 → incoming.conv = header.conv) := by
  unfold first_packet at h
  split at h
  · next hinsert =>
    obtain rfl := Option.some.inj h
    have hentry : ∀ (conv : ConvId), (KcpListener.incoming () packet conv arrival).handshake_data = packet ∧
        (KcpListener.incoming () packet conv arrival).client_conv = conv ∧
        (conv ≠ 0 → (KcpListener.incoming () packet conv arrival).conv = conv) := by
      intro conv
      unfold KcpListener.incoming
      split
      · next hzero => exact ⟨rfl, rfl, fun hne => absurd hzero hne⟩
      · exact ⟨rfl, rfl, fun _ => rfl⟩
    unfold KcpListener.check at hinsert
    split at hinsert
    · split at hinsert
      · cases hinsert
      · next header rest hdecode =>
        split_ifs at hinsert
        cases hinsert
        exact ⟨header, rest, hdecode, hentry header.conv⟩
    · cases hinsert
  · cases h

/-- The first header of a datagram that starts with one is that of a segment in it. -/
theorem carries_decode {P : KcpHeader → Bytes → Prop} {datagram rest : Bytes} {header : KcpHeader}
    (h : KcpEngine.Carries P datagram) (hdecode : KcpHeader.decode datagram = some (header, rest)) : ∃ data, P header data := by
  obtain ⟨segments, rfl, hall⟩ := h
  cases segments with
  | nil => cases hdecode
  | cons s segments =>
    rw [List.flatMap_cons, KcpSegment.bytes, List.append_assoc, KcpHeader.decode_bytes] at hdecode
    cases hdecode
    exact ⟨s.data, (hall s List.mem_cons_self).2⟩

/-- With the conversation of the client, the engine of a new stream has taken the packet,
updated and flushed. -/
theorem new_server_stream_calls {conv : ConvId} {config : config.KcpConfig} {packet : Bytes} {r : listener.Readings}
    {stream : KcpEngine} (h : new_server_stream conv conv config packet r = .ok stream) :
    ∃ b : Start, b.config.toKcpConfig = config ∧ b.conv = conv ∧
      b.reached [.input r.input packet, .update r.update r.updated, .flush r.flush] = stream := by
  unfold new_server_stream at h
  split at h
  · next hvalid =>
    refine ⟨{ conv, config := { config with accepted := hvalid }, updated := r.created, active := r.created }, rfl, rfl, ?_⟩
    simp only [bind, Except.bind] at h
    split at h
    · cases h
    split at h
    · cases h
    split at h
    · cases h
    simp only [if_true] at h
    exact Except.ok.inj h
  · cases h

/-! ### As two engines and their network -/

/-- The client alone is one side of any pair with its conversation, and the two streams are
the sides of a pair. -/
inductive Matches (start : Start) (s : System) : Prop
  | alone (a : Endpoint) (none : s.server = none) (client : Host.Backed start s.client a)
      (reached : ∀ b, ∀ h : b.conv = start.conv, ∃ events, Pair.reached ⟨start, b, h⟩ events = ⟨a, .fresh b⟩)
  | joined (pair : Pair) (events : List kcp_core.network.Event) (host : Host) (some : s.server = some host) (origin : pair.a = start)
      (client : Host.Backed start s.client (pair.reached events).a) (server : Host.Backed pair.b host (pair.reached events).b)
      (config : pair.b.config.toKcpConfig = s.settings.config)
      (lined : Host.Lined pair.b host)

structure Joint (start : Start) (s : System) : Prop where
  lined : Host.Lined start s.client
  matched : Matches start s

variable {start : Start} {s : System}

/-- Before the listener has accepted, the client is alone. -/
theorem joint_new (start : Start) (settings : listener.Settings) (boot : Boot) : Joint start (.new start settings boot) := by
  refine ⟨Host.lined_launch .., ?_⟩
  obtain ⟨calls, hbacked, hlocal⟩ :=
    Host.backed_launch start [] (fun _ h => absurd h List.not_mem_nil) rfl rfl boot
  refine .alone _ rfl hbacked fun b h => ?_
  exact (Pair.fresh ⟨start, b, h⟩).run_a _ fun op hmem => .inl (hlocal op hmem)

/-- A step of the client: its packets come from the server, if there is one. -/
theorem joint_client (h : Joint start s) {event : connection.Event} (hpossible : s.Possible (.client event)) :
    Joint start { s with client := s.client.step event } := by
  have hfed := (s.client.connection.makes_step event).fed
  refine ⟨Host.lined_step h.lined event, ?_⟩
  rcases h.matched with ⟨a, hnone, hclient, hreached⟩ | ⟨pair, events, host, hsome, rfl, hclient, hserver, hconfig, hlined⟩
  · refine .alone _ hnone (hclient.step h.lined event) fun b hconv => ?_
    obtain ⟨events, hevents⟩ := hreached b hconv
    obtain ⟨more, hmore⟩ := (Pair.reached ⟨start, b, hconv⟩ events).run_a (s.client.connection.calls event) (by
      intro op hmem
      refine (hfed op hmem).imp_right ?_
      rintro ⟨now, data, hdata, rfl⟩
      have hnot := hpossible data hdata
      unfold System.returning at hnot
      rw [hnone] at hnot
      cases hnot)
    refine ⟨events ++ more, ?_⟩
    rw [Pair.reached_append, hmore, hevents]
  · obtain ⟨more, hmore⟩ := (pair.reached events).run_a (s.client.connection.calls event) (by
      intro op hmem
      refine (hfed op hmem).imp_right ?_
      rintro ⟨now, data, hdata, rfl⟩
      have hwire := hpossible data hdata
      unfold System.returning at hwire
      rw [hsome] at hwire
      exact ⟨now, data, hserver.wire ▸ hwire, rfl⟩)
    rw [← Pair.reached_append] at hmore
    refine .joined pair (events ++ more) host hsome rfl ?_ ?_ hconfig hlined
    · rw [hmore]
      exact hclient.step h.lined event
    · rw [hmore]
      exact hserver

/-- A step of the server: its packets come from the client. -/
theorem joint_server (h : Joint start s) {event : connection.Event} (hpossible : s.Possible (.server event)) :
    Joint start { s with server := s.server.map fun host => host.step event } := by
  refine ⟨h.lined, ?_⟩
  rcases h.matched with ⟨a, hnone, hclient, hreached⟩ | ⟨pair, events, host, hsome, rfl, hclient, hserver, hconfig, hlined⟩
  · exact .alone a (by rw [hnone]; rfl) hclient hreached
  · obtain ⟨more, hmore⟩ := (pair.reached events).run_b (host.connection.calls event) (by
      intro op hmem
      refine ((host.connection.makes_step event).fed op hmem).imp_right ?_
      rintro ⟨now, data, hdata, rfl⟩
      exact ⟨now, data, hclient.wire ▸ hpossible data hdata, rfl⟩)
    rw [← Pair.reached_append] at hmore
    refine .joined pair (events ++ more) (host.step event) (by rw [hsome]; rfl) rfl ?_ ?_ hconfig
      (Host.lined_step hlined event)
    · rw [hmore]
      exact hclient
    · rw [hmore]
      exact hserver.step hlined event

/-- The stream that `accept` makes has the conversation of the client. -/
theorem joint_accept (hconv : start.conv ≠ 0) (h : Joint start s) {packet : Bytes} {arrival : Arrival Unit} {r : listener.Readings}
    {boot : Boot} (hpossible : s.Possible (.accept packet arrival r boot)) : Joint start (s.accept packet arrival r boot) := by
  obtain ⟨hfree, hpacket⟩ := hpossible
  rcases h.matched with ⟨a, hnone, hclient, hreached⟩ | ⟨_, _, _, hsome, _⟩
  swap
  · rw [hsome] at hfree
    cases hfree
  unfold System.accept
  split
  · next incoming hfirst =>
    obtain ⟨header, rest, hdecode, hdata, hclient_conv, hserver_conv⟩ := first_packet_some hfirst
    have hheader : header.conv = start.conv := by
      obtain ⟨events, hevents⟩ := hreached start rfl
      obtain ⟨hflowing, _⟩ := Pair.flowing ⟨start, start, rfl⟩ events
      rw [hevents] at hflowing
      obtain ⟨_, htells⟩ := carries_decode (hflowing.wire packet (hclient.wire ▸ hpacket)) hdecode
      exact htells.conv
    rw [hclient_conv, hserver_conv (hheader ▸ hconv), hdata, hheader]
    split
    · next engine hengine =>
      obtain ⟨b, hconfig, hsame, rfl⟩ := new_server_stream_calls hengine
      obtain ⟨events, hevents⟩ := hreached b hsame
      obtain ⟨calls, hbacked, hlocal⟩ := Host.backed_launch b
        [.input r.input packet, .update r.update r.updated, .flush r.flush] (by simp [Op.NoSend]) rfl rfl boot
      obtain ⟨more, hmore⟩ := (Pair.reached ⟨start, b, hsame⟩ events).run_b
        ([.input r.input packet, .update r.update r.updated, .flush r.flush] ++ calls) (by
          intro op hmem
          rcases List.mem_append.mp hmem with hmem | hmem
          · simp only [List.mem_cons, List.not_mem_nil, or_false] at hmem
            rcases hmem with rfl | rfl | rfl
            · rw [hevents]
              exact .inr ⟨r.input, packet, hclient.wire ▸ hpacket, rfl⟩
            · exact .inl rfl
            · exact .inl rfl
          · exact .inl (hlocal op hmem))
      rw [← Pair.reached_append, hevents] at hmore
      rw [← hconfig]
      refine ⟨h.lined, .joined ⟨start, b, hsame⟩ (events ++ more) _ rfl rfl ?_ ?_ hconfig (Host.lined_launch ..)⟩
      · rw [hmore]
        exact hclient
      · rw [hmore]
        exact hbacked
    · exact h
  · exact h

/-- Every event of the system is a run of the pair. -/
theorem joint_step (hconv : start.conv ≠ 0) (h : Joint start s) (event : Event) : Joint start (s.step event) := by
  unfold System.step
  split_ifs with hpossible
  · cases event with
    | client event => exact joint_client h hpossible
    | server event => exact joint_server h hpossible
    | accept packet arrival r boot => exact joint_accept hconv h hpossible
  · exact h

/-- Every run of the system is a run of two engines and their network. -/
theorem joint_run (hconv : start.conv ≠ 0) (settings : listener.Settings) (boot : Boot) (events : List Event) :
    Joint start (Trace.run System.step (.new start settings boot) events) :=
  Trace.invariant (fun _ s => Joint start s) (joint_new start settings boot) (fun _ event h => joint_step hconv h event) events

/-! ### What the owners have seen -/

/-- These writes have been reported and these bytes returned. -/
structure Seen (s : System) (there back : List (Pipe.Action U8)) : Prop where
  written : Pipe.puts there = s.client.connection.stream.send_tx.sent.flatten
  read : ReadSoFar (Pipe.gets back) s.client.connection
  answered : Pipe.puts back = ((s.server.map fun host => host.connection.stream.send_tx.sent.flatten).getD [])
  arrived : ∀ host ∈ s.server, ReadSoFar (Pipe.gets there) host.connection
  unread : s.server = none → Pipe.gets there = []

/-- Nothing has been written and nothing read. -/
theorem seen_new (start : Start) (settings : listener.Settings) {boot : Boot} (hboot : boot.Apart) :
    Seen (.new start settings boot) [] [] where
  written := rfl
  read := Connection.readSoFar_launch _ _ hboot
  answered := rfl
  arrived := fun _ h => by cases h
  unread := fun _ => rfl

variable {there back : List (Pipe.Action U8)}

/-- A step of the client writes at one end, and reads at the other. -/
theorem seen_client (h : Seen s there back) {event : connection.Event} (horderly : s.Orderly (.client event)) :
    Seen { s with client := s.client.step event } (there ++ s.there (.client event)) (back ++ s.back (.client event)) := by
  obtain ⟨hcontinues, hturn, hapart⟩ := horderly
  simp only [System.there, System.back]
  refine ⟨?_, ?_, ?_, fun host hhost => ?_, fun hnone => ?_⟩
  · rw [Pipe.puts_append, Pipe.puts_map_put, h.written]
    exact (s.client.connection.sent_step hcontinues).symm
  · rw [Pipe.gets_append, Pipe.gets_map_get]
    exact Connection.readSoFar_step h.read hapart hturn
  · rw [Pipe.puts_append, Pipe.puts_map_get, List.append_nil]
    exact h.answered
  · rw [Pipe.gets_append, Pipe.gets_map_put, List.append_nil]
    exact h.arrived host hhost
  · rw [Pipe.gets_append, Pipe.gets_map_put, List.append_nil]
    exact h.unread hnone

/-- A step of the server does so the other way around. -/
theorem seen_server (h : Seen s there back) {event : connection.Event} (horderly : s.Orderly (.server event)) :
    Seen { s with server := s.server.map fun host => host.step event } (there ++ s.there (.server event))
      (back ++ s.back (.server event)) := by
  obtain ⟨hcontinues, hapart⟩ := horderly
  obtain ⟨hwritten, hread, hanswered, harrived, hunread⟩ := h
  simp only [System.there, System.back]
  refine ⟨?_, ?_, ?_, fun host hhost => ?_, fun hnone => ?_⟩
  · rw [Pipe.puts_append, Pipe.puts_map_get, List.append_nil]
    exact hwritten
  · rw [Pipe.gets_append, Pipe.gets_map_put, List.append_nil]
    exact hread
  · rw [Pipe.puts_append, Pipe.puts_map_put, hanswered]
    cases hserver : s.server with
    | none => rfl
    | some host => exact (host.connection.sent_step (hcontinues host hserver).1).symm
  · obtain ⟨before, hbefore, rfl⟩ := Option.map_eq_some_iff.mp hhost
    rw [Pipe.gets_append, Pipe.gets_map_get, hbefore]
    exact Connection.readSoFar_step (harrived before hbefore) hapart (hcontinues before hbefore).2
  · have hserver := Option.map_eq_none_iff.mp hnone
    rw [Pipe.gets_append, Pipe.gets_map_get, hunread hserver, hserver]
    rfl

/-- To a stream that has just been made nothing has been written, and nothing has been read from it.
-/
theorem seen_accept (h : Seen s there back) (hfree : s.server = none) (packet : Bytes) (arrival : Arrival Unit)
    (r : listener.Readings) {boot : Boot} (hboot : boot.Apart) : Seen (s.accept packet arrival r boot) there back := by
  unfold System.accept
  split
  · split
    · refine ⟨h.written, h.read, ?_, fun host hhost => ?_, fun hnone => by cases hnone⟩
      · rw [h.answered, hfree]
        rfl
      · cases hhost
        rw [h.unread hfree]
        exact Connection.readSoFar_launch _ _ hboot
    · exact h
  · exact h

/-- An event that brings a packet is no call of an owner. -/
theorem quiet_of_arriving {c : Connection} {event : connection.Event} {data : Bytes} (h : Connection.arriving event = some data) :
    c.written event = [] ∧ c.returned event = [] := by
  cases event with
  | advance finds => exact ⟨rfl, rfl⟩
  | _ => cases h

/-- The owners see what goes into the channels of their streams, and what comes out. -/
theorem seen_step (h : Seen s there back) {event : Event} (horderly : s.Orderly event) :
    Seen (s.step event) (there ++ s.there event) (back ++ s.back event) := by
  unfold System.step
  split_ifs with hpossible
  · cases event with
    | client event => exact seen_client h horderly
    | server event => exact seen_server h horderly
    | accept packet arrival r boot =>
      simp only [System.there, System.back, List.append_nil]
      exact seen_accept h (Option.isNone_iff_eq_none.mp hpossible.1) packet arrival r horderly
  · have hquiet : s.there event = [] ∧ s.back event = [] := by
      cases event with
      | accept packet arrival r boot => exact ⟨rfl, rfl⟩
      | client event =>
        obtain ⟨data, hdata⟩ : ∃ data, Connection.arriving event = some data := by
          by_contra hnone
          exact hpossible fun data hdata => absurd ⟨data, hdata⟩ hnone
        obtain ⟨hwritten, hreturned⟩ := quiet_of_arriving (c := s.client.connection) hdata
        simp only [System.there, System.back, hwritten, hreturned, List.map_nil, and_self]
      | server event =>
        obtain ⟨data, hdata⟩ : ∃ data, Connection.arriving event = some data := by
          by_contra hnone
          exact hpossible fun data hdata => absurd ⟨data, hdata⟩ hnone
        cases hserver : s.server with
        | none => simp only [System.there, System.back, hserver, Option.map_none, Option.getD_none, List.map_nil, and_self]
        | some host =>
          obtain ⟨hwritten, hreturned⟩ := quiet_of_arriving (c := host.connection) hdata
          simp only [System.there, System.back, hserver, Option.map_some, Option.getD_some, hwritten, hreturned, List.map_nil,
            and_self]
    rw [hquiet.1, hquiet.2, List.append_nil, List.append_nil]
    exact h

/-! ### What comes of it -/

/-- What is written at an end is little enough for its numbers to be told apart. -/
def Host.Few (host : Host) : Prop := pieces host.connection.stream.mss host.connection.stream.send_tx.sent < 2 ^ 31

instance decidableFewHost (host : Host) : Decidable host.Few :=
  inferInstanceAs (Decidable (pieces host.connection.stream.mss host.connection.stream.send_tx.sent < 2 ^ 31))

def Few (s : System) : Prop := s.client.Few ∧ ∀ host ∈ s.server, host.Few

instance decidableFew (s : System) : Decidable (Few s) := inferInstanceAs (Decidable (_ ∧ ∀ host ∈ s.server, host.Few))

theorem Host.few_of_step {host : Host} {event : connection.Event} (h : (host.step event).Few) : host.Few := by
  have hle := pieces_of_prefix host.connection.stream.mss (host.connection.sent_prefix_step event)
  have hsize := host.connection.mss_step event
  unfold Host.Few at h
  change pieces (host.connection.step event).stream.mss (host.connection.step event).stream.send_tx.sent < 2 ^ 31 at h
  rw [hsize] at h
  exact hle.trans_lt h

/-- What is little after a step was little before it. -/
theorem few_of_step {event : Event} (h : Few (s.step event)) : Few s := by
  unfold System.step at h
  split_ifs at h
  · cases event with
    | client event => exact ⟨Host.few_of_step h.1, h.2⟩
    | server event =>
      refine ⟨h.1, fun host hhost => ?_⟩
      exact Host.few_of_step (h.2 (host.step event) (Option.map_eq_some_iff.mpr ⟨host, hhost, rfl⟩))
    | accept packet arrival r boot =>
      have hpossible : s.Possible (.accept packet arrival r boot) := by assumption
      have hfree := Option.isNone_iff_eq_none.mp hpossible.1
      refine ⟨?_, fun host hhost => by rw [hfree] at hhost; cases hhost⟩
      change Few (s.accept packet arrival r boot) at h
      unfold System.accept at h
      split at h
      · split at h <;> exact h.1
      · exact h.1
  · exact h

/-- An endpoint that is offered so little uses fewer than `2 ^ 31` numbers. -/
theorem Host.Backed.few {host : Host} {p : Endpoint} (h : Host.Backed start host p) (hlined : Host.Lined start host)
    (hfew : host.Few) : p.numbered < 2 ^ 31 := by
  have hload := h.light.few
  rw [h.sent] at hload
  have hle := pieces_of_prefix (KcpStream.new start.config.toKcpConfig).mss hlined.passed
  unfold Host.Few at hfew
  rw [hlined.chunked.size] at hfew
  unfold load at hload
  omega

theorem prefix_flatten {first second : List Bytes} (h : first <+: second) : first.flatten <+: second.flatten := by
  obtain ⟨rest, rfl⟩ := h
  rw [List.flatten_append]
  exact List.prefix_append ..

/-- What has been placed in the data channel of the one side has been written at the other. -/
theorem placed_of_joint (h : Joint start s) (hfew : Few s) :
    (∀ host ∈ s.server, host.connection.actor.data_tx.sent.flatten <+: s.client.connection.stream.send_tx.sent.flatten) ∧
      s.client.connection.actor.data_tx.sent.flatten <+:
        ((s.server.map fun host => host.connection.stream.send_tx.sent.flatten).getD []) := by
  obtain ⟨hclient_few, hserver_few⟩ := hfew
  rcases h.matched with ⟨a, hnone, hclient, hreached⟩ | ⟨pair, events, host, hsome, rfl, hclient, hserver, hconfig, hlined⟩
  · rw [hnone]
    refine ⟨fun _ hhost => (by cases hhost), ?_⟩
    obtain ⟨events, hevents⟩ := hreached start rfl
    have hswap := Pair.reached_swap ⟨start, start, rfl⟩ events
    rw [hevents] at hswap
    have hbytes := received_bytes (Pair.swap ⟨start, start, rfl⟩) (events.map Event.swap) (by rw [hswap]; rfl)
      (by rw [hswap]; exact Nat.pow_pos (by decide))
    rw [hswap] at hbytes
    rw [← hclient.received]
    exact hbytes
  · rw [hsome]
    refine ⟨fun other hother => ?_, ?_⟩
    · cases hother
      rw [← hserver.received]
      refine (received_bytes pair events hclient.light.accepted (hclient.few h.lined hclient_few)).trans ?_
      rw [hclient.sent]
      exact prefix_flatten h.lined.passed
    · rw [← hclient.received]
      have hswap := pair.reached_swap events
      have hbytes := received_bytes pair.swap (events.map Event.swap) (by rw [hswap]; exact hserver.light.accepted)
        (by rw [hswap]; exact hserver.few hlined (hserver_few host hsome))
      rw [hswap] at hbytes
      refine hbytes.trans ?_
      change (pair.reached events).b.sent.flatten <+: _
      rw [hserver.sent]
      exact prefix_flatten hlined.passed

/-- In each direction, what has been read begins what has been written. -/
theorem ordered_of_joint (h : Joint start s) (hseen : Seen s there back) (hfew : Few s) :
    Pipe.gets there <+: Pipe.puts there ∧ Pipe.gets back <+: Pipe.puts back := by
  obtain ⟨hthere, hback⟩ := placed_of_joint h hfew
  constructor
  · rw [hseen.written]
    cases hserver : s.server with
    | none =>
      rw [hseen.unread hserver]
      exact List.nil_prefix
    | some host =>
      have hplaced : Pipe.gets there ++ _ = _ := hseen.arrived host hserver
      exact (hplaced ▸ List.prefix_append ..).trans (hthere host hserver)
  · rw [hseen.answered]
    have hplaced : Pipe.gets back ++ _ = _ := hseen.read
    exact (hplaced ▸ List.prefix_append ..).trans hback

/-- One event more keeps the order in the one direction. -/
theorem legal_there (h : Pipe.Legal there) (event : Event)
    (hnext : Pipe.gets (there ++ s.there event) <+: Pipe.puts (there ++ s.there event)) : Pipe.Legal (there ++ s.there event) := by
  cases event with
  | client event => exact h.puts _
  | server event =>
    apply h.gets
    simpa [System.there] using hnext
  | accept packet arrival r boot =>
    rw [System.there, List.append_nil]
    exact h

/-- One event more keeps the order in the other direction. -/
theorem legal_back (h : Pipe.Legal back) (event : Event)
    (hnext : Pipe.gets (back ++ s.back event) <+: Pipe.puts (back ++ s.back event)) : Pipe.Legal (back ++ s.back event) := by
  cases event with
  | client event =>
    apply h.gets
    simpa [System.back] using hnext
  | server event => exact h.puts _
  | accept packet arrival r boot =>
    rw [System.back, List.append_nil]
    exact h

/-- A client and the server that it has reached are connected by a pipe in each direction: whatever
the network loses, repeats, delays or reorders, and however the tasks and the owners of the
streams take turns, what is read at the one end are the bytes that were reported as written at
the other, in order, each of them once. -/
theorem end_to_end (start : Start) (hconv : start.conv ≠ 0) (settings : listener.Settings) (boot : Boot) (hboot : boot.Apart)
    (events : List Event) (horderly : Trace.Always System.step System.Orderly (.new start settings boot) events)
    (hfew : Few (Trace.run System.step (.new start settings boot) events)) :
    Pipe.Legal (Trace.log System.step System.there (.new start settings boot) events) ∧
      Pipe.Legal (Trace.log System.step System.back (.new start settings boot) events) := by
  suffices hall : Seen (Trace.run System.step (.new start settings boot) events)
      (Trace.log System.step System.there (.new start settings boot) events)
      (Trace.log System.step System.back (.new start settings boot) events) ∧
        Pipe.Legal (Trace.log System.step System.there (.new start settings boot) events) ∧
        Pipe.Legal (Trace.log System.step System.back (.new start settings boot) events) from hall.2
  induction events using List.reverseRecOn with
  | nil => exact ⟨seen_new start settings hboot, Pipe.legal_nil, Pipe.legal_nil⟩
  | append_singleton events event ih =>
    obtain ⟨hbefore, hlast⟩ := Trace.always_concat.mp horderly
    rw [Trace.run_concat] at hfew
    obtain ⟨hseen, hthere, hback⟩ := ih hbefore (few_of_step hfew)
    have hjoint := joint_step hconv (joint_run hconv settings boot events) event
    have hnext := seen_step hseen hlast
    obtain ⟨hordered_there, hordered_back⟩ := ordered_of_joint hjoint hnext hfew
    rw [Trace.run_concat, Trace.log_concat, Trace.log_concat]
    exact ⟨hnext, legal_there hthere event hordered_there, legal_back hback event hordered_back⟩

/-- Three bytes are written at the client, a message is sent after them, and its task sends both. -/
def first_write : List Event :=
  .client (.poll_write [1, 2, 3] false) :: .client (.send [4] false) :: List.replicate 6 (.client (.advance quiet))

/-- The datagram reaches the listener, and the stream that it makes is read from. -/
def first_read : List Event :=
  [.accept ((Trace.run System.step (.new plain .default .plain) first_write).client.wire.headD [])
    { datagram := none, now := 0, random_conv := ⟨7, by decide⟩ } (.at 1) .plain, .server (.poll_read 8 false)]

/-- And the message after it is received whole. -/
def first_exchange : List Event := first_write ++ first_read ++ [.server (.recv false)]

/-- A write, a message after it, and both of them read. -/
theorem end_to_end_first : Pipe.Legal (Trace.log System.step System.there (.new plain .default .plain) first_exchange) := by
  refine (end_to_end plain (by decide) .default .plain (fun _ => rfl) first_exchange ?_ (by decide +kernel)).1
  refine Trace.always_concat.mpr ⟨⟨⟨fun _ h => (by cases h.2.1), trivial, trivial⟩, ?_⟩, fun host hhost => ⟨trivial, ?_⟩, trivial⟩
  · refine Trace.always_of_forall fun s event hevent => ?_
    rcases List.mem_cons.mp hevent with rfl | hevent
    · exact ⟨trivial, trivial, trivial⟩
    rcases List.mem_append.mp hevent with hevent | hevent
    · rw [List.eq_of_mem_replicate hevent]
      exact ⟨trivial, trivial, fun _ => rfl⟩
    · rcases List.mem_pair.mp hevent with rfl | rfl
      · exact fun _ => rfl
      · exact ⟨fun _ _ => ⟨trivial, trivial⟩, trivial⟩
  · -- the read has left nothing
    have hnone : ∀ host ∈ (Trace.run System.step (.new plain .default .plain) (first_write ++ first_read)).server,
        host.connection.stream.read_buf = [] := by decide +kernel
    intro message _
    rw [hnone host hhost, List.append_nil, List.nil_append]

example : Trace.log System.step System.there (.new plain .default .plain) first_exchange =
    [.put [1, 2, 3], .put [4], .get [1, 2, 3], .get [4]] := by decide +kernel

end kcp_tokio.system
