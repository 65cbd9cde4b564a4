import Kcp.Network.Link

open kcp_core.protocol kcp_core.config kcp_core.error kcp_core.engine
open kcp_core.engine.KcpEngine

namespace kcp_core.network

/-! ### Runs -/

/-- Both sides are on record, and while `a` has used less than half the numbers, the data on
its way from `a` to `b` is in order. -/
def Linked (pair : Pair) (net : Net) : Prop :=
  ∃ log na blog n, Recorded pair.a.config.into log na net.a ∧ Recorded pair.b.config.into blog n net.b ∧
    (log.length < 2 ^ 31 → ∃ fs, Link net.a net.b log n fs)

/-- A `recv` that returns nothing changes nothing. -/
theorem step_recv_none {p : Endpoint} (h : p.engine.recv = (p.engine, .ok none)) : p.step .recv = p := by
  have hengine : p.engine.step .recv = p.engine := congrArg Prod.fst h
  have hreturned : returned p.engine .recv = [] := by
    unfold returned
    rw [h]
  unfold Endpoint.step
  rw [hengine, hreturned]
  unfold numbers
  rw [hengine, Serial.offset_self]
  simp [offered, refusals, drained]

/-- A call at the receiving side keeps the link. -/
theorem linked_step_b {pair : Pair} {net : Net} {log blog : List Fragment} {na n : Nat}
    (ha : Recorded pair.a.config.into log na net.a) (hb : Recorded pair.b.config.into blog n net.b)
    (hlink : log.length < 2 ^ 31 → ∃ fs, Link net.a net.b log n fs) {op : Op} (hop : Net.Feasible net.a op) :
    Linked pair { net with b := net.b.step op } := by
  have hca := pair.a.accepted
  have hcb := pair.b.accepted
  obtain ⟨k, m, hmoved, hk⟩ := moved_step hb.ledger.count (hb.rcv_le hcb) (hb.rcv_pos hcb) op
  by_cases hlog : log.length < 2 ^ 31
  · obtain ⟨fs, h⟩ := hlink hlog
    by_cases hrecv : op = .recv
    · subst hrecv
      rcases link_recv h ha hca hb hcb hlog with ⟨_, hnone⟩ | ⟨f, tail, m, _, _, hnext, hrest⟩
      · rw [step_recv_none hnone]
        exact ⟨log, na, blog, n, ha, hb, hlink⟩
      · exact ⟨log, na, blog, m, ha, hnext, fun _ => ⟨tail, hrest⟩⟩
    · have hzero := hk hrecv
      subst hzero
      exact ⟨log, na, _, m, ha, hb.step hcb op hmoved,
        fun _ => ⟨fs, link_step_b h ha hca hb hcb hlog hop hrecv hmoved⟩⟩
  · exact ⟨log, na, _, m, ha, hb.step hcb op hmoved, fun hlt => absurd hlt hlog⟩

/-- Neither side breaks the link, nor does the network. -/
theorem linked_step {pair : Pair} {net : Net} (h : Linked pair net) (event : Event) : Linked pair (net.step event) := by
  obtain ⟨log, na, blog, n, ha, hb, hlink⟩ := h
  have hca := pair.a.accepted
  apply Net.step_rule event
  · exact ⟨log, na, blog, n, ha, hb, hlink⟩
  · intro op hop
    obtain ⟨k, m, hmoved, _⟩ := moved_step ha.ledger.count (ha.rcv_le hca) (ha.rcv_pos hca) op
    refine ⟨_, m, blog, n, ha.step hca op hmoved, hb, fun hlog => ?_⟩
    rw [List.length_append] at hlog
    obtain ⟨fs, h⟩ := hlink (by omega)
    exact link_step_a h ha hca hb (by omega) hop hmoved
  · intro op hop
    exact linked_step_b ha hb hlink hop

/-- Before anything is sent, both ends of the link are empty. -/
theorem link_fresh (pair : Pair) : Link pair.fresh.a pair.fresh.b [] 0 [] where
  stored := ⟨by simp [Pair.fresh, Endpoint.fresh, Start.fresh, new],
    fun k segment h => by simp [Pair.fresh, Endpoint.fresh, Start.fresh, new] at h⟩
  le := le_rfl
  arrived := by simp
  settled := fun h => by simp [Pair.fresh, Endpoint.fresh, Start.fresh, new] at h
  framed := .nil
  message := fun _ _ => rfl
  stream := fun _ _ => rfl

/-- The link holds in every state of every run. -/
theorem Pair.linked (pair : Pair) (events : List Event) : Linked pair (pair.reached events) := by
  apply Trace.invariant (P := fun _ net => Linked pair net)
  · exact ⟨[], 0, [], 0, recorded_fresh pair.a, recorded_fresh pair.b, fun _ => ⟨[], link_fresh pair⟩⟩
  · intro _ event h
    exact linked_step h event

/-! ### Safety -/

/-- Whatever the network loses, repeats, delays or reorders: as long as every `send` on `a`
succeeded, what `recv` returned on `b` is a prefix of what was sent, message by message, or
in stream mode byte by byte. -/
theorem received_in_order (pair : Pair) (events : List Event) (hok : (pair.reached events).a.refused = 0)
    (hcount : (pair.reached events).a.numbered < 2 ^ 31) :
    (pair.a.config.stream_mode = false →
      (pair.reached events).b.received <+: (pair.reached events).a.sent.filter fun data => !data.isEmpty) ∧
    (pair.a.config.stream_mode = true →
      (pair.reached events).b.received.flatten <+: (pair.reached events).a.sent.flatten) := by
  obtain ⟨log, na, blog, n, ha, hb, hlink⟩ := pair.linked events
  rw [ha.numbered] at hcount
  obtain ⟨fs, h⟩ := hlink hcount
  have hmode : (pair.reached events).a.engine.config.stream_mode = pair.a.config.stream_mode := by
    rw [ha.set.config]
    rfl
  constructor
  · intro hmessage
    rw [h.message hok (hmode.trans hmessage)]
    exact List.prefix_append _ _
  · intro hstream
    rw [h.stream hok (hmode.trans hstream)]
    exact List.prefix_append _ _

/-- Two sides with the default settings. -/
def plain_pair : Pair := ⟨plain, plain, rfl⟩

/-- Two messages in two datagrams, which arrive in the wrong order, the first one twice; one
message is received, and the acknowledgements of both go back. -/
def crossed : List Event :=
  [.call .a ⟨.send (.at 0) [1, 2], rfl⟩, .call .a ⟨.flush (.at 0), rfl⟩, .call .a ⟨.drain_output, rfl⟩,
    .call .a ⟨.send (.at 1) [3], rfl⟩, .call .a ⟨.flush (.at 1), rfl⟩, .call .a ⟨.drain_output, rfl⟩,
    .deliver .b 1 2, .deliver .b 0 3, .deliver .b 0 4, .call .b ⟨.recv, rfl⟩,
    .call .b ⟨.flush (.at 5), rfl⟩, .call .b ⟨.drain_output, rfl⟩, .deliver .a 0 6]

/-- Two messages cross, and the first arrives twice. -/
theorem received_in_order_crossed :
    (plain_pair.reached crossed).b.received <+: (plain_pair.reached crossed).a.sent.filter fun data => !data.isEmpty :=
  (received_in_order plain_pair crossed (by decide +kernel) (by decide +kernel)).1 rfl

example : (plain_pair.reached crossed).b.received = [[1, 2]] := by decide +kernel

/-! ### No reassembly deadlock -/

/-- Whenever the receive queue of `b` is full, so that it advertises no window, there is a
message for `recv` to return, as long as the window of `b` holds the longest message that
`a` lets through. -/
theorem recv_of_full (pair : Pair) (events : List Event)
    (hwnd : min pair.a.config.rcv_wnd.toNat 128 ≤ pair.b.config.rcv_wnd.toNat)
    (hcount : (pair.reached events).a.numbered < 2 ^ 31)
    (hfull : (pair.reached events).b.engine.wnd.rcv.toNat ≤ (pair.reached events).b.engine.rcv_queue.length) :
    (pair.reached events).b.engine.advertised_wnd = 0 ∧
      ∃ data, (pair.reached events).b.engine.recv.2 = .ok (some data) := by
  obtain ⟨log, na, blog, n, ha, hb, hlink⟩ := pair.linked events
  rw [ha.numbered] at hcount
  obtain ⟨fs, h⟩ := hlink hcount
  have hclosed : (pair.reached events).b.engine.wnd_unused = 0 := by
    unfold wnd_unused
    rw [if_neg (by omega)]
  have hpos := hb.rcv_pos pair.b.accepted
  have hmost : max_frags (pair.reached events).a.engine.config ≤ (pair.reached events).b.engine.rcv_queue.length := by
    have hrcv : (pair.reached events).b.engine.wnd.rcv = pair.b.config.rcv_wnd := hb.set.rcv
    rw [hrcv] at hfull
    rw [ha.set.config]
    unfold max_frags
    rw [Word.toNat_min]
    exact le_trans hwnd hfull
  have hne : (pair.reached events).b.engine.rcv_queue ≠ [] := List.ne_nil_of_length_pos (by omega)
  have hready := ready_of_full h hb pair.b.accepted hcount hne hmost
  refine ⟨by unfold advertised_wnd; rw [hclosed]; rfl, ?_⟩
  rcases link_recv h ha pair.a.accepted hb pair.b.accepted hcount with ⟨hnone, _⟩ | ⟨f, _, _, _, hsome, _⟩
  · exact absurd hready hnone
  · exact ⟨_, hsome⟩

/-- Two sides with a receive window of four segments, of forty bytes each. -/
def four : Start where
  conv := 7
  config := { kcp_tokio.config.KcpConfig.default with mtu := 64, rcv_wnd := 4, accepted := rfl }
  updated := 0
  active := 0

def four_pair : Pair := ⟨four, four, rfl⟩

/-- A message of four fragments fills the receive queue, the last of its datagrams first. -/
def four_fragments : List Event :=
  [.call .a ⟨.send (.at 0) (List.replicate 130 1), rfl⟩, .call .a ⟨.flush (.at 0), rfl⟩, .call .a ⟨.drain_output, rfl⟩,
    .deliver .b 3 1, .deliver .b 2 1, .deliver .b 1 1, .deliver .b 0 1]

/-- A message of four fragments fills the window of its receiver. -/
theorem recv_of_full_four : ∃ data, (four_pair.reached four_fragments).b.engine.recv.2 = .ok (some data) :=
  (recv_of_full four_pair four_fragments (by decide +kernel) (by decide +kernel) (by decide +kernel)).2

/-! ### Nothing acknowledged is lost -/

/-- Call `recv` until it returns nothing, at most `fuel` times. -/
def recv_until_none : Nat → KcpEngine → Option (List Bytes)
  | 0, _ => none
  | fuel + 1, e =>
    match e.recv with
    | (e, .ok (some data)) => (recv_until_none fuel e).map (data :: ·)
    | (_, .ok none) => some []
    | (_, .error _) => none

/-- Once nothing is queued or in flight at `a`, the next frame can be received: either the
queue of `b` is full, or every number has been accepted and all of the frame is in it. -/
theorem ready_of_drained {pair : Pair} {a b : Endpoint} {log blog : List Fragment} {na n : Nat}
    {f : List Fragment} {rest : List (List Fragment)}
    (ha : Recorded pair.a.config.into log na a) (hb : Recorded pair.b.config.into blog n b)
    (hwnd : max_frags pair.a.config.into ≤ pair.b.config.rcv_wnd.toNat) (hlog : log.length < 2 ^ 31)
    (h : Link a b log n (f :: rest)) (hqueue : a.engine.snd_queue = []) (hbuf : a.engine.snd_buf = []) :
    HeadReady b.engine.rcv_queue := by
  have hcb := pair.b.accepted
  have hrcv : b.engine.wnd.rcv = pair.b.config.rcv_wnd := hb.set.rcv
  by_contra hnot
  have hopen : b.engine.rcv_queue.length < b.engine.wnd.rcv.toNat := by
    by_contra hfull
    have hpos := hb.rcv_pos hcb
    apply hnot
    apply ready_of_full h hb hcb hlog (List.ne_nil_of_length_pos (by omega))
    rw [ha.set.config]
    rw [hrcv] at hfull
    omega
  have hmissing : b.engine.rcv_nxt ∉ b.engine.rcv_buf := fun hmem => by
    have := h.settled hmem
    omega
  have hall : n = log.length := by
    by_contra hne
    have hle := h.le
    rcases h.arrived n (by omega) with hflight | hkept | hbehind
    · unfold snd_sns at hflight
      rw [hbuf] at hflight
      cases hflight
    · rw [← hb.ledger.count.nxt] at hkept
      exact hmissing hkept
    · have hword : (BitVec.ofNat 32 n).toNat = n := by
        rw [BitVec.toNat_ofNat, Nat.mod_eq_of_lt (by omega)]
      have := hbehind.lt (by omega) (by omega)
      omega
  have hwaiting : waiting a b log n = b.engine.rcv_queue.map carried := by
    rw [waiting_split h hb hcb hlog, hqueue, hall, List.drop_length]
    simp
  have hframe := h.framed.frame f List.mem_cons_self
  have hsome : b.engine.rcv_queue ≠ [] := by
    intro hempty
    have hflatten := h.framed.flatten
    rw [hwaiting, hempty, List.flatten_cons] at hflatten
    exact hframe.ne_nil (List.append_eq_nil_iff.mp hflatten).1
  obtain ⟨s, tail, hcons⟩ := List.exists_cons_of_ne_nil hsome
  obtain ⟨g, _, hfs, hlen, htake, _⟩ := head_cons h hb hcb hlog hcons
  have hfits := congrArg List.length htake
  rw [hwaiting, List.length_take, List.length_map] at hfits
  exact hnot ⟨s, tail, hcons, .inr (by omega)⟩

/-- With nothing left at `a`, `recv` gets every frame that is waiting. -/
theorem recv_until_none_link {pair : Pair} {a : Endpoint} {log : List Fragment} {na : Nat}
    (ha : Recorded pair.a.config.into log na a) (hwnd : max_frags pair.a.config.into ≤ pair.b.config.rcv_wnd.toNat)
    (hlog : log.length < 2 ^ 31) (hqueue : a.engine.snd_queue = []) (hbuf : a.engine.snd_buf = [])
    (fs : List (List Fragment)) : ∀ (b : Endpoint) (blog : List Fragment) (n fuel : Nat),
      Recorded pair.b.config.into blog n b → Link a b log n fs → fs.length < fuel →
      recv_until_none fuel b.engine = some (fs.map Fragment.joined) := by
  have hca := pair.a.accepted
  have hcb := pair.b.accepted
  induction fs with
  | nil =>
    intro b blog n fuel hb h hfuel
    cases fuel with
    | zero => omega
    | succ fuel =>
      rcases link_recv h ha hca hb hcb hlog with ⟨_, hnone⟩ | ⟨f, tail, _, hfs, _⟩
      · rw [recv_until_none, hnone]
        rfl
      · cases hfs
  | cons f rest ih =>
    intro b blog n fuel hb h hfuel
    cases fuel with
    | zero => omega
    | succ fuel =>
      rcases link_recv h ha hca hb hcb hlog with ⟨hnot, _⟩ | ⟨g, tail, m, hfs, hsome, hnext, hrest⟩
      · exact absurd (ready_of_drained ha hb hwnd hlog h hqueue hbuf) hnot
      · obtain ⟨rfl, rfl⟩ : f = g ∧ rest = tail := by simpa using hfs
        have htail := ih (b.step .recv) blog m fuel hnext hrest (by simpa using hfuel)
        have hrecv : b.engine.recv = ((b.step .recv).engine, .ok (some (Fragment.joined f))) := by
          rw [← hsome]
          rfl
        rw [recv_until_none, hrecv]
        simp only [htail]
        rfl

/-- Once `a` has nothing unsent and every `send` on it succeeded, `b` gets the rest of what
was sent by calling `recv` until it returns nothing, without any further datagram. -/
theorem drain_after_close (pair : Pair) (events : List Event)
    (hwnd : min pair.a.config.rcv_wnd.toNat 128 ≤ pair.b.config.rcv_wnd.toNat)
    (hok : (pair.reached events).a.refused = 0) (hcount : (pair.reached events).a.numbered < 2 ^ 31)
    (hdone : (pair.reached events).a.engine.has_unsent_data = false) (fuel : Nat)
    (hfuel : (pair.reached events).a.numbered < fuel) :
    ∃ rest, recv_until_none fuel (pair.reached events).b.engine = some rest ∧
      (pair.a.config.stream_mode = false →
        (pair.reached events).a.sent.filter (fun data => !data.isEmpty) = (pair.reached events).b.received ++ rest) ∧
      (pair.a.config.stream_mode = true →
        (pair.reached events).a.sent.flatten = (pair.reached events).b.received.flatten ++ rest.flatten) := by
  obtain ⟨log, na, blog, n, ha, hb, hlink⟩ := pair.linked events
  rw [ha.numbered] at hcount hfuel
  obtain ⟨fs, h⟩ := hlink hcount
  obtain ⟨hqueue, hbuf⟩ : (pair.reached events).a.engine.snd_queue = [] ∧ (pair.reached events).a.engine.snd_buf = [] := by
    simpa [has_unsent_data] using hdone
  have hmode : (pair.reached events).a.engine.config.stream_mode = pair.a.config.stream_mode := by
    rw [ha.set.config]
    rfl
  have hmost : max_frags pair.a.config.into ≤ pair.b.config.rcv_wnd.toNat := by
    unfold max_frags
    rw [Word.toNat_min]
    exact hwnd
  -- no frame is empty, so there are no more frames than numbers
  have hfew : fs.length ≤ log.length := by
    have hsum : ∀ gs : List (List Fragment), (∀ g ∈ gs, g ≠ []) → gs.length ≤ gs.flatten.length := by
      intro gs
      induction gs with
      | nil => exact fun _ => le_rfl
      | cons g gs ih =>
        intro hne
        have hpos := List.length_pos_of_ne_nil (hne g List.mem_cons_self)
        have hrest := ih fun g hg => hne g (List.mem_cons_of_mem _ hg)
        rw [List.flatten_cons, List.length_append, List.length_cons]
        omega
    have hframes := hsum fs fun g hg => (h.framed.frame g hg).ne_nil
    rw [h.framed.flatten] at hframes
    unfold waiting at hframes
    rw [hqueue, List.map_nil, List.append_nil, List.length_drop] at hframes
    omega
  refine ⟨fs.map Fragment.joined, ?_, ?_, ?_⟩
  · exact recv_until_none_link ha hmost hcount hqueue hbuf fs _ blog n fuel hb h (by omega)
  · intro hmessage
    exact h.message hok (hmode.trans hmessage)
  · intro hstream
    exact h.stream hok (hmode.trans hstream)

/-- After the same crossing, the rest is drained. -/
theorem drain_after_close_crossed : ∃ rest, recv_until_none 3 (plain_pair.reached crossed).b.engine = some rest :=
  (drain_after_close plain_pair crossed (by decide +kernel) (by decide +kernel) (by decide +kernel) (by decide +kernel) 3
    (by decide +kernel)).imp fun _ h => h.1

end kcp_core.network
