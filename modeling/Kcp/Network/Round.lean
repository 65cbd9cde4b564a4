import Kcp.Ranking
import Kcp.Engine.Exchange
import Kcp.Network.Accounting
import Kcp.Network.Flow

/-! One turn of a conversation: both sides read all they can, then one of them flushes, and
all that leaves it arrives. -/

open kcp_core.protocol kcp_core.config kcp_core.error kcp_core.engine
open kcp_core.engine.KcpEngine Trace

namespace kcp_core.network

/-! ### The other side -/

def Event.swap : Event → Event
  | .call .a op => .call .b op
  | .call .b op => .call .a op
  | .deliver .a i now => .deliver .b i now
  | .deliver .b i now => .deliver .a i now

def Net.swap (self : Net) : Net := ⟨self.b, self.a⟩

def Pair.swap (self : Pair) : Pair := ⟨self.b, self.a, self.same_conv.symm⟩

/-- With the sides exchanged, a step is the step of the event with its sides exchanged. -/
theorem Net.swap_step (self : Net) (event : Event) : (self.step event).swap = self.swap.step event.swap := by
  cases event with
  | call side op =>
    cases side with
    | a => rfl
    | b => rfl
  | deliver side i now =>
    cases side with
    | a =>
      simp only [Net.step, Event.swap, Net.swap]
      split <;> rfl
    | b =>
      simp only [Net.step, Event.swap, Net.swap]
      split <;> rfl

theorem Net.swap_run (self : Net) (events : List Event) :
    run Net.step self.swap (events.map Event.swap) = (run Net.step self events).swap := by
  induction events generalizing self with
  | nil => rfl
  | cons event events ih =>
    rw [List.map_cons, run_cons, run_cons, ← Net.swap_step]
    exact ih _

/-- The two sides are interchangeable: a run of the exchanged pair is the exchanged run. -/
theorem Pair.reached_swap (pair : Pair) (events : List Event) :
    pair.swap.reached (events.map Event.swap) = (pair.reached events).swap := pair.fresh.swap_run events

/-! ### Serving -/

/-- The two sides do what they are there for: they receive, flush and drain, and the network
hands over datagrams. Nothing is sent by the applications. -/
def Serves : Event → Prop
  | .call _ op => op.val = .recv ∨ (∃ clk, op.val = .flush clk) ∨ op.val = .drain_output
  | .deliver .. => True

theorem Serves.swap {event : Event} (h : Serves event) : Serves event.swap := by
  cases event with
  | call side op =>
    cases side with
    | a => exact h
    | b => exact h
  | deliver side i now =>
    cases side with
    | a => trivial
    | b => trivial

/-- What one side can be led to, the other can. -/
theorem leads_swap {net : Net} {Q : Net → Prop} (h : Leads Net.step Serves net Q) :
    Leads Net.step Serves net.swap fun net' => Q net'.swap := by
  obtain ⟨events, hall, hq⟩ := h
  refine ⟨events.map Event.swap, ?_, ?_⟩
  · intro event hevent
    obtain ⟨before, hbefore, rfl⟩ := List.mem_map.mp hevent
    exact (hall before hbefore).swap
  · rw [Net.swap_run]
    exact hq

/-- The numbers that one side has used or has data for. -/
def load (p : Endpoint) : Nat := p.numbered + p.engine.snd_queue.length

/-- A reachable state in which neither side runs out of numbers. -/
structure Sound (pair : Pair) (net : Net) : Prop where
  reached : ∃ events, net = pair.reached events
  load_a : load net.a ≤ 2 ^ 30
  load_b : load net.b ≤ 2 ^ 30

theorem Sound.swap {pair : Pair} {net : Net} (h : Sound pair net) : Sound pair.swap net.swap := by
  obtain ⟨⟨events, rfl⟩, ha, hb⟩ := h
  exact ⟨⟨events.map Event.swap, (pair.reached_swap events).symm⟩, hb, ha⟩

/-- What the application has given to one side, and how much of it is not numbered yet. -/
theorem offer_step {p : Endpoint} {c : KcpCoreConfig} {log : List Fragment} {n : Nat} (h : Recorded c log n p)
    (hc : kcp_tokio.config.Accepted c) {op : Op} (hop : ∀ clk data, op ≠ .send clk data) :
    (p.step op).sent = p.sent ∧ (p.step op).refused = p.refused ∧ load (p.step op) = load p := by
  obtain ⟨k, m, hmoved, _⟩ := moved_step h.ledger.count (h.rcv_le hc) (h.rcv_pos hc) op
  have hnext := h.step hc op hmoved
  have hqueue := congrArg List.length (news_append_queue h.ledger.sender.window (h.snd_le hc) op hop)
  have hnumbered := hnext.numbered
  rw [List.length_append, List.length_map, List.length_map] at hqueue
  rw [List.length_append, ← h.numbered] at hnumbered
  have hload : load (p.step op) = load p := by
    unfold load
    change _ + (p.engine.step op).snd_queue.length = _
    omega
  cases op with
  | send clk data => exact absurd rfl (hop clk data)
  | _ => exact ⟨List.append_nil _, rfl, hload⟩

/-- A serving event is a call on one side that sends nothing, or nothing at all. -/
theorem serves_rule {P : Net → Prop} {net : Net} {event : Event} (h : Serves event) (hsame : P net)
    (ha : ∀ op, (∀ clk data, op ≠ .send clk data) → P { net with a := net.a.step op })
    (hb : ∀ op, (∀ clk data, op ≠ .send clk data) → P { net with b := net.b.step op }) : P (net.step event) := by
  have hcall : ∀ {op : Op}, (op = .recv ∨ (∃ clk, op = .flush clk) ∨ op = .drain_output) →
      ∀ clk data, op ≠ .send clk data := by
    rintro op (rfl | ⟨_, rfl⟩ | rfl) clk data heq <;> cases heq
  have hinput : ∀ (now : Timestamp) (data : Bytes) clk sent, Op.input now data ≠ .send clk sent :=
    fun _ _ _ _ heq => by cases heq
  cases event with
  | call side op =>
    cases side with
    | a => exact ha op.val (hcall h)
    | b => exact hb op.val (hcall h)
  | deliver side i now =>
    cases side with
    | a =>
      unfold Net.step
      dsimp only
      split
      · exact ha _ (hinput now _)
      · exact hsame
    | b =>
      unfold Net.step
      dsimp only
      split
      · exact hb _ (hinput now _)
      · exact hsame

/-- What serving events keep. -/
structure Kept (pair : Pair) (before net : Net) : Prop where
  sound : Sound pair net
  sent_a : net.a.sent = before.a.sent
  refused_a : net.a.refused = before.a.refused
  sent_b : net.b.sent = before.b.sent
  refused_b : net.b.refused = before.b.refused

/-- An event that offers no data leaves what was sent and what was refused as it is, and the state
sound. -/
theorem kept_step {pair : Pair} {before net : Net} (h : Kept pair before net) {event : Event} (hserves : Serves event) :
    Kept pair before (net.step event) := by
  obtain ⟨⟨⟨events, rfl⟩, ha, hb⟩, hsent_a, hrefused_a, hsent_b, hrefused_b⟩ := h
  obtain ⟨log, na, blog, n, hra, hrb, _⟩ := pair.linked events
  have hreached : ∃ more, (pair.reached events).step event = pair.reached more :=
    ⟨events ++ [event], (pair.reached_concat events event).symm⟩
  revert hreached
  apply serves_rule (P := fun net => (∃ more, net = pair.reached more) → Kept pair before net) hserves
  · exact fun hreached => ⟨⟨hreached, ha, hb⟩, hsent_a, hrefused_a, hsent_b, hrefused_b⟩
  · intro op hop hreached
    obtain ⟨hsent, hrefused, hload⟩ := offer_step hra pair.a.accepted hop
    exact ⟨⟨hreached, hload.le.trans ha, hb⟩, hsent.trans hsent_a, hrefused.trans hrefused_a, hsent_b, hrefused_b⟩
  · intro op hop hreached
    obtain ⟨hsent, hrefused, hload⟩ := offer_step hrb pair.b.accepted hop
    exact ⟨⟨hreached, ha, hload.le.trans hb⟩, hsent_a, hrefused_a, hsent.trans hsent_b, hrefused.trans hrefused_b⟩

/-- A sound state keeps what it has. -/
theorem Sound.kept {pair : Pair} {net : Net} (h : Sound pair net) : Kept pair net net := ⟨h, rfl, rfl, rfl, rfl⟩

/-- Serving events lead to sound states only. -/
theorem Sound.leads {pair : Pair} {net : Net} (h : Sound pair net) {Q : Net → Prop} (hleads : Leads Net.step Serves net Q) :
    Leads Net.step Serves net fun net' => Kept pair net net' ∧ Q net' :=
  hleads.keeps (fun _ _ hserves hkept => kept_step hkept hserves) h.kept

/-! ### Reading -/

/-- The window of each side holds what the other may send blindly, and the longest message
that the other lets through; and no segment reaches the limit at its first sending. -/
structure Pair.Matched (pair : Pair) : Prop where
  fits_a : Fits pair.a pair.b
  fits_b : Fits pair.b pair.a
  holds_a : min pair.b.config.rcv_wnd.toNat 128 ≤ pair.a.config.rcv_wnd.toNat
  holds_b : min pair.a.config.rcv_wnd.toNat 128 ≤ pair.b.config.rcv_wnd.toNat
  tries_a : 1 < pair.a.config.max_retries.toNat
  tries_b : 1 < pair.b.config.max_retries.toNat

theorem Pair.Matched.swap {pair : Pair} (h : pair.Matched) : pair.swap.Matched :=
  ⟨h.fits_b, h.fits_a, h.holds_b, h.holds_a, h.tries_b, h.tries_a⟩

/-- The window of `b` holds the longest message that `a` lets through. -/
theorem Pair.Matched.max_frags_le {pair : Pair} (h : pair.Matched) :
    max_frags pair.a.config.into ≤ pair.b.config.rcv_wnd.toNat := by
  unfold max_frags
  rw [Word.toNat_min]
  exact h.holds_b

/-- Calls to `recv` lead `b` to where it has no more messages to return. -/
theorem read_b {pair : Pair} {net : Net} (h : Sound pair net) : Leads Net.step Serves net fun net' =>
    net'.a = net.a ∧ Reads net.b.engine net'.b.engine ∧ ¬ HeadReady net'.b.engine.rcv_queue := by
  obtain ⟨⟨events, rfl⟩, hload, _⟩ := h
  obtain ⟨log, na, blog, n, ha, hb, hlink⟩ := pair.linked events
  have hlog : log.length < 2 ^ 31 := by
    have := ha.numbered
    unfold load at hload
    omega
  obtain ⟨fs, h⟩ := hlink hlog
  -- each message that is returned is one frame less to come
  clear hlink hload
  generalize pair.reached events = net at ha hb h
  induction fs generalizing net n with
  | nil =>
    rcases link_recv h ha pair.a.accepted hb pair.b.accepted hlog with ⟨hnot, _⟩ | ⟨_, _, _, hfs, _⟩
    · exact .now ⟨rfl, .refl _, hnot⟩
    · cases hfs
  | cons f rest ih =>
    rcases link_recv h ha pair.a.accepted hb pair.b.accepted hlog with ⟨hnot, _⟩ | ⟨g, tail, m, hfs, _, hnext, hrest⟩
    · exact .now ⟨rfl, .refl _, hnot⟩
    · obtain ⟨rfl, rfl⟩ : f = g ∧ rest = tail := by simpa using hfs
      have hcall : Leads Net.step Serves net fun net' => net' = { net with b := net.b.step .recv } :=
        .of_step (i := .call .b ⟨.recv, is_local_recv⟩) (.inl rfl) rfl
      refine hcall.trans ?_
      rintro _ rfl
      refine (ih m { net with b := net.b.step .recv } ha hnext hrest).mono ?_
      rintro net' ⟨hsame, hreads, hnot⟩
      exact ⟨hsame, (reads_recv net.b.engine).trans hreads, hnot⟩

/-- Then its receive queue is not full. -/
theorem room_of_read {pair : Pair} {net : Net} (hmatched : pair.Matched) (h : Sound pair net)
    (hread : ¬ HeadReady net.b.engine.rcv_queue) : net.b.engine.rcv_queue.length < net.b.engine.wnd.rcv.toNat := by
  obtain ⟨⟨events, rfl⟩, hload, _⟩ := h
  obtain ⟨log, na, blog, n, ha, hb, hlink⟩ := pair.linked events
  have hlog : log.length < 2 ^ 31 := by
    have := ha.numbered
    unfold load at hload
    omega
  obtain ⟨fs, h⟩ := hlink hlog
  have hpos := hb.rcv_pos pair.b.accepted
  have hrcv : (pair.reached events).b.engine.wnd.rcv = pair.b.config.rcv_wnd := hb.set.rcv
  by_contra hfull
  apply hread
  apply ready_of_full h hb pair.b.accepted hlog (List.ne_nil_of_length_pos (by omega))
  have hmost := hmatched.max_frags_le
  rw [ha.set.config]
  rw [hrcv] at hfull
  omega

/-- Both sides read all they can. -/
theorem read_both {pair : Pair} {net : Net} (h : Sound pair net) : Leads Net.step Serves net fun net' =>
    Kept pair net net' ∧ (Reads net.a.engine net'.a.engine ∧ ¬ HeadReady net'.a.engine.rcv_queue) ∧
      Reads net.b.engine net'.b.engine ∧ ¬ HeadReady net'.b.engine.rcv_queue := by
  apply h.leads
  refine (h.leads (read_b h)).trans ?_
  rintro mid ⟨hkept, hsame, hreads, hnot⟩
  have hother := leads_swap (read_b hkept.sound.swap)
  refine hother.mono ?_
  rintro net' ⟨hsame', hreads', hnot'⟩
  change net'.b = mid.b at hsame'
  change Reads mid.a.engine net'.a.engine at hreads'
  rw [hsame']
  rw [hsame] at hreads'
  exact ⟨⟨hreads', hnot'⟩, hreads, hnot⟩

/-! ### Speaking -/

/-- The first `count` of the datagrams that `a` has drained after the first `first` are
handed to `b`, in order. -/
def handover (now : Timestamp) (first count : Nat) : List Event := (List.range' first count).map fun i => .deliver .b i now

/-- The deliveries of one handover are inputs at `b`, and leave everything else alone. -/
theorem run_handover (net : Net) (now : Timestamp) (before wire : List Bytes) (hwire : net.a.wire = before ++ wire) :
    run Net.step net (handover now before.length wire.length) =
      { net with b := run (fun p data => p.step (.input now data)) net.b wire } := by
  induction wire generalizing net before with
  | nil => rfl
  | cons data wire ih =>
    have hhead : net.step (.deliver .b before.length now) = { net with b := net.b.step (.input now data) } := by
      have hget : net.a.wire[before.length]? = some data := by
        rw [hwire, List.getElem?_append_right le_rfl, Nat.sub_self]
        rfl
      simp only [Net.step, hget]
    have hrest := ih { net with b := net.b.step (.input now data) } (before ++ [data]) (by simp [hwire])
    rw [List.length_append] at hrest
    unfold handover at hrest ⊢
    rw [List.length_cons, List.range'_succ, List.map_cons, run_cons, hhead]
    exact hrest

/-- The engine of an endpoint that is given datagrams has them as input, one after another. -/
theorem engine_input_all (p : Endpoint) (now : Timestamp) (wire : List Bytes) :
    (run (fun p data => p.step (.input now data)) p wire).engine = p.engine.input_all now wire := by
  induction wire generalizing p with
  | nil => rfl
  | cons data wire ih => exact ih _

/-- Everything that `a` has numbered is in the window of `b`: then `b` acknowledges whatever
data of `a` it takes in. -/
theorem input_all_answered {a : Endpoint} {log : List Fragment} {na : Nat} {fs : List (List Fragment)} {ca cb : KcpCoreConfig}
    {conv : ConvId} {limit : Nat} (ha : Recorded ca log na a) (hca : kcp_tokio.config.Accepted ca)
    (hcb : kcp_tokio.config.Accepted cb) (hflow : Flowing conv limit a) (hlog : log.length ≤ 2 ^ 30) (now : Timestamp)
    (wire : List Bytes) : ∀ {b : Endpoint} {blog : List Fragment} {n : Nat}, Recorded cb blog n b → Link a b log n fs →
      b.engine.conv = conv → log.length ≤ n + b.engine.wnd.rcv.toNat → (∀ data ∈ wire, data ∈ a.wire) →
      ∀ data ∈ wire, ∀ s ∈ split_segments data, s.header.cmd = constants.IKCP_CMD_PUSH →
        (s.header.sn, s.header.ts) ∈ (b.engine.input_all now wire).ack_list := by
  induction wire with
  | nil => exact fun _ _ _ _ _ _ h => absurd h List.not_mem_nil
  | cons first wire ih =>
    intro b blog n hb h hconv hreach hall data hdata s hs hcmd
    have hle := h.le
    have hframe := b.engine.inputFrame_input now first
    rcases List.mem_cons.mp hdata with rfl | hdata
    · apply (ack_list_input_all _ now wire).subset
      exact answered ha hb hcb hflow hconv (by omega) hreach (hall data List.mem_cons_self) now hs hcmd
    · obtain ⟨k, m, hmoved, hk⟩ := moved_step hb.ledger.count (hb.rcv_le hcb) (hb.rcv_pos hcb) (.input now first)
      have hzero := hk (fun heq => by cases heq)
      subst hzero
      have hop : Net.Feasible a (.input now first) := .inr ⟨now, first, hall first List.mem_cons_self, rfl⟩
      have hnext := link_step_b h ha hca hb hcb (by omega) hop (fun heq => by cases heq) hmoved
      have hgrown := hmoved.le
      apply ih (hb.step hcb _ hmoved) hnext (hframe.conv.trans hconv) ?_ (fun d hd => hall d (List.mem_cons_of_mem _ hd))
        data hdata s hs hcmd
      change _ ≤ m + (b.engine.input now first).1.wnd.rcv.toNat
      rw [hframe.rcv]
      omega

/-- After reading, the engine of `a` is fit to speak. -/
theorem speaker_of_read {pair : Pair} {net : Net} (hmatched : pair.Matched) (h : Sound pair net)
    (hread : ¬ HeadReady net.a.engine.rcv_queue) : Speaker net.a.engine := by
  have hroom := room_of_read hmatched.swap h.swap hread
  obtain ⟨⟨events, rfl⟩, _, _⟩ := h
  obtain ⟨log, na, blog, n, ha, _⟩ := pair.linked events
  obtain ⟨hflow, _⟩ := pair.flowing events
  have hsnd : (pair.reached events).a.engine.wnd.snd = pair.a.config.snd_wnd := ha.set.snd
  have htries : (pair.reached events).a.engine.dead_link = pair.a.config.max_retries := ha.set.dead_link
  have haccepted := pair.a.accepted
  exact {
    window := ha.ledger.sender.window
    snd_pos := by
      rw [ha.set.snd]
      exact haccepted.snd_pos
    snd_le := ha.snd_le haccepted
    rcv_le := ha.rcv_le haccepted
    room := hroom
    addressed := ⟨rfl, fun s hs => (ha.ledger.sender.queue s hs).1,
      fun s hs => ⟨(ha.ledger.sender.buf s hs).1, hflow.flow.buf s hs⟩,
      hflow.flow.packed.buf.mono fun _ _ htells => htells.conv⟩
    tries := by
      rw [htries]
      exact hmatched.tries_a }

/-- In a reachable state both engines speak of one conversation. -/
theorem same_conv {pair : Pair} {net : Net} (h : Sound pair net) : net.b.engine.conv = net.a.engine.conv := by
  obtain ⟨⟨events, rfl⟩, _, _⟩ := h
  obtain ⟨ha, hb⟩ := pair.flowing events
  exact hb.conv.trans ha.conv.symm

/-- Once both sides have read all they can, `a` can speak to `b`. -/
theorem speak {pair : Pair} {net : Net} (hmatched : pair.Matched) (h : Sound pair net)
    (ha : ¬ HeadReady net.a.engine.rcv_queue) (hb : ¬ HeadReady net.b.engine.rcv_queue) (clk : Clock)
    (hlives : net.a.engine.flush_dies clk.now = false) : Leads Net.step Serves net fun net' =>
      Spoke clk net.a.engine net.b.engine net'.a.engine net'.b.engine := by
  have hspeaker := speaker_of_read hmatched h ha
  obtain ⟨mid, hmid⟩ : ∃ mid : Net, mid = ⟨(net.a.step (.flush clk)).step .drain_output, net.b⟩ := ⟨_, rfl⟩
  have hflushed : Leads Net.step Serves net fun net' => net' = mid := by
    refine ⟨[.call .a ⟨.flush clk, rfl⟩, .call .a ⟨.drain_output, rfl⟩], ?_, hmid.symm⟩
    simp only [List.mem_cons, List.not_mem_nil, or_false, forall_eq_or_imp, forall_eq]
    exact ⟨.inr (.inl ⟨clk, rfl⟩), .inr (.inr rfl)⟩
  refine (h.leads hflushed).trans ?_
  rintro mid ⟨hkept, rfl⟩
  have hroom : mid.b.engine.rcv_queue.length < mid.b.engine.wnd.rcv.toNat := by
    apply room_of_read hmatched hkept.sound
    rw [hmid]
    exact hb
  obtain ⟨wire, hwire⟩ : ∃ wire, wire = (net.a.engine.flush clk).1.output_queue := ⟨_, rfl⟩
  have hdrained : mid.a.wire = net.a.wire ++ wire := by
    rw [hmid, hwire]
    change (net.a.wire ++ []) ++ _ = _
    rw [List.append_nil]
    rfl
  refine ⟨handover clk.now net.a.wire.length wire.length, ?_, ?_⟩
  · intro event hevent
    obtain ⟨i, _, rfl⟩ := List.mem_map.mp hevent
    trivial
  · rw [run_handover mid clk.now net.a.wire wire hdrained]
    have hout : mid.a.engine = (net.a.engine.flush clk).1.drain_output.1 := by
      rw [hmid]
      rfl
    have htook : (run (fun p data => p.step (.input clk.now data)) mid.b wire).engine = net.b.engine.input_all clk.now wire := by
      rw [engine_input_all, hmid]
    refine ⟨hout, hwire ▸ htook, ?_⟩
    intro s hs
    obtain ⟨⟨events, hevents⟩, hload, _⟩ := hkept.sound
    obtain ⟨log, na, blog, n, hra, hrb, hlink⟩ := pair.linked events
    obtain ⟨hflow_a, hflow_b⟩ := pair.flowing events
    rw [← hevents] at hra hrb hlink hflow_a hflow_b
    have hnumbered := hra.numbered
    unfold load at hload
    obtain ⟨fs, hlinked⟩ := hlink (by omega)
    have hreach := reach_of_room hmatched.fits_a hra hrb hflow_a hlinked (by omega) hroom
    have hemitted : s ∈ net.a.engine.emissions clk := by
      rw [emissions_of_lives hlives]
      exact List.mem_append_right _ hs
    obtain ⟨data, hdata, t, ht, hheader, _⟩ := hspeaker.arrives hlives hemitted
    have hpush : s.header.cmd = constants.IKCP_CMD_PUSH := by
      have hbuf := hra.ledger.sender.buf s
      rw [hout] at hbuf
      exact (hbuf (sent_in_flight hs)).2.1
    have hacked := input_all_answered hra pair.a.accepted pair.b.accepted hflow_a (by omega) clk.now wire hrb hlinked
      hflow_b.conv hreach (fun d hd => hdrained ▸ List.mem_append_right _ hd) data (hwire ▸ hdata) t ht (hheader ▸ hpush)
    rw [← engine_input_all, hheader] at hacked
    exact List.mem_map_of_mem hacked

/-- A whole round can be had from every sound state, as long as it kills nobody. -/
theorem round {pair : Pair} {net : Net} (hmatched : pair.Matched) (h : Sound pair net)
    (hturn : Turn net.a.engine net.b.engine) (clk : Clock) : Leads Net.step Serves net fun net' =>
      Kept pair net net' ∧ Round clk net.a.engine net.b.engine net'.a.engine net'.b.engine := by
  apply h.leads
  refine (read_both h).trans ?_
  rintro read ⟨hkept, ⟨ha, hread_a⟩, hb, hread_b⟩
  have hx := speaker_of_read hmatched hkept.sound hread_a
  have hy := speaker_of_read hmatched.swap hkept.sound.swap hread_b
  have hconv := same_conv hkept.sound
  have hturn₁ := hturn.reads ha hb
  refine (hkept.sound.leads (speak hmatched hkept.sound hread_a hread_b clk (hturn₁.lives hx clk.now))).trans ?_
  rintro spoke ⟨hkept₁, first⟩
  refine (read_both hkept₁.sound).trans ?_
  rintro again ⟨hkept₂, ⟨ha₁, hread_a₁⟩, hb₁, hread_b₁⟩
  have hx₂ := speaker_of_read hmatched hkept₂.sound hread_a₁
  have hy₂ := speaker_of_read hmatched.swap hkept₂.sound.swap hread_b₁
  have hconv₂ := same_conv hkept₂.sound
  have hturn₂ := (first.turn hx hy hconv hturn₁).reads hb₁ ha₁
  have hspeak := speak hmatched.swap hkept₂.sound.swap hread_b₁ hread_a₁ (.at 0) (hturn₂.lives hy₂ _)
  refine (leads_swap hspeak).mono ?_
  intro net' second
  exact .mk ha hb hx hy hconv first ha₁ hb₁ hx₂ hy₂ hconv₂.symm second

end kcp_core.network
