import Kcp.Engine.Counters
import Kcp.Engine.Queueing
import Kcp.Network.Delivery

open kcp_core.protocol kcp_core.config kcp_core.error kcp_core.network

/-! The two counters of bytes, against the bytes. -/

namespace kcp_core.engine

namespace KcpEngine

/-- Only `send` counts bytes sent. -/
theorem bytes_sent_other (e : KcpEngine) {op : Op} (h : op.NoSend) : (e.step op).stats.bytes_sent = e.stats.bytes_sent := by
  apply step_rule (P := fun after => after.stats.bytes_sent = e.stats.bytes_sent) op
  · rintro clk data rfl
    exact h.elim
  · intro _
    obtain ⟨queue, buf, nxt, flags, received, heq⟩ := e.recv_shape
    rw [heq]
  · exact fun now data _ => (e.input_counters now data).bytes_sent
  · exact fun last flags clk _ =>
      (flush_counters { e with last_update := last, probe := { e.probe with flags } } clk).bytes_sent
  · exact fun _ => rfl
  · rfl
  · exact fun _ => rfl

/-! ### `recv` -/

/-- The counter is raised by what is returned. -/
theorem bytes_received_recv (e : KcpEngine) :
    e.recv.1.stats.bytes_received = e.stats.bytes_received + (returned e .recv).flatten.length := by
  unfold returned
  obtain ⟨_, heq⟩ | ⟨_, _, k, _, heq⟩ := e.recv_cases
  · rw [heq]
    rfl
  · rw [heq]
    split
    · rfl
    · obtain ⟨flags, htell⟩ := tell_window_shape e (e.popped k).move_to_recv_queue
      obtain ⟨queue, buf, nxt, hmove⟩ := (e.popped k).move_to_recv_queue_shape
      rw [htell, hmove]
      simp [popped]

/-- No other call raises it. -/
theorem bytes_received_step (e : KcpEngine) (op : Op) :
    (e.step op).stats.bytes_received = e.stats.bytes_received + (returned e op).flatten.length := by
  by_cases hrecv : op = .recv
  · subst hrecv
    exact e.bytes_received_recv
  · have hnone : returned e op = [] := by
      cases op with
      | recv => exact absurd rfl hrecv
      | _ => rfl
    rw [hnone]
    exact e.bytes_received_other hrecv

/-! ### `send` -/

/-- The bytes that a call puts at the end of the send queue. -/
def enqueued (e : KcpEngine) : Op → List Bytes
  | .send clk data => [(payload (e.send clk data).1.snd_queue).drop (payload e.snd_queue).length]
  | _ => []

/-- The call does not split its data between the room of the last queued segment and
segments of its own. -/
def Whole (e : KcpEngine) : Op → Prop
  | .send _ data => e.config.stream_mode = true → ∀ last ∈ e.snd_queue.getLast?, last.data.length < e.mss.toNat →
      data.length ≤ e.mss.toNat - last.data.length
  | _ => True

instance decidableWhole (e : KcpEngine) : (op : Op) → Decidable (Whole e op)
  | .send _ data => inferInstanceAs (Decidable (_ → ∀ last ∈ e.snd_queue.getLast?, _ → data.length ≤ _))
  | .input .. | .recv | .flush _ | .update .. | .drain_output | .keep_alive_probe _ | .set_conv _ => .isTrue trivial

/-- Data is merged as a whole, or not at all, or what is merged of it is a proper part. -/
theorem whole_iff (e : KcpEngine) (clk : Clock) (data : Bytes) :
    (e.merged data).2 ≤ data.length ∧ (Whole e (.send clk data) ↔ (e.merged data).2 = data.length ∨ (e.merged data).2 = 0) := by
  by_cases hroom : e.config.stream_mode = true ∧ ∃ last ∈ e.snd_queue.getLast?, last.data.length < e.mss.toNat
  · obtain ⟨hmode, last, hlast, hshort⟩ := hroom
    obtain ⟨htaken, _⟩ := merged_room hmode hlast hshort data
    have hwhole : Whole e (.send clk data) ↔ data.length ≤ e.mss.toNat - last.data.length := by
      refine ⟨fun h => h hmode last hlast hshort, fun h _ other hother _ => ?_⟩
      rw [Option.mem_unique hother hlast]
      exact h
    rw [hwhole]
    omega
  · have hnone : e.merged data = (e.snd_queue, 0) := by
      apply merged_none
      intro hmode last hlast
      by_contra hshort
      exact hroom ⟨hmode, last, hlast, Nat.not_le.mp hshort⟩
    rw [hnone]
    refine ⟨Nat.zero_le _, iff_of_true (fun hmode last hlast hshort => ?_) (.inr rfl)⟩
    exact absurd ⟨hmode, last, hlast, hshort⟩ hroom

/-- How many bytes a call puts in the queue and how many it counts, by what it merges. -/
theorem send_bytes {e : KcpEngine} (hmss : 0 < e.mss.toNat) (clk : Clock) (data : Bytes) :
    ∃ put counted, payload (e.send clk data).1.snd_queue = payload e.snd_queue ++ data.take put ∧ put ≤ data.length ∧
      (e.send clk data).1.stats.bytes_sent = e.stats.bytes_sent + counted ∧
      (counted = put ∧ (e.merged data).2 = data.length ∨
        (e.merged data).2 < data.length ∧
          (put = (e.merged data).2 ∧ counted = 0 ∨ put = data.length ∧ counted = data.length - (e.merged data).2)) ∧
      ((e.send clk data).2 = .ok () → put = data.length) := by
  obtain ⟨hle, _⟩ := e.whole_iff clk data
  have hmerged := e.payload_merged data
  rw [send_eq]
  by_cases hempty : data = []
  · rw [if_pos (by simp [hempty])]
    refine ⟨0, 0, by simp, Nat.zero_le _, rfl, .inl ⟨rfl, ?_⟩, fun _ => by rw [hempty, List.length_nil]⟩
    rw [hempty, List.length_nil] at hle ⊢
    omega
  rw [if_neg (by simpa using hempty)]
  by_cases hrest : data.drop (e.merged data).2 = []
  · have hall := List.drop_eq_nil_iff.mp hrest
    rw [if_pos (by simp [hrest])]
    exact ⟨_, _, hmerged, hle, rfl, .inl ⟨rfl, by omega⟩, fun _ => by omega⟩
  have hpos := List.length_pos_of_ne_nil hrest
  rw [if_neg (by simpa using hrest)]
  rw [List.length_drop] at hpos
  split
  · exact ⟨_, 0, hmerged, hle, rfl, .inr ⟨by omega, .inl ⟨rfl, rfl⟩⟩, fun hok => by cases hok⟩
  · obtain ⟨hfragments, _⟩ := fragments_spec hmss clk (List.length_pos_of_ne_nil hrest)
    refine ⟨data.length, _, ?_, le_rfl, rfl, .inr ⟨by omega, .inr ⟨rfl, List.length_drop ..⟩⟩, fun _ => rfl⟩
    simp only [payload_append, hmerged, hfragments, List.append_assoc, List.take_append_drop, List.take_length]

/-- A call that succeeds appends all its data to the queue. -/
theorem enqueued_of_ok {e : KcpEngine} (hmss : 0 < e.mss.toNat) {clk : Clock} {data : Bytes}
    (hok : (e.send clk data).2 = .ok ()) : e.enqueued (.send clk data) = [data] := by
  obtain ⟨put, _, hqueue, _, _, _, hall⟩ := send_bytes hmss clk data
  rw [enqueued, hqueue, List.drop_left, hall hok, List.take_length]

/-- `send` counts no more than it puts in the queue, and all of it exactly if the data stays
whole. -/
theorem bytes_sent_send {e : KcpEngine} (hmss : 0 < e.mss.toNat) (clk : Clock) (data : Bytes) :
    (e.send clk data).1.stats.bytes_sent ≤ e.stats.bytes_sent + (e.enqueued (.send clk data)).flatten.length ∧
      ((e.send clk data).1.stats.bytes_sent = e.stats.bytes_sent + (e.enqueued (.send clk data)).flatten.length ↔
        Whole e (.send clk data)) := by
  obtain ⟨hle, hwhole⟩ := e.whole_iff clk data
  obtain ⟨put, counted, hqueue, hput, hcount, hcases, _⟩ := send_bytes hmss clk data
  have hlen : (e.enqueued (.send clk data)).flatten.length = put := by
    rw [enqueued, List.flatten_singleton, hqueue, List.drop_left, List.length_take, Nat.min_eq_left hput]
  rw [hwhole, hlen, hcount]
  omega

/-- A call counts no more than it appends, and all of it exactly if it does not split its data. -/
theorem bytes_sent_step {e : KcpEngine} (hmss : 0 < e.mss.toNat) (op : Op) :
    (e.step op).stats.bytes_sent ≤ e.stats.bytes_sent + (e.enqueued op).flatten.length ∧
      ((e.step op).stats.bytes_sent = e.stats.bytes_sent + (e.enqueued op).flatten.length ↔ Whole e op) := by
  by_cases hsend : op.NoSend
  · have hnone : e.enqueued op = [] := by
      cases op with
      | send clk data => exact hsend.elim
      | _ => rfl
    have hwhole : Whole e op := by
      cases op with
      | send clk data => exact hsend.elim
      | _ => trivial
    rw [hnone, e.bytes_sent_other hsend]
    exact ⟨le_rfl, iff_of_true rfl hwhole⟩
  · cases op with
    | send clk data => exact bytes_sent_send hmss clk data
    | _ => exact absurd trivial hsend

end KcpEngine

open KcpEngine

/-- The counter never passes the bytes, and is behind once a `send` has split its data. -/
theorem Origin.bytes_sent_iff (origin : Origin) (ops : List Op) :
    (origin.reached ops).stats.bytes_sent ≤ (Trace.log KcpEngine.step enqueued origin.fresh ops).flatten.length ∧
      ((origin.reached ops).stats.bytes_sent = (Trace.log KcpEngine.step enqueued origin.fresh ops).flatten.length ↔
        Trace.Always KcpEngine.step Whole origin.fresh ops) := by
  have hcounted := @Trace.counted_iff _ _ KcpEngine.step (fun e => e.stats.bytes_sent)
    (fun e op => (e.enqueued op).flatten.length) Whole origin.fresh
    (fun before op => bytes_sent_step (origin.mtu_eq before).2 op) ops
  have hzero : origin.fresh.stats.bytes_sent = 0 := rfl
  rw [hzero, Nat.zero_add, ← Trace.length_flatten_log] at hcounted
  exact hcounted

/-- In every run the counter is what `recv` has returned. -/
theorem Origin.bytes_received_eq (origin : Origin) (ops : List Op) :
    (origin.reached ops).stats.bytes_received = (Trace.log KcpEngine.step returned origin.fresh ops).flatten.length := by
  induction ops using List.reverseRecOn with
  | nil => rfl
  | append_singleton ops op ih =>
    have hstep := (origin.reached ops).bytes_received_step op
    rw [Trace.log_concat, List.flatten_append, List.length_append, ← ih]
    unfold Origin.reached at hstep ⊢
    rw [Trace.run_concat]
    exact hstep

end kcp_core.engine

open kcp_core.engine kcp_core.engine.KcpEngine

namespace kcp_core.network

/-! ### Two sides -/

/-- The bytes that an event puts in the send queue of `a`. -/
def put (net : Net) : Event → List Bytes
  | .call .a op => net.a.engine.enqueued op.val
  | _ => []

/-- If the event is a `send` on `a`, it does not split its data. -/
def KeepsWhole (net : Net) : Event → Prop
  | .call .a op => net.a.engine.Whole op.val
  | _ => True

instance decidableKeepsWhole (net : Net) : (event : Event) → Decidable (KeepsWhole net event)
  | .call .a op => inferInstanceAs (Decidable (net.a.engine.Whole op.val))
  | .call .b _ | .deliver .. => .isTrue trivial

/-- Two new engines with any settings, and nothing on the network. -/
def between (a b : Origin) : Net where
  a := { engine := a.fresh, sent := [], refused := 0, received := [], numbered := 0, wire := [] }
  b := { engine := b.fresh, sent := [], refused := 0, received := [], numbered := 0, wire := [] }

theorem Pair.fresh_eq (pair : Pair) : pair.fresh = between pair.a.origin pair.b.origin := rfl

/-- What the network makes of the engine of `a` is a run of its own. -/
theorem exists_reached_between (a b : Origin) (events : List Event) :
    ∃ ops, (Trace.run Net.step (between a b) events).a.engine = a.reached ops := by
  apply Trace.invariant (P := fun _ (net : Net) => ∃ ops, net.a.engine = a.reached ops)
  · exact ⟨[], rfl⟩
  · rintro before event ⟨ops, hops⟩
    apply Net.step_rule (P := fun net => ∃ ops, net.a.engine = a.reached ops) event
    · exact ⟨ops, hops⟩
    · intro op _
      refine ⟨ops ++ [op], ?_⟩
      change (Trace.run Net.step (between a b) before).a.engine.step op = _
      rw [hops]
      exact (Trace.run_concat ..).symm
    · exact fun _ _ => ⟨ops, hops⟩

/-- The segment size stays positive on the network. -/
theorem mss_pos_between (a b : Origin) (events : List Event) : 0 < (Trace.run Net.step (between a b) events).a.engine.mss.toNat := by
  obtain ⟨ops, hops⟩ := exists_reached_between a b events
  rw [hops]
  exact (a.mtu_eq ops).2

/-- An event of the network counts no more at `a` than it puts in the queue of `a`. -/
theorem put_step {net : Net} (hmss : 0 < net.a.engine.mss.toNat) (event : Event) :
    (net.step event).a.engine.stats.bytes_sent ≤ net.a.engine.stats.bytes_sent + (put net event).flatten.length ∧
      ((net.step event).a.engine.stats.bytes_sent = net.a.engine.stats.bytes_sent + (put net event).flatten.length ↔
        KeepsWhole net event) := by
  have hidle : ∀ after : KcpEngine, after.stats.bytes_sent = net.a.engine.stats.bytes_sent →
      after.stats.bytes_sent ≤ net.a.engine.stats.bytes_sent + ([] : List Bytes).flatten.length ∧
        (after.stats.bytes_sent = net.a.engine.stats.bytes_sent + ([] : List Bytes).flatten.length ↔ True) :=
    fun after hsame => ⟨hsame.le, iff_of_true hsame trivial⟩
  cases event with
  | call side op =>
    cases side with
    | a => exact bytes_sent_step hmss op.val
    | b => exact hidle _ rfl
  | deliver side i now =>
    cases side with
    | a =>
      apply hidle
      cases hwire : net.b.wire[i]? with
      | none => simp only [Net.step, hwire]
      | some data =>
        simp only [Net.step, hwire]
        exact (net.a.engine.input_counters now data).bytes_sent
    | b =>
      apply hidle
      cases hwire : net.a.wire[i]? with
      | none => simp only [Net.step, hwire]
      | some data => simp only [Net.step, hwire]

/-- The count of a run is what was put there exactly if no event split its data. -/
theorem bytes_sent_iff_between (a b : Origin) (events : List Event) :
    (Trace.run Net.step (between a b) events).a.engine.stats.bytes_sent ≤
        (Trace.log Net.step put (between a b) events).flatten.length ∧
      ((Trace.run Net.step (between a b) events).a.engine.stats.bytes_sent =
          (Trace.log Net.step put (between a b) events).flatten.length ↔
        Trace.Always Net.step KeepsWhole (between a b) events) := by
  have hcounted := @Trace.counted_iff _ _ Net.step (fun net => net.a.engine.stats.bytes_sent)
    (fun net event => (put net event).flatten.length) KeepsWhole (between a b)
    (fun before event => put_step (mss_pos_between a b before) event) events
  have hzero : (between a b).a.engine.stats.bytes_sent = 0 := rfl
  rw [hzero, Nat.zero_add, ← Trace.length_flatten_log] at hcounted
  exact hcounted

/-- The counter of `b` is what `b` has received. -/
theorem bytes_received_between (a b : Origin) (events : List Event) :
    (Trace.run Net.step (between a b) events).b.engine.stats.bytes_received =
      (Trace.run Net.step (between a b) events).b.received.flatten.length := by
  apply Trace.invariant (P := fun _ (net : Net) => net.b.engine.stats.bytes_received = net.b.received.flatten.length)
  · rfl
  · intro before event h
    apply Net.step_rule (P := fun net => net.b.engine.stats.bytes_received = net.b.received.flatten.length) event
    · exact h
    · exact fun _ _ => h
    · intro op _
      change ((Trace.run Net.step (between a b) before).b.engine.step op).stats.bytes_received = List.length (List.flatten (_ ++ _))
      rw [bytes_received_step, h, List.flatten_append, List.length_append]

/-- One call on `a` that is not refused puts in the queue what it is given. -/
theorem enqueued_eq_offered {e : KcpEngine} (hmss : 0 < e.mss.toNat) {op : Op} (hok : refusals e op = 0) :
    e.enqueued op = offered op := by
  cases op with
  | send clk data =>
    cases hresult : (e.send clk data).2 with
    | ok value => exact enqueued_of_ok hmss hresult
    | error err =>
      simp only [refusals, hresult] at hok
      cases hok
  | _ => rfl

/-- If every `send` on `a` succeeded, all that was sent is in its queue. -/
theorem Pair.put_eq_sent (pair : Pair) (events : List Event) (hok : (pair.reached events).a.refused = 0) :
    Trace.log Net.step put pair.fresh events = (pair.reached events).a.sent := by
  induction events using List.reverseRecOn with
  | nil => rfl
  | append_singleton events event ih =>
    have hmss := pair.fresh_eq ▸ mss_pos_between pair.a.origin pair.b.origin events
    have hrun : Trace.run Net.step pair.fresh events = pair.reached events := rfl
    rw [Pair.reached_concat] at hok ⊢
    rw [Trace.log_concat, hrun]
    cases event with
    | call side op =>
      cases side with
      | a =>
        obtain ⟨hbefore, hcall⟩ := Nat.add_eq_zero_iff.mp hok
        rw [ih hbefore]
        exact congrArg _ (enqueued_eq_offered hmss hcall)
      | b =>
        rw [ih hok]
        exact List.append_nil _
    | deliver side i now =>
      have hquiet : ((pair.reached events).step (.deliver side i now)).a.refused = (pair.reached events).a.refused ∧
          ((pair.reached events).step (.deliver side i now)).a.sent = (pair.reached events).a.sent := by
        cases side with
        | a =>
          cases hwire : (pair.reached events).b.wire[i]? with
          | none => simp only [Net.step, hwire, and_self]
          | some data =>
            simp only [Net.step, hwire]
            exact ⟨rfl, List.append_nil _⟩
        | b =>
          cases hwire : (pair.reached events).a.wire[i]? with
          | none => simp only [Net.step, hwire, and_self]
          | some data => simp only [Net.step, hwire, and_self]
      rw [hquiet.1] at hok
      rw [hquiet.2, ih hok]
      exact List.append_nil _

/-- With nothing unsent at `a` and nothing left to `recv` at `b`, all that `a` has put in its
queue has been received. -/
theorem received_all (pair : Pair) (events : List Event)
    (hwnd : min pair.a.config.rcv_wnd.toNat 128 ≤ pair.b.config.rcv_wnd.toNat)
    (hok : (pair.reached events).a.refused = 0) (hcount : (pair.reached events).a.numbered < 2 ^ 31)
    (hdone : (pair.reached events).a.engine.has_unsent_data = false)
    (hread : (pair.reached events).b.engine.recv.2 = .ok none) :
    (pair.reached events).b.received.flatten = (Trace.log Net.step put pair.fresh events).flatten := by
  rw [pair.put_eq_sent events hok]
  obtain ⟨log, na, blog, n, ha, hb, hlink⟩ := pair.linked events
  rw [ha.numbered] at hcount
  obtain ⟨fs, h⟩ := hlink hcount
  obtain ⟨hqueue, hbuf⟩ : (pair.reached events).a.engine.snd_queue = [] ∧ (pair.reached events).a.engine.snd_buf = [] := by
    simpa [has_unsent_data] using hdone
  have hmost : max_frags pair.a.config.into ≤ pair.b.config.rcv_wnd.toNat := by
    unfold max_frags
    rw [Word.toNat_min]
    exact hwnd
  have hnone : fs = [] := by
    by_contra hsome
    obtain ⟨f, rest, rfl⟩ := List.exists_cons_of_ne_nil hsome
    have hready := ready_of_drained ha hb hmost hcount h hqueue hbuf
    rcases link_recv h ha pair.a.accepted hb pair.b.accepted hcount with ⟨hnot, _⟩ | ⟨_, _, _, _, hrecv, _⟩
    · exact hnot hready
    · rw [hread] at hrecv
      cases hrecv
  subst hnone
  cases hmode : (pair.reached events).a.engine.config.stream_mode with
  | false =>
    have hsent := h.message hok hmode
    rw [List.map_nil, List.append_nil] at hsent
    rw [← hsent, List.flatten_filter_not_isEmpty]
  | true =>
    have hsent := h.stream hok hmode
    rw [List.map_nil, List.flatten_nil, List.append_nil] at hsent
    exact hsent.symm

/-- In message mode no `send` splits its data. -/
theorem whole_of_message {a : Origin} (hmode : a.config.stream_mode = false) (ops : List Op) :
    Trace.Always KcpEngine.step Whole a.fresh ops := by
  induction ops using List.reverseRecOn with
  | nil => trivial
  | append_singleton ops op ih =>
    have hmessage : (a.reached ops).config.stream_mode = false := by
      rw [(a.configured ops).config]
      exact hmode
    refine Trace.always_concat.mpr ⟨ih, ?_⟩
    unfold Whole
    split
    · exact fun hstream => absurd (hmessage.symm.trans hstream) Bool.false_ne_true
    · trivial

/-- In every run of an engine, whatever the settings, the two counters are the bytes appended
to the send queue and the bytes returned by `recv` exactly if no `send` split its data, which
none does in message mode; and while these bytes are fewer than `2 ^ 64`, the counters do not
overflow. When one side has received all the data that the other has put in its queue, over a
network that alters no datagram, the counters of the two agree exactly if no `send` did. -/
theorem bytes_counted_iff (a b : Origin) (ops : List Op) (events : List Event) :
    ((a.reached ops).stats.bytes_sent = (Trace.log KcpEngine.step enqueued a.fresh ops).flatten.length ∧
        (a.reached ops).stats.bytes_received = (Trace.log KcpEngine.step returned a.fresh ops).flatten.length ↔
      Trace.Always KcpEngine.step Whole a.fresh ops) ∧
    (a.config.stream_mode = false → Trace.Always KcpEngine.step Whole a.fresh ops) ∧
    ((Trace.log KcpEngine.step enqueued a.fresh ops).flatten.length < 2 ^ 64 →
      (Trace.log KcpEngine.step returned a.fresh ops).flatten.length < 2 ^ 64 →
      (a.reached ops).stats.bytes_sent < 2 ^ 64 ∧ (a.reached ops).stats.bytes_received < 2 ^ 64) ∧
    ((Trace.run Net.step (between a b) events).b.received.flatten = (Trace.log Net.step put (between a b) events).flatten →
      ((Trace.run Net.step (between a b) events).a.engine.stats.bytes_sent =
          (Trace.run Net.step (between a b) events).b.engine.stats.bytes_received ↔
        Trace.Always Net.step KeepsWhole (between a b) events)) := by
  obtain ⟨hle, hiff⟩ := a.bytes_sent_iff ops
  have hreceived := a.bytes_received_eq ops
  refine ⟨?_, fun hmode => whole_of_message hmode ops, fun hput hreturned => ?_, fun hall => ?_⟩
  · rw [← hiff]
    exact ⟨fun h => h.1, fun h => ⟨h, hreceived⟩⟩
  · exact ⟨hle.trans_lt hput, hreceived.trans_lt hreturned⟩
  · rw [← (bytes_sent_iff_between a b events).2, bytes_received_between, hall]

/-- One byte is queued, and 40 more are sent: 39 fill up the segment and are not counted. -/
theorem split_send_miscounts :
    (small_stream.reached [.send (.at 0) [0], .send (.at 0) (List.replicate 40 1)]).stats.bytes_sent = 2 ∧
      (Trace.log KcpEngine.step enqueued small_stream.fresh
        [.send (.at 0) [0], .send (.at 0) (List.replicate 40 1)]).flatten.length = 41 := by
  decide +kernel

/-- In stream mode two bytes are queued, three more are merged into their segment, and all five
are received. -/
def merged_received : List Event :=
  [.call .a ⟨.send (.at 9) [1, 2], is_local_send _ _⟩, .call .a ⟨.send (.at 9) [3, 4, 5], is_local_send _ _⟩,
    .call .a ⟨.flush (.at 9), is_local_flush _⟩, .call .a ⟨.drain_output, is_local_drain_output⟩, .deliver .b 0 10,
    .call .b ⟨.recv, is_local_recv⟩]

/-- Two messages in one segment. -/
theorem bytes_counted_merged :
    (Trace.run Net.step (between small_stream.origin small_stream.origin) merged_received).a.engine.stats.bytes_sent =
      (Trace.run Net.step (between small_stream.origin small_stream.origin) merged_received).b.engine.stats.bytes_received :=
  ((bytes_counted_iff small_stream.origin small_stream.origin [] merged_received).2.2.2 (by decide +kernel)).mpr
    (by decide +kernel)

end kcp_core.network
