import Kcp.Network.Model

open kcp_core.protocol kcp_core.config kcp_core.error kcp_core.engine
open kcp_core.engine.KcpEngine Framing

namespace kcp_core.network

/-- Whether a segment is an entry of the sender's log. -/
def FromLog (log : List Fragment) (s : KcpSegment) : Prop := Logged log s.header s.data

/-- The data from the head of the receiver's queue to the end of the sender's. -/
def waiting (a b : Endpoint) (log : List Fragment) (n : Nat) : List Fragment :=
  log.drop (n - b.engine.rcv_queue.length) ++ a.engine.snd_queue.map carried

/-- The data on its way from `a` to `b`, where `a` has numbered the fragments of `log` and
`b` has accepted the first `n` of them. Every number is in flight or has arrived; and what
the application of `b` has still to get is the frames `fs`. -/
structure Link (a b : Endpoint) (log : List Fragment) (n : Nat) (fs : List (List Fragment)) : Prop where
  stored : Stored (FromLog log) b.engine
  le : n ≤ log.length
  arrived : ∀ k < log.length, BitVec.ofNat 32 k ∈ a.engine.snd_sns ∨ Kept n b.engine (BitVec.ofNat 32 k)
  settled : Settled b.engine
  framed : Framed Fragment.left (max_frags a.engine.config) fs (waiting a b log n)
  message : a.refused = 0 → a.engine.config.stream_mode = false →
    a.sent.filter (fun data => !data.isEmpty) = b.received ++ fs.map Fragment.joined
  stream : a.refused = 0 → a.engine.config.stream_mode = true →
    a.sent.flatten = b.received.flatten ++ (fs.map Fragment.joined).flatten

/-! ### The receiver's queue is a stretch of the log -/

/-- The place in the log of a segment in the queue. -/
theorem queue_place {log : List Fragment} {n : Nat} {e : KcpEngine} (hcount : RecvCount n e)
    (hstored : Stored (FromLog log) e) (hwnd : e.wnd.rcv.toNat ≤ 65535) (hlog : log.length < 2 ^ 31)
    (hn : n ≤ log.length + 65535) {i : Nat} {s : KcpSegment} (hi : e.rcv_queue[i]? = some s) :
    ∃ k, k + (e.rcv_queue.length - i) = n ∧ log[k]? = some (carried s) := by
  obtain ⟨k, hsn, hk⟩ := hstored.queue s (List.mem_of_getElem? hi)
  obtain ⟨hlt, _⟩ := List.getElem?_eq_some_iff.mp hk
  have hcap := hcount.window.capped
  have horder := hcount.order i s hi
  rw [hsn, hcount.nxt, ← BitVec.ofNat_add] at horder
  have heq := congrArg BitVec.toNat horder
  rw [BitVec.toNat_ofNat, BitVec.toNat_ofNat, Nat.mod_eq_of_lt (by omega), Nat.mod_eq_of_lt (by omega)] at heq
  exact ⟨k, heq, hk⟩

/-- The queue holds accepted segments, so no more of them than were accepted. -/
theorem queue_length_le {log : List Fragment} {n : Nat} {e : KcpEngine} (hcount : RecvCount n e)
    (hstored : Stored (FromLog log) e) (hwnd : e.wnd.rcv.toNat ≤ 65535) (hlog : log.length < 2 ^ 31)
    (hn : n ≤ log.length + 65535) : e.rcv_queue.length ≤ n := by
  cases hqueue : e.rcv_queue with
  | nil => exact Nat.zero_le _
  | cons first rest =>
    have hfirst : e.rcv_queue[0]? = some first := by rw [hqueue]; rfl
    obtain ⟨k, hk, _⟩ := queue_place hcount hstored hwnd hlog hn hfirst
    rw [hqueue] at hk
    omega

/-- A receiver that gets only what the log holds never accepts more. -/
theorem accepted_le {log : List Fragment} {n k m : Nat} {before e : KcpEngine} (hmoved : Moved before n k m e)
    (hstored : Stored (FromLog log) e) (hwnd : e.wnd.rcv.toNat ≤ 65535) (hlog : log.length < 2 ^ 31)
    (hn : n ≤ log.length) : m ≤ log.length := by
  have hgrown := hmoved.grown
  have htaken := hmoved.taken
  have hnear := hmoved.near
  by_cases hempty : e.rcv_queue.length = 0
  · omega
  · obtain ⟨s, hs⟩ : ∃ s, e.rcv_queue[e.rcv_queue.length - 1]? = some s :=
      ⟨_, List.getElem?_eq_getElem (by omega)⟩
    obtain ⟨j, hj, hlast⟩ := queue_place hmoved.count hstored hwnd hlog (by omega) hs
    obtain ⟨hlt, _⟩ := List.getElem?_eq_some_iff.mp hlast
    omega

/-- What the queue holds are the last of the fragments accepted, in the order of the log. -/
theorem queue_carries {log : List Fragment} {n : Nat} {e : KcpEngine} (hcount : RecvCount n e)
    (hstored : Stored (FromLog log) e) (hwnd : e.wnd.rcv.toNat ≤ 65535) (hlog : log.length < 2 ^ 31)
    (hn : n ≤ log.length) :
    e.rcv_queue.map carried = (log.drop (n - e.rcv_queue.length)).take e.rcv_queue.length := by
  have hle := queue_length_le hcount hstored hwnd hlog (by omega)
  apply List.ext_getElem?
  intro i
  by_cases hi : i < e.rcv_queue.length
  · obtain ⟨s, hs⟩ : ∃ s, e.rcv_queue[i]? = some s := ⟨_, List.getElem?_eq_getElem hi⟩
    obtain ⟨k, hk, hlast⟩ := queue_place hcount hstored hwnd hlog (by omega) hs
    have hplace : n - e.rcv_queue.length + i = k := by omega
    rw [List.getElem?_map, hs, List.getElem?_take_of_lt hi, List.getElem?_drop, hplace, hlast]
    rfl
  · rw [List.getElem?_eq_none (by simp; omega), List.getElem?_eq_none (by simp; omega)]

/-! ### A step of the sender -/

/-- What `b` has said and `a` takes as an acknowledgement has arrived at `b`. -/
theorem kept_of_acknowledged {blog : List Fragment} {n : Nat} {e : KcpEngine} {data : Bytes}
    (hcarries : Carries (Says blog n e) data) {segment : KcpSegment} (hmem : segment ∈ split_segments data)
    {k : Nat} (hk : k < 2 ^ 31) (hacks : Acknowledges segment (BitVec.ofNat 32 k)) :
    Kept n e (BitVec.ofNat 32 k) := by
  have hsays := hcarries.split segment hmem
  rcases hacks with hbefore | ⟨hcmd, hsn⟩
  · obtain ⟨u, hu, huna⟩ := hsays.una
    rw [huna, seq_before_iff] at hbefore
    have hku : k < u := by
      by_contra hge
      rw [offset_ofNat (by omega) (by omega)] at hbefore
      omega
    exact .inr ⟨k, by omega, by omega, (BitVec.ofInt_natCast ..).symm⟩
  · rw [← hsn]
    exact hsays.ack hcmd

/-- Every number is still in flight or has arrived, those just handed out included. -/
theorem arrived_step {a b : Endpoint} {log blog : List Fragment} {n na : Nat} {ca cb : KcpCoreConfig}
    (ha : Recorded ca log na a) (hca : kcp_tokio.config.Accepted ca) (hb : Recorded cb blog n b)
    (hlog : log.length < 2 ^ 31) {op : Op} (hop : Net.Feasible b op)
    (hnext : (news a.engine (a.engine.step op)).length = a.engine.numbers op)
    (h : ∀ k < log.length, BitVec.ofNat 32 k ∈ a.engine.snd_sns ∨ Kept n b.engine (BitVec.ofNat 32 k)) :
    ∀ k < (log ++ news a.engine (a.engine.step op)).length,
      BitVec.ofNat 32 k ∈ (a.engine.step op).snd_sns ∨ Kept n b.engine (BitVec.ofNat 32 k) := by
  intro k hk
  rw [List.length_append, hnext] at hk
  have hsnd := ha.snd_le hca
  have hwin := ha.ledger.sender.window
  rcases hop with hlocal | ⟨now, data, hdata, rfl⟩
  · have hsns := sns_step hwin hsnd op (by rintro now data rfl; cases hlocal)
    rw [hsns]
    by_cases hold : k < log.length
    · exact (h k hold).imp_left (List.mem_append_left _)
    · refine .inl (List.mem_append_right _ (List.mem_map.mpr ⟨k - log.length, ?_, ?_⟩))
      · exact List.mem_range.mpr (by omega)
      · rw [ha.ledger.sender.nxt, ← BitVec.ofNat_add, Nat.add_sub_cancel' (by omega)]
  · have hnone : a.engine.numbers (.input now data) = 0 := by
      unfold numbers
      have hsame : (a.engine.step (.input now data)).snd_nxt = a.engine.snd_nxt :=
        (a.engine.inputFrame_input now data).snd_nxt
      rw [hsame, Serial.offset_self]
    rcases h k (by omega) with hflight | hkept
    · rcases a.engine.sns_input now data _ hflight with hstill | ⟨segment, hmem, hacks⟩
      · exact .inl hstill
      · exact .inr (kept_of_acknowledged (hb.wire data hdata) hmem (by omega) hacks)
    · exact .inr hkept

/-- Joining messages and joining their fragments is the same. -/
theorem joined_flatten (fs : List (List Fragment)) : (fs.map Fragment.joined).flatten = Fragment.joined fs.flatten := by
  induction fs with
  | nil => rfl
  | cons f rest ih => rw [List.map_cons, List.flatten_cons, ih, List.flatten_cons, Fragment.joined_append]

/-- `send` in message mode adds one frame to what is waiting, or nothing. -/
theorem framed_send_message {a b : Endpoint} {log : List Fragment} {n : Nat} {fs : List (List Fragment)}
    (hmss : 0 < a.engine.mss.toNat) (hmode : a.engine.config.stream_mode = false)
    (hframed : Framed Fragment.left (max_frags a.engine.config) fs (waiting a b log n)) (clk : Clock) (data : Bytes) :
    ∃ fs', Framed Fragment.left (max_frags a.engine.config) fs' (waiting (a.step (.send clk data)) b log n) ∧
      (refusals a.engine (.send clk data) = 0 →
        fs'.map Fragment.joined = fs.map Fragment.joined ++ [data].filter fun data => !data.isEmpty) := by
  rcases send_message hmode hmss clk data with ⟨hqueue, hnone⟩ | ⟨hqueue, _, hne, hlen, hframe⟩
  · refine ⟨fs, ?_, fun hok => ?_⟩
    · unfold waiting at hframed ⊢
      rw [← hqueue] at hframed
      exact hframed
    · rcases hnone with rfl | herr
      · simp
      · unfold refusals at hok
        dsimp only at hok
        cases hresult : (a.engine.send clk data).2 with
        | ok => exact absurd hresult herr
        | error err => rw [hresult] at hok; cases hok
  · refine ⟨fs ++ [(a.engine.fragments clk data).map carried], ?_, fun _ => ?_⟩
    · unfold waiting at hframed ⊢
      change Framed _ _ _ (_ ++ (a.engine.send clk data).1.snd_queue.map carried)
      rw [hqueue, List.map_append, ← List.append_assoc]
      exact hframed.concat hframe (by rwa [List.length_map])
    · have hdata := (fragments_spec hmss clk (List.length_pos_of_ne_nil hne)).1
      rw [payload_eq_joined] at hdata
      simp [hdata, hne]

/-- `send` in stream mode leaves every waiting fragment a frame of its own. -/
theorem framed_send_stream {a b : Endpoint} {log : List Fragment} {n : Nat}
    (hsender : Sender log a.engine) (hmss : 0 < a.engine.mss.toNat) (hmost : 0 < max_frags a.engine.config)
    (hmode : a.engine.config.stream_mode = true) (clk : Clock) (data : Bytes) :
    ∃ fs', Framed Fragment.left (max_frags a.engine.config) fs' (waiting (a.step (.send clk data)) b log n) ∧
      (refusals a.engine (.send clk data) = 0 →
        Fragment.joined fs'.flatten = Fragment.joined (waiting a b log n) ++ data) := by
  obtain ⟨k, hpayload, htake, hall⟩ := send_stream hmode hmss
    (fun s hs => ⟨⟨(hsender.queue s hs).1, (hsender.queue s hs).2.1⟩, (hsender.queue s hs).2.2 hmode⟩) clk data
  have hleft : ∀ f ∈ waiting (a.step (.send clk data)) b log n, f.left = 0 := by
    intro f hf
    rcases List.mem_append.mp hf with hf | hf
    · exact (hsender.proper f (List.mem_of_mem_drop hf)).2 hmode
    · obtain ⟨s, hs, rfl⟩ := List.mem_map.mp hf
      exact (hall s hs).2
  have hframed := Framed.singletons hmost hleft
  refine ⟨_, hframed, fun hok => ?_⟩
  have hsent : (a.engine.send clk data).2 = .ok () := by
    unfold refusals at hok
    dsimp only at hok
    cases hresult : (a.engine.send clk data).2 with
    | ok => rfl
    | error err => rw [hresult] at hok; cases hok
  rw [hframed.flatten]
  unfold waiting
  change Fragment.joined (_ ++ (a.engine.send clk data).1.snd_queue.map carried) = _
  rw [Fragment.joined_append, Fragment.joined_append, ← payload_eq_joined, ← payload_eq_joined, hpayload, htake hsent,
    List.append_assoc]

/-- A message may have a fragment. -/
theorem max_frags_pos {c : KcpCoreConfig} (hc : kcp_tokio.config.Accepted c) : 0 < max_frags c := by
  have hpos := hc.rcv_pos
  unfold max_frags
  rw [Word.toNat_min]
  change 0 < min c.rcv_wnd.toNat 128
  omega

/-- A feasible step of `a` keeps the link, whatever it is. -/
theorem link_step_a {a b : Endpoint} {log blog : List Fragment} {n k m na : Nat} {fs : List (List Fragment)}
    {ca cb : KcpCoreConfig} (h : Link a b log n fs) (ha : Recorded ca log na a) (hca : kcp_tokio.config.Accepted ca)
    (hb : Recorded cb blog n b) (hlog : log.length < 2 ^ 31) {op : Op} (hop : Net.Feasible b op)
    (hmoved : Moved a.engine na k m (a.engine.step op)) :
    ∃ fs', Link (a.step op) b (log ++ news a.engine (a.engine.step op)) n fs' := by
  have hnext := ha.step hca op hmoved
  have hlen := length_news ha.ledger.sender hnext.ledger.sender
  have hconfig : (a.engine.step op).config = a.engine.config := hnext.set.config.trans ha.set.config.symm
  have harrived := arrived_step ha hca hb hlog hop hlen h.arrived
  have hstored : Stored (FromLog (log ++ news a.engine (a.engine.step op))) b.engine :=
    ⟨fun s hs => (h.stored.queue s hs).append _, fun key s hs => (h.stored.buf key s hs).append _⟩
  have hle : n ≤ (log ++ news a.engine (a.engine.step op)).length := by
    have := h.le
    rw [List.length_append]
    omega
  by_cases hsend : ∃ clk data, op = .send clk data
  · obtain ⟨clk, data, rfl⟩ := hsend
    have hmss := ha.mss_pos hca
    have hnone : news a.engine (a.engine.step (.send clk data)) = [] := by
      apply news_same
      obtain ⟨queue, sent, heq⟩ := a.engine.send_shape clk data
      change (a.engine.send clk data).1.snd_nxt = a.engine.snd_nxt
      rw [heq]
    rw [hnone, List.append_nil] at harrived hstored hle ⊢
    cases hmode : a.engine.config.stream_mode with
    | false =>
      obtain ⟨fs', hframed, hjoined⟩ := framed_send_message hmss hmode h.framed clk data
      refine ⟨fs', hstored, hle, harrived, h.settled, ?_, ?_, ?_⟩
      · change Framed _ (max_frags (a.engine.step (.send clk data)).config) _ _
        rw [hconfig]
        exact hframed
      · intro hok _
        obtain ⟨hbefore, hnow⟩ := Nat.add_eq_zero_iff.mp hok
        change (a.sent ++ [data]).filter _ = _
        rw [List.filter_append, h.message hbefore hmode, hjoined hnow, List.append_assoc]
      · intro _ hstream
        change (a.engine.step (.send clk data)).config.stream_mode = true at hstream
        rw [hconfig, hmode] at hstream
        cases hstream
    | true =>
      have hmost : 0 < max_frags a.engine.config := by
        rw [ha.set.config]
        exact max_frags_pos hca
      obtain ⟨fs', hframed, hjoined⟩ := framed_send_stream (b := b) (n := n) ha.ledger.sender hmss hmost hmode clk data
      refine ⟨fs', hstored, hle, harrived, h.settled, ?_, ?_, ?_⟩
      · change Framed _ (max_frags (a.engine.step (.send clk data)).config) _ _
        rw [hconfig]
        exact hframed
      · intro _ hmessage
        change (a.engine.step (.send clk data)).config.stream_mode = false at hmessage
        rw [hconfig, hmode] at hmessage
        cases hmessage
      · intro hok _
        obtain ⟨hbefore, hnow⟩ := Nat.add_eq_zero_iff.mp hok
        have hold := h.stream hbefore hmode
        rw [joined_flatten, h.framed.flatten] at hold
        change (a.sent ++ [data]).flatten = _
        rw [joined_flatten, hjoined hnow, List.flatten_append, hold]
        simp
  · -- what is numbered leaves the queue of `a` and enters the log
    have hqueue := news_append_queue ha.ledger.sender.window (ha.snd_le hca) op
      fun clk data heq => hsend ⟨clk, data, heq⟩
    have hwaiting : waiting (a.step op) b (log ++ news a.engine (a.engine.step op)) n = waiting a b log n := by
      have hplace := h.le
      unfold waiting
      rw [List.drop_append_of_le_length (by omega), List.append_assoc]
      change _ ++ (_ ++ (a.engine.step op).snd_queue.map carried) = _
      rw [hqueue]
    have hsent : (a.step op).sent = a.sent ∧ (a.step op).refused = a.refused := by
      cases op with
      | send clk data => exact absurd ⟨clk, data, rfl⟩ hsend
      | _ => exact ⟨List.append_nil _, rfl⟩
    refine ⟨fs, hstored, hle, harrived, h.settled, ?_, ?_, ?_⟩
    · change Framed _ (max_frags (a.engine.step op).config) _ _
      rw [hwaiting, hconfig]
      exact h.framed
    · rw [hsent.1, hsent.2]
      change _ → (a.engine.step op).config.stream_mode = false → _
      rw [hconfig]
      exact h.message
    · rw [hsent.1, hsent.2]
      change _ → (a.engine.step op).config.stream_mode = true → _
      rw [hconfig]
      exact h.stream

/-! ### A step of the receiver -/

section

variable {a b : Endpoint} {log blog : List Fragment} {n na : Nat} {fs : List (List Fragment)} {ca cb : KcpCoreConfig}

/-- The queue of `b` is the front of what is waiting. -/
theorem waiting_split (h : Link a b log n fs) (hb : Recorded cb blog n b) (hcb : kcp_tokio.config.Accepted cb)
    (hlog : log.length < 2 ^ 31) :
    waiting a b log n = b.engine.rcv_queue.map carried ++ (log.drop n ++ a.engine.snd_queue.map carried) := by
  have hle := h.le
  have hlen := queue_length_le hb.ledger.count h.stored (hb.rcv_le hcb) hlog (by omega)
  have hfront := queue_carries hb.ledger.count h.stored (hb.rcv_le hcb) hlog hle
  have hrest : log.drop n = (log.drop (n - b.engine.rcv_queue.length)).drop b.engine.rcv_queue.length := by
    rw [List.drop_drop, Nat.sub_add_cancel hlen]
  unfold waiting
  rw [hfront, hrest, ← List.append_assoc, List.take_append_drop]

/-- What is waiting after `b` has taken `k` segments off its queue. -/
theorem waiting_moved (h : Link a b log n fs) (hb : Recorded cb blog n b) (hcb : kcp_tokio.config.Accepted cb)
    (hlog : log.length < 2 ^ 31) {op : Op} {k m : Nat} (hmoved : Moved b.engine n k m (b.engine.step op)) :
    waiting a (b.step op) log m = (waiting a b log n).drop k := by
  have hle := h.le
  have hgrown := hmoved.grown
  have htaken := hmoved.taken
  have hlen := queue_length_le hb.ledger.count h.stored (hb.rcv_le hcb) hlog (by omega)
  have hplace : m - (b.step op).engine.rcv_queue.length = n - b.engine.rcv_queue.length + k := by
    change m - (b.engine.step op).rcv_queue.length = _
    omega
  unfold waiting
  rw [hplace, ← List.drop_drop, List.drop_append_of_le_length]
  rw [List.length_drop]
  omega

/-- The segments of a frame at the head of a queue are its head message. -/
theorem head_len_of_frame {segments : List KcpSegment} (h : Frame Fragment.left (segments.map carried))
    (rest : List KcpSegment) : head_len (segments ++ rest) = segments.length := by
  induction segments with
  | nil => exact absurd rfl h.ne_nil
  | cons s tail ih =>
    have hleft : s.header.frg.toNat = tail.length := by
      have := h.head
      rwa [List.length_map] at this
    cases tail with
    | nil =>
      have hzero : s.header.frg = 0 := BitVec.eq_of_toNat_eq hleft
      simp [head_len, hzero]
    | cons next tail =>
      have hmore : ¬ s.header.frg = 0 := by
        intro hzero
        rw [hzero] at hleft
        cases hleft
      cases h with
      | more _ hrest =>
        have htail := ih hrest
        simp only [List.cons_append, List.length_cons] at htail ⊢
        rw [head_len, if_neg hmore, htail]

/-- A queue that is not empty starts with the first frame, as far as it is there. -/
theorem head_cons (h : Link a b log n fs) (hb : Recorded cb blog n b) (hcb : kcp_tokio.config.Accepted cb)
    (hlog : log.length < 2 ^ 31) {s : KcpSegment} {rest : List KcpSegment} (hqueue : b.engine.rcv_queue = s :: rest) :
    ∃ f tail, fs = f :: tail ∧ f.length = s.header.frg.toNat + 1 ∧ (waiting a b log n).take f.length = f ∧
      Frame Fragment.left f ∧ f.length ≤ max_frags a.engine.config := by
  have hsplit := waiting_split h hb hcb hlog
  rw [hqueue, List.map_cons, List.cons_append] at hsplit
  have hframed := h.framed
  rw [hsplit] at hframed ⊢
  obtain ⟨f, tail, rfl, hlen, htake⟩ := hframed.head
  exact ⟨f, tail, rfl, hlen, htake, hframed.frame f List.mem_cons_self, hframed.short f List.mem_cons_self⟩

/-- A queue as long as the longest frame holds a whole one. -/
theorem ready_of_full (h : Link a b log n fs) (hb : Recorded cb blog n b) (hcb : kcp_tokio.config.Accepted cb)
    (hlog : log.length < 2 ^ 31) (hne : b.engine.rcv_queue ≠ [])
    (hfull : max_frags a.engine.config ≤ b.engine.rcv_queue.length) : HeadReady b.engine.rcv_queue := by
  obtain ⟨s, rest, hqueue⟩ := List.exists_cons_of_ne_nil hne
  obtain ⟨f, _, _, hlen, _, _, hshort⟩ := head_cons h hb hcb hlog hqueue
  exact ⟨s, rest, hqueue, .inr (by omega)⟩

/-- When the head message is there, it is the first frame, and its length is in order. -/
theorem head_frame (h : Link a b log n fs) (ha : Recorded ca log na a) (hca : kcp_tokio.config.Accepted ca)
    (hb : Recorded cb blog n b) (hcb : kcp_tokio.config.Accepted cb) (hlog : log.length < 2 ^ 31)
    (hready : HeadReady b.engine.rcv_queue) :
    ∃ f tail, fs = f :: tail ∧ head_len b.engine.rcv_queue = f.length ∧
      payload (b.engine.rcv_queue.take f.length) = Fragment.joined f ∧
      0 < message_length b.engine.rcv_queue ∧ message_length b.engine.rcv_queue < 2 ^ 31 := by
  obtain ⟨s, rest, hqueue, hthere⟩ := hready
  obtain ⟨f, tail, rfl, hlen, htake, hframe, hshort⟩ := head_cons h hb hcb hlog hqueue
  have hwhole : f.length ≤ b.engine.rcv_queue.length := by
    rcases hthere with hlast | hlong
    · have hcount := congrArg List.length hqueue
      have hzero : s.header.frg.toNat = 0 := by rw [hlast]; rfl
      rw [List.length_cons] at hcount
      omega
    · omega
  have hcarried : (b.engine.rcv_queue.take f.length).map carried = f := by
    rw [waiting_split h hb hcb hlog, List.take_append_of_le_length (by rwa [List.length_map]), ← List.map_take] at htake
    exact htake
  have hhead : head_len b.engine.rcv_queue = f.length := by
    rw [← hcarried] at hframe
    have := head_len_of_frame hframe (b.engine.rcv_queue.drop f.length)
    rwa [List.take_append_drop, List.length_take, Nat.min_eq_left hwhole] at this
  have hpayload : payload (b.engine.rcv_queue.take f.length) = Fragment.joined f := by
    rw [payload_eq_joined, hcarried]
  have hmessage : message_length b.engine.rcv_queue = (Fragment.joined f).length := by
    rw [← length_payload_head, hhead, hpayload]
  have hfits : ∀ x ∈ f, x.Fits a.engine.mss.toNat := by
    intro x hx
    rw [← hcarried] at hx
    obtain ⟨segment, hsegment, rfl⟩ := List.mem_map.mp hx
    obtain ⟨k, _, hk⟩ := h.stored.queue segment (List.mem_of_mem_take hsegment)
    exact (ha.ledger.sender.proper _ (List.mem_of_getElem? hk)).1
  have hmss := (mss_bounds ha.set hca).2
  have hmost : max_frags a.engine.config ≤ 128 := by
    unfold max_frags
    rw [Word.toNat_min]
    exact Nat.min_le_right _ _
  have hpos := Fragment.length_joined_pos hframe.ne_nil hfits
  have hbound := Fragment.length_joined_le hfits
  have hbytes : f.length * a.engine.mss.toNat ≤ 128 * 65511 := Nat.mul_le_mul (by omega) hmss
  exact ⟨f, tail, rfl, hhead, hpayload, by omega, by omega⟩

/-- A feasible step of `b` takes in nothing but what the log holds, and loses nothing. -/
theorem link_moved (h : Link a b log n fs) (ha : Recorded ca log na a) (hca : kcp_tokio.config.Accepted ca)
    (hb : Recorded cb blog n b) (hcb : kcp_tokio.config.Accepted cb) (hlog : log.length < 2 ^ 31) {op : Op}
    (hop : Net.Feasible a op) {k m : Nat} (hmoved : Moved b.engine n k m (b.engine.step op)) :
    Stored (FromLog log) (b.step op).engine ∧ m ≤ log.length ∧
      (∀ j < log.length, BitVec.ofNat 32 j ∈ a.engine.snd_sns ∨ Kept m (b.step op).engine (BitVec.ofNat 32 j)) ∧
      Settled (b.step op).engine := by
  have hstored : Stored (FromLog log) (b.engine.step op) := by
    apply stored_step h.stored op
    rintro now data rfl segment hmem hcmd
    rcases hop with hlocal | ⟨_, sent, hsent, heq⟩
    · cases hlocal
    · cases heq
      exact ((ha.wire data hsent).split segment hmem).push hcmd
  have hshort : Stored Short b.engine := by
    have hfits : ∀ segment, FromLog log segment → Short segment := by
      rintro segment ⟨j, _, hj⟩
      have hproper : segment.data.length ≤ a.engine.mss.toNat :=
        (ha.ledger.sender.proper _ (List.mem_of_getElem? hj)).1.2
      exact hproper.trans (mss_bounds ha.set hca).2
    exact ⟨fun s hs => hfits s (h.stored.queue s hs), fun key s hs => hfits s (h.stored.buf key s hs)⟩
  have hwnd : (b.engine.step op).wnd.rcv.toNat ≤ 65535 := by
    rw [(configured_step hb.set op).rcv]
    exact hcb.rcv_le
  exact ⟨hstored, accepted_le hmoved hstored hwnd hlog h.le, fun j hj => (h.arrived j hj).imp_right (hmoved.kept _),
    settled_step hb.ledger.count h.settled hshort (hb.rcv_le hcb) (hb.rcv_pos hcb) op⟩

/-- Any feasible step of `b` but a `recv` keeps what is waiting. -/
theorem link_step_b (h : Link a b log n fs) (ha : Recorded ca log na a) (hca : kcp_tokio.config.Accepted ca)
    (hb : Recorded cb blog n b) (hcb : kcp_tokio.config.Accepted cb) (hlog : log.length < 2 ^ 31) {op : Op}
    (hop : Net.Feasible a op) (hrecv : op ≠ .recv) {m : Nat} (hmoved : Moved b.engine n 0 m (b.engine.step op)) :
    Link a (b.step op) log m fs := by
  obtain ⟨hstored, hle, harrived, hsettled⟩ := link_moved h ha hca hb hcb hlog hop hmoved
  have hreceived : (b.step op).received = b.received := by
    cases op with
    | recv => exact absurd rfl hrecv
    | _ => exact List.append_nil _
  refine ⟨hstored, hle, harrived, hsettled, ?_, ?_, ?_⟩
  · rw [waiting_moved h hb hcb hlog hmoved, List.drop_zero]
    exact h.framed
  · rw [hreceived]
    exact h.message
  · rw [hreceived]
    exact h.stream

/-- A `recv` numbers nothing. -/
theorem news_recv (e : KcpEngine) : news e e.recv.1 = [] := by
  apply news_same
  obtain ⟨queue, buf, nxt, flags, received, heq⟩ := e.recv_shape
  rw [heq]

/-- A `recv` on `b` returns the first frame, if it is there, and otherwise nothing. -/
theorem link_recv (h : Link a b log n fs) (ha : Recorded ca log na a) (hca : kcp_tokio.config.Accepted ca)
    (hb : Recorded cb blog n b) (hcb : kcp_tokio.config.Accepted cb) (hlog : log.length < 2 ^ 31) :
    (¬ HeadReady b.engine.rcv_queue ∧ b.engine.recv = (b.engine, .ok none)) ∨
      ∃ f tail m, fs = f :: tail ∧ b.engine.recv.2 = .ok (some (Fragment.joined f)) ∧
        Recorded cb blog m (b.step .recv) ∧ Link a (b.step .recv) log m tail := by
  by_cases hready : HeadReady b.engine.rcv_queue
  · right
    obtain ⟨f, tail, rfl, hhead, hpayload, hpos, hlen⟩ := head_frame h ha hca hb hcb hlog hready
    have hrecv := recv_of_ready hready hpos hlen
    obtain ⟨m, hmoved⟩ := moved_popped hb.ledger.count (hb.rcv_le hcb) (head_len_le b.engine.rcv_queue)
    have hstep : Moved b.engine n (head_len b.engine.rcv_queue) m (b.engine.step .recv) := by
      change Moved _ _ _ _ b.engine.recv.1
      rw [hrecv]
      exact hmoved
    have hresult : b.engine.recv.2 = .ok (some (Fragment.joined f)) := by
      rw [hrecv, hhead, hpayload]
    obtain ⟨hstored, hle, harrived, hsettled⟩ := link_moved h ha hca hb hcb hlog (.inl rfl) hstep
    have hnext := hb.step hcb .recv hstep
    have hnone : news b.engine (b.engine.step .recv) = [] := news_recv b.engine
    rw [hnone, List.append_nil] at hnext
    have hreceived : (b.step .recv).received = b.received ++ [Fragment.joined f] := by
      change b.received ++ returned b.engine .recv = _
      unfold returned
      rw [hresult]
    refine ⟨f, tail, m, rfl, hresult, hnext, hstored, hle, harrived, hsettled, ?_, ?_, ?_⟩
    · rw [waiting_moved h hb hcb hlog hstep, hhead]
      exact h.framed.tail
    · intro hok hmode
      rw [hreceived, h.message hok hmode, List.append_assoc]
      rfl
    · intro hok hmode
      rw [hreceived, h.stream hok hmode]
      simp
  · left
    obtain ⟨_, heq⟩ | ⟨hsome, _⟩ := b.engine.recv_cases
    · exact ⟨hready, heq⟩
    · exact absurd hsome hready

end

end kcp_core.network
