import Kcp.Engine.RecvInvariant

open kcp_core.protocol kcp_core.config kcp_core.error

namespace kcp_core.engine

namespace KcpEngine

/-! ### Deliveries -/

/-- The engine after some datagrams, each with the reading at which it comes in. -/
def inputs (self : KcpEngine) (calls : List (Timestamp × Bytes)) : KcpEngine :=
  calls.foldl (fun e call => (e.input call.1 call.2).1) self

/-- What of a segment outlives its arrival: number, fragment and payload. -/
def entry (segment : KcpSegment) : SeqNum × U8 × Bytes := (segment.header.sn, segment.header.frg, segment.data)

/-- Data of the conversation. -/
def Pushes (conv : ConvId) (segment : KcpSegment) : Prop :=
  segment.header.conv = conv ∧ segment.header.cmd = constants.IKCP_CMD_PUSH

instance decidablePushes (conv : ConvId) (segment : KcpSegment) : Decidable (Pushes conv segment) :=
  inferInstanceAs (Decidable (_ ∧ _))

/-- A fragment and a payload for each number of a finite set. -/
abbrev Contents := AList (fun _ : SeqNum => U8 × Bytes)

/-- The data segments of the conversation, with the contents they stand for. -/
def Matches (conv : ConvId) (contents : Contents) (segments : List KcpSegment) : Prop :=
  ∀ s ∈ segments, Pushes conv s → contents.lookup s.header.sn = some (s.header.frg, s.data)

instance decidableMatches (conv : ConvId) (contents : Contents) (segments : List KcpSegment) :
    Decidable (Matches conv contents segments) :=
  inferInstanceAs (Decidable (∀ s ∈ segments, Pushes conv s → _))

/-- The datagrams bring exactly these contents, in any order, any number of times and
grouped in any way; what they carry besides is no data of the conversation. -/
def Delivers (conv : ConvId) (contents : Contents) (calls : List (Timestamp × Bytes)) : Prop :=
  (∀ call ∈ calls, Matches conv contents (split_segments call.2)) ∧
    ∀ sn ∈ contents.keys, ∃ call ∈ calls, ∃ s ∈ split_segments call.2, Pushes conv s ∧ s.header.sn = sn

instance decidableDelivers (conv : ConvId) (contents : Contents) (calls : List (Timestamp × Bytes)) :
    Decidable (Delivers conv contents calls) :=
  have : Decidable (∀ sn ∈ contents.keys,
      ∃ call ∈ calls, ∃ s ∈ split_segments call.2, Pushes conv s ∧ s.header.sn = sn) :=
    List.decidableBAll _ contents.keys
  inferInstanceAs (Decidable ((∀ call ∈ calls, _) ∧ _))

/-- The numbers of the contents lie in the receive window. -/
def InWindow (self : KcpEngine) (contents : Contents) : Prop :=
  ∀ sn ∈ contents.keys, Serial.offset self.rcv_nxt sn < self.wnd.rcv.toNat

instance decidableInWindow (self : KcpEngine) (contents : Contents) : Decidable (InWindow self contents) :=
  List.decidableBAll (fun sn => Serial.offset self.rcv_nxt sn < self.wnd.rcv.toNat) contents.keys

/-! ### The invariant -/

variable {before : KcpEngine} {contents : Contents} {seen : List SeqNum}

/-- What is held under a number once the numbers `seen` have come in: what waited there
before, or else the contents that came in. -/
def held (before : KcpEngine) (contents : Contents) (seen : List SeqNum) (sn : SeqNum) : Option (SeqNum × U8 × Bytes) :=
  ((before.rcv_buf.lookup sn).map entry).or
    (if sn ∈ seen then (contents.lookup sn).map fun content => (sn, content) else none)

/-- The receive side after the numbers `seen` came in: the first `k` numbers from the old
`rcv_nxt` on went over to the queue, the others that are held wait in the buffer. -/
structure Filled (before : KcpEngine) (contents : Contents) (seen : List SeqNum) (k : Nat) (e : KcpEngine) : Prop where
  window : RecvWindow e
  nxt : e.rcv_nxt = before.rcv_nxt + BitVec.ofNat 32 k
  grown : e.rcv_queue.length = before.rcv_queue.length + k
  queue : e.rcv_queue.map entry = before.rcv_queue.map entry ++
    (List.range k).filterMap fun i => held before contents seen (before.rcv_nxt + BitVec.ofNat 32 i)
  taken : ∀ i < k, (held before contents seen (before.rcv_nxt + BitVec.ofNat 32 i)).isSome
  buf : ∀ sn, (e.rcv_buf.lookup sn).map entry =
    if Serial.offset before.rcv_nxt sn < k then none else held before contents seen sn
  rcv : e.wnd.rcv = before.wnd.rcv
  conv : e.conv = before.conv

/-- Which numbers are filled depends on the receiving side alone. -/
theorem Filled.congr {k : Nat} {e f : KcpEngine} (h : Filled before contents seen k e)
    (hqueue : f.rcv_queue = e.rcv_queue) (hbuf : f.rcv_buf = e.rcv_buf) (hnxt : f.rcv_nxt = e.rcv_nxt)
    (hrcv : f.wnd.rcv = e.wnd.rcv) (hconv : f.conv = e.conv) : Filled before contents seen k f where
  window := by
    refine ⟨?_, ?_⟩
    · rw [hqueue, hrcv]; exact h.window.capped
    · rw [hbuf, hnxt, hrcv]; exact h.window.inside
  nxt := hnxt.trans h.nxt
  grown := by rw [hqueue]; exact h.grown
  queue := by rw [hqueue]; exact h.queue
  taken := h.taken
  buf := by rw [hbuf]; exact h.buf
  rcv := hrcv.trans h.rcv
  conv := hconv.trans h.conv

/-- No more numbers are filled than the window has. -/
theorem Filled.le {k : Nat} {e : KcpEngine} (h : Filled before contents seen k e) :
    before.rcv_queue.length + k ≤ before.wnd.rcv.toNat := by
  rw [← h.grown, ← h.rcv]
  exact h.window.capped

/-- The next number in order goes over to the queue. -/
theorem Filled.refill {k : Nat} {e : KcpEngine} (h : Filled before contents seen k e)
    (hwnd : before.wnd.rcv.toNat ≤ 65535) {segment : KcpSegment} (hnext : e.rcv_buf.lookup e.rcv_nxt = some segment)
    (hroom : e.rcv_queue.length < e.wnd.rcv.toNat) : Filled before contents seen (k + 1) (e.refill segment) := by
  have hle := h.le
  have hoff : Serial.offset before.rcv_nxt e.rcv_nxt = k := by
    rw [h.nxt, Serial.offset_add (by rw [Serial.offset_self]; omega), Serial.offset_self, Nat.zero_add]
  have hheld : held before contents seen (before.rcv_nxt + BitVec.ofNat 32 k) = some (entry segment) := by
    have hbuf := h.buf e.rcv_nxt
    rw [hnext, hoff, if_neg (lt_irrefl k), h.nxt] at hbuf
    exact hbuf.symm
  exact {
    window := h.window.refill segment hroom
    nxt := by
      change e.rcv_nxt + 1 = _
      rw [h.nxt, BitVec.ofNat_add, add_assoc]
      rfl
    grown := by
      have := h.grown
      simp only [KcpEngine.refill, List.length_append, List.length_singleton]
      omega
    queue := by
      simp only [KcpEngine.refill, List.map_append, h.queue, List.range_succ, List.filterMap_append]
      simp [hheld]
    taken := by
      intro i hi
      rcases Nat.lt_succ_iff_lt_or_eq.mp hi with hlt | rfl
      · exact h.taken i hlt
      · rw [hheld]
        rfl
    buf := by
      intro sn
      by_cases heq : sn = e.rcv_nxt
      · rw [heq, hoff, if_pos (Nat.lt_succ_self k)]
        simp [KcpEngine.refill, AList.lookup_erase]
      · have hne : Serial.offset before.rcv_nxt sn ≠ k := by
          intro hk
          exact heq (Serial.offset_injective before.rcv_nxt (hk.trans hoff.symm))
        simp only [KcpEngine.refill, AList.lookup_erase_ne heq, h.buf]
        congr 1
        exact propext (by omega)
    rcv := h.rcv
    conv := h.conv }

/-- The loop that fills the queue goes on to the next number that is missing. -/
theorem Filled.move_to_recv_queue {k : Nat} {e : KcpEngine} (h : Filled before contents seen k e)
    (hwnd : before.wnd.rcv.toNat ≤ 65535) : ∃ k', Filled before contents seen k' e.move_to_recv_queue :=
  move_to_recv_queue_rule (P := fun e => ∃ k, Filled before contents seen k e)
    (fun _ _ hfilled hnext hroom => ⟨_, hfilled.choose_spec.refill hwnd hnext hroom⟩) ⟨k, h⟩

/-- What arrives is held under its own number. -/
theorem held_cons_ne {sn x : SeqNum} (h : x ≠ sn) :
    held before contents (sn :: seen) x = held before contents seen x := by
  simp [held, h]

/-- A number that is held already gains nothing from another arrival. -/
theorem held_cons_held {sn : SeqNum} (h : (held before contents seen sn).isSome) :
    held before contents (sn :: seen) = held before contents seen := by
  funext x
  by_cases heq : x = sn
  · subst heq
    cases hbuf : before.rcv_buf.lookup x with
    | some segment => simp [held, hbuf]
    | none =>
      have hseen : x ∈ seen := by
        by_contra hnot
        simp [held, hbuf, hnot] at h
      simp [held, hbuf, hseen]
  · exact held_cons_ne heq

/-- The first copy is the one that is held. -/
theorem held_cons_new {sn : SeqNum} {content : U8 × Bytes} (h : held before contents seen sn = none)
    (hcontent : contents.lookup sn = some content) :
    held before contents (sn :: seen) sn = some (sn, content) := by
  unfold held at *
  rw [(Option.or_eq_none_iff.mp h).1, if_pos List.mem_cons_self, hcontent]
  rfl

/-- A copy of what is held changes nothing. -/
theorem Filled.seen_again {k : Nat} {e : KcpEngine} (h : Filled before contents seen k e) {sn : SeqNum}
    (hheld : (held before contents seen sn).isSome) : Filled before contents (sn :: seen) k e := by
  have heq := held_cons_held hheld
  exact ⟨h.window, h.nxt, h.grown, by rw [heq]; exact h.queue, by rw [heq]; exact h.taken, by rw [heq]; exact h.buf,
    h.rcv, h.conv⟩

/-- A number not yet taken over comes in: it is stored, unless it was held already. -/
theorem Filled.insert {k : Nat} {e : KcpEngine} (h : Filled before contents seen k e) {segment : KcpSegment}
    (hin : Serial.offset e.rcv_nxt segment.header.sn < e.wnd.rcv.toNat)
    (hfar : k ≤ Serial.offset before.rcv_nxt segment.header.sn)
    (hcontent : contents.lookup segment.header.sn = some (segment.header.frg, segment.data)) :
    Filled before contents (segment.header.sn :: seen) k { e with
      rcv_buf := if segment.header.sn ∈ e.rcv_buf then e.rcv_buf
        else e.rcv_buf.insert segment.header.sn segment } := by
  have hbuf := h.buf segment.header.sn
  rw [if_neg (by omega)] at hbuf
  by_cases hmem : segment.header.sn ∈ e.rcv_buf
  · have hheld : (held before contents seen segment.header.sn).isSome := by
      rw [← hbuf, Option.isSome_map]
      exact AList.lookup_isSome.mpr hmem
    rw [if_pos hmem]
    exact h.seen_again hheld
  · rw [AList.lookup_eq_none.mpr hmem] at hbuf
    have hnew := held_cons_new hbuf.symm hcontent
    have hlow : ∀ i < k, before.rcv_nxt + BitVec.ofNat 32 i ≠ segment.header.sn := by
      intro i hi heq
      have hsome := h.taken i hi
      rw [heq, ← hbuf] at hsome
      cases hsome
    have hwin := h.window.insert hin
    rw [if_neg hmem] at hwin ⊢
    exact {
      window := hwin
      nxt := h.nxt
      grown := h.grown
      queue := by
        rw [h.queue]
        congr 1
        exact List.filterMap_congr fun i hi => (held_cons_ne (hlow i (List.mem_range.mp hi))).symm
      taken := by
        intro i hi
        rw [held_cons_ne (hlow i hi)]
        exact h.taken i hi
      buf := by
        intro sn
        by_cases heq : sn = segment.header.sn
        · rw [heq, if_neg (by omega), hnew, AList.lookup_insert]
          rfl
        · rw [held_cons_ne heq, AList.lookup_insert_ne heq]
          exact h.buf sn
      rcv := h.rcv
      conv := h.conv }

/-- A position before `rcv_nxt` that was taken over in these calls. -/
theorem Filled.isSome_of_lt {k : Nat} {e : KcpEngine} (h : Filled before contents seen k e) {sn : SeqNum}
    (hlt : Serial.offset before.rcv_nxt sn < k) : (held before contents seen sn).isSome := by
  have hsn : before.rcv_nxt + BitVec.ofNat 32 (Serial.offset before.rcv_nxt sn) = sn := by
    apply Serial.offset_injective before.rcv_nxt
    have hspan := Serial.offset_lt before.rcv_nxt sn
    rw [Serial.offset_add (by rw [Serial.offset_self]; omega), Serial.offset_self, Nat.zero_add]
  have hsome := h.taken _ hlt
  rwa [hsn] at hsome

/-! ### Preservation -/

/-- The receive side while the datagrams come in. The first of the numbers to arrive lets
the refill loop run, so from then on nothing is left for it to do. -/
structure Arrived (before : KcpEngine) (contents : Contents) (seen : List SeqNum) (e : KcpEngine) : Prop where
  filled : ∃ k, Filled before contents seen k e ∧ (seen = [] → k = 0)
  settled : seen ≠ [] → Settled e
  known : ∀ sn ∈ seen, sn ∈ contents

/-- What has arrived depends on the receiving side alone. -/
theorem Arrived.congr {e e' : KcpEngine} (h : Arrived before contents seen e)
    (hqueue : e'.rcv_queue = e.rcv_queue) (hbuf : e'.rcv_buf = e.rcv_buf) (hnxt : e'.rcv_nxt = e.rcv_nxt)
    (hrcv : e'.wnd.rcv = e.wnd.rcv) (hconv : e'.conv = e.conv) : Arrived before contents seen e' where
  filled := by
    obtain ⟨k, hfilled, hzero⟩ := h.filled
    exact ⟨k, hfilled.congr hqueue hbuf hnxt hrcv hconv, hzero⟩
  settled := by
    unfold Settled
    rw [hqueue, hbuf, hnxt, hrcv]
    exact h.settled
  known := h.known

/-- A segment in the window has arrived. -/
theorem Arrived.input_push {e : KcpEngine} (h : Arrived before contents seen e)
    (hwnd : before.wnd.rcv.toNat ≤ 65535) (hin : InWindow before contents) {segment : KcpSegment}
    (hcontent : contents.lookup segment.header.sn = some (segment.header.frg, segment.data)) :
    Arrived before contents (segment.header.sn :: seen) (e.input_push segment) := by
  obtain ⟨k, hfilled, hzero⟩ := h.filled
  have hle := hfilled.le
  have hrcv := congrArg BitVec.toNat hfilled.rcv
  have hmem : segment.header.sn ∈ contents := by
    rw [← AList.lookup_isSome, hcontent]
    rfl
  have hspan := hin _ (AList.mem_keys.mp hmem)
  have hk : (BitVec.ofNat 32 k).toNat = k := by
    rw [BitVec.toNat_ofNat, Nat.mod_eq_of_lt (by omega)]
  have hknown : ∀ sn ∈ segment.header.sn :: seen, sn ∈ contents := by
    intro sn hsn
    rcases List.mem_cons.mp hsn with rfl | hsn
    · exact hmem
    · exact h.known sn hsn
  by_cases hfar : k ≤ Serial.offset before.rcv_nxt segment.header.sn
  · have hoff : Serial.offset e.rcv_nxt segment.header.sn = Serial.offset before.rcv_nxt segment.header.sn - k := by
      rw [hfilled.nxt, Serial.offset_shift (by omega), hk]
    have hnear : Serial.offset e.rcv_nxt segment.header.sn < e.wnd.rcv.toNat := by omega
    have hinsert := hfilled.insert hnear hfar hcontent
    have hacked := hinsert.congr (f := KcpEngine.ack_push
      { e with
        rcv_buf := if segment.header.sn ∈ e.rcv_buf then e.rcv_buf
          else e.rcv_buf.insert segment.header.sn segment }
      segment.header.sn segment.header.ts) rfl rfl rfl rfl rfl
    obtain ⟨k', hmoved⟩ := hacked.move_to_recv_queue hwnd
    rw [input_push_new (by omega) hnear]
    exact ⟨⟨k', hmoved, by simp⟩, fun _ => settled_move_to_recv_queue hacked.window, hknown⟩
  · -- taken over already: the window has moved past the number, which is at most acknowledged again
    have hoff : Serial.offset e.rcv_nxt segment.header.sn =
        2 ^ 32 + Serial.offset before.rcv_nxt segment.header.sn - k := by
      rw [hfilled.nxt, Serial.offset_shift_wrap (by omega), hk]
    have hseen : seen ≠ [] := by
      intro hnil
      have := hzero hnil
      omega
    have hheld := hfilled.isSome_of_lt (Nat.not_le.mp hfar)
    have hagain := hfilled.seen_again hheld
    have hsame : Arrived before contents (segment.header.sn :: seen) e :=
      ⟨⟨k, hagain, by simp⟩, fun _ => h.settled hseen, hknown⟩
    rw [input_push_old (by omega) (by omega)]
    split
    · exact hsame.congr rfl rfl rfl rfl rfl
    · exact hsame

/-- One turn of the segment loop: only data of the conversation is seen. -/
theorem Arrived.input_segment {acc : KcpEngine × AckTrack} (h : Arrived before contents seen acc.1)
    (hwnd : before.wnd.rcv.toNat ≤ 65535) (hin : InWindow before contents) (current : Timestamp) {segment : KcpSegment}
    (hmatch : Pushes before.conv segment →
      contents.lookup segment.header.sn = some (segment.header.frg, segment.data)) :
    Arrived before contents (if Pushes before.conv segment then segment.header.sn :: seen else seen)
      (input_segment current acc segment).1 := by
  obtain ⟨e, track⟩ := acc
  obtain ⟨k, hfilled, _⟩ := h.filled
  have hopen : Arrived before contents seen
      (KcpEngine.parse_una { e with wnd := { e.wnd with rmt := segment.header.wnd.setWidth 32 } } segment.header.una) :=
    h.congr rfl rfl rfl rfl rfl
  by_cases hpush : Pushes before.conv segment
  · obtain ⟨hconv, hcmd⟩ := id hpush
    have hsame : ¬ segment.header.conv ≠ e.conv := not_not.mpr (hconv.trans hfilled.conv.symm)
    have hnot : ¬ segment.header.cmd = constants.IKCP_CMD_ACK := by
      rw [hcmd]
      decide
    unfold KcpEngine.input_segment
    dsimp only
    rw [if_pos hpush, if_neg hsame, if_neg hnot, if_pos hcmd]
    exact hopen.input_push hwnd hin (hmatch hpush)
  · rw [if_neg hpush]
    by_cases hconv : segment.header.conv = before.conv
    · apply input_segment_rule (P := Arrived before contents seen)
      · exact fun e' rmt he => he.congr rfl rfl rfl rfl rfl
      · exact fun e' he => he.congr rfl rfl rfl rfl rfl
      · intro _ e' he
        obtain ⟨avg, var, rto, stats, buf, heq, _⟩ := input_ack_shape e' current segment
        rw [heq]
        exact he.congr rfl rfl rfl rfl rfl
      · exact fun hcmd => absurd ⟨hconv, hcmd⟩ hpush
      · exact fun e' he => he.congr rfl rfl rfl rfl rfl
      · exact h
    · have hforeign : segment.header.conv ≠ e.conv := by rwa [hfilled.conv]
      unfold KcpEngine.input_segment
      dsimp only
      rw [if_pos hforeign]
      exact h

/-- All segments of a datagram arrive. -/
theorem Arrived.input_segments {segments : List KcpSegment} {acc : KcpEngine × AckTrack}
    (h : Arrived before contents seen acc.1) (hwnd : before.wnd.rcv.toNat ≤ 65535) (hin : InWindow before contents)
    (current : Timestamp) (hmatch : Matches before.conv contents segments) :
    ∃ seen', Arrived before contents seen' (segments.foldl (KcpEngine.input_segment current) acc).1 ∧
      (∀ sn ∈ seen, sn ∈ seen') ∧ ∀ s ∈ segments, Pushes before.conv s → s.header.sn ∈ seen' := by
  induction segments generalizing acc seen with
  | nil => exact ⟨seen, h, fun _ hsn => hsn, by simp⟩
  | cons segment rest ih =>
    have hone := h.input_segment hwnd hin current (hmatch segment List.mem_cons_self)
    obtain ⟨seen', hrest, hsub, hall⟩ := ih hone fun s hs => hmatch s (List.mem_cons_of_mem _ hs)
    refine ⟨seen', hrest, fun sn hsn => hsub sn ?_, fun s hs hpush => ?_⟩
    · split
      · exact List.mem_cons_of_mem _ hsn
      · exact hsn
    · rcases List.mem_cons.mp hs with rfl | hs
      · apply hsub
        rw [if_pos hpush]
        exact List.mem_cons_self
      · exact hall s hs hpush

/-- A call of `input` takes in its segments. -/
theorem Arrived.input {e : KcpEngine} (h : Arrived before contents seen e) (hwnd : before.wnd.rcv.toNat ≤ 65535)
    (hin : InWindow before contents) (current : Timestamp) {data : Bytes}
    (hmatch : Matches before.conv contents (split_segments data)) :
    ∃ seen', Arrived before contents seen' (e.input current data).1 ∧ (∀ sn ∈ seen, sn ∈ seen') ∧
      ∀ s ∈ split_segments data, Pushes before.conv s → s.header.sn ∈ seen' := by
  have hstart : Arrived before contents seen { e with last_activity := current } := h.congr rfl rfl rfl rfl rfl
  by_cases hshort : data.length < KcpHeader.SIZE
  · -- too short for a header, so nothing is split off
    have hnone : split_segments data = [] := by
      apply List.eq_nil_iff_forall_not_mem.mpr
      intro s hs
      have hsize := split_segments_size s hs
      rw [KcpSegment.size] at hsize
      omega
    rw [input_short hshort, hnone]
    exact ⟨seen, hstart, fun _ hsn => hsn, by simp⟩
  · let acc : KcpEngine × AckTrack := ({ e with last_activity := current }, { flag := false, max_ack := 0, latest_ts := 0 })
    have hacc : Arrived before contents seen acc.1 := hstart
    obtain ⟨seen', hloop, hsub, hall⟩ := hacc.input_segments hwnd hin current hmatch
    obtain ⟨buf, cwnd, incr, received, hfinish, _⟩ := input_finish_shape
      (e.input_loop current data).1 e.snd_una (e.input_loop current data).2
    rw [input_eq hshort, hfinish]
    exact ⟨seen', hloop.congr rfl rfl rfl rfl rfl, hsub, hall⟩

/-- Any number of datagrams arrive, in the order of the calls. -/
theorem Arrived.inputs {calls : List (Timestamp × Bytes)} {e : KcpEngine} (h : Arrived before contents seen e)
    (hwnd : before.wnd.rcv.toNat ≤ 65535) (hin : InWindow before contents)
    (hmatch : ∀ call ∈ calls, Matches before.conv contents (split_segments call.2)) :
    ∃ seen', Arrived before contents seen' (e.inputs calls) ∧ (∀ sn ∈ seen, sn ∈ seen') ∧
      ∀ call ∈ calls, ∀ s ∈ split_segments call.2, Pushes before.conv s → s.header.sn ∈ seen' := by
  induction calls generalizing e seen with
  | nil => exact ⟨seen, h, fun _ hsn => hsn, by simp⟩
  | cons call rest ih =>
    obtain ⟨seen', hone, hsub, hall⟩ := h.input hwnd hin call.1 (hmatch call List.mem_cons_self)
    obtain ⟨seen'', hrest, hsub', hall'⟩ := ih hone fun c hc => hmatch c (List.mem_cons_of_mem _ hc)
    refine ⟨seen'', hrest, fun sn hsn => hsub' sn (hsub sn hsn), fun c hc s hs hpush => ?_⟩
    rcases List.mem_cons.mp hc with rfl | hc
    · exact hsub' _ (hall s hs hpush)
    · exact hall' c hc s hs hpush

/-- Nothing has arrived yet. -/
theorem Arrived.refl (h : RecvWindow before) : Arrived before contents [] before where
  filled := by
    refine ⟨0, ?_, fun _ => rfl⟩
    exact {
      window := h
      nxt := by simp
      grown := rfl
      queue := by simp
      taken := by simp
      buf := by simp [held]
      rcv := rfl
      conv := rfl }
  settled := fun hne => absurd rfl hne
  known := by simp

/-! ### Confluence -/

/-- A settled receive side has taken over as many numbers as any other that holds the same. -/
theorem Filled.count_le {first second : List SeqNum} {a b : KcpEngine} {k m : Nat}
    (ha : Filled before contents first k a) (hsettled : Settled a) (hb : Filled before contents second m b)
    (hheld : held before contents first = held before contents second) (hwnd : before.wnd.rcv.toNat ≤ 65535) :
    m ≤ k := by
  by_contra hlt
  have hle := ha.le
  have hle' := hb.le
  have hoff : Serial.offset before.rcv_nxt a.rcv_nxt = k := by
    rw [ha.nxt, Serial.offset_add (by rw [Serial.offset_self]; omega), Serial.offset_self, Nat.zero_add]
  have hsome := hb.taken k (by omega)
  have hbuf := ha.buf a.rcv_nxt
  rw [hoff, if_neg (lt_irrefl k), ha.nxt, hheld] at hbuf
  rw [← hbuf, Option.isSome_map, AList.lookup_isSome, ← ha.nxt] at hsome
  have hfull := hsettled hsome
  rw [ha.grown, ha.rcv] at hfull
  omega

/-- The receive side depends on what is held alone. -/
theorem Filled.agree {first second : List SeqNum} {a b : KcpEngine} {k : Nat} (ha : Filled before contents first k a)
    (hb : Filled before contents second k b) (hheld : held before contents first = held before contents second) :
    a.rcv_nxt = b.rcv_nxt ∧ a.rcv_queue.map entry = b.rcv_queue.map entry ∧
      ∀ sn, (a.rcv_buf.lookup sn).map entry = (b.rcv_buf.lookup sn).map entry := by
  refine ⟨by rw [ha.nxt, hb.nxt], by rw [ha.queue, hb.queue, hheld], fun sn => ?_⟩
  rw [ha.buf, hb.buf, hheld]

/-- Two engines at which the same segments have arrived hold the same. -/
theorem Arrived.agree {first second : List SeqNum} {a b : KcpEngine} (ha : Arrived before contents first a)
    (hb : Arrived before contents second b) (hsame : ∀ sn, sn ∈ first ↔ sn ∈ second)
    (hwnd : before.wnd.rcv.toNat ≤ 65535) :
    a.rcv_nxt = b.rcv_nxt ∧ a.rcv_queue.map entry = b.rcv_queue.map entry ∧
      ∀ sn, (a.rcv_buf.lookup sn).map entry = (b.rcv_buf.lookup sn).map entry := by
  obtain ⟨k, hfirst, hzero⟩ := ha.filled
  obtain ⟨m, hsecond, hzero'⟩ := hb.filled
  have hheld : held before contents first = held before contents second := by
    funext sn
    unfold held
    congr 1
    exact if_congr (hsame sn) rfl rfl
  have hkm : k = m := by
    by_cases hnil : first = []
    · have hnil' : second = [] := by
        apply List.eq_nil_iff_forall_not_mem.mpr
        intro sn hsn
        simpa [hnil] using (hsame sn).mpr hsn
      rw [hzero hnil, hzero' hnil']
    · have hne : second ≠ [] := by
        rintro rfl
        exact hnil (List.eq_nil_iff_forall_not_mem.mpr fun sn hsn => by simpa using (hsame sn).mp hsn)
      exact le_antisymm (hsecond.count_le (hb.settled hne) hfirst hheld.symm hwnd)
        (hfirst.count_le (ha.settled hnil) hsecond hheld hwnd)
  subst hkm
  exact hfirst.agree hsecond hheld

/-- After datagrams that deliver the contents, just their numbers have been seen. -/
theorem arrived_delivers {calls : List (Timestamp × Bytes)} (h : RecvWindow before)
    (hwnd : before.wnd.rcv.toNat ≤ 65535) (hin : InWindow before contents) (hcalls : Delivers before.conv contents calls) :
    ∃ seen, Arrived before contents seen (before.inputs calls) ∧ ∀ sn, sn ∈ seen ↔ sn ∈ contents.keys := by
  obtain ⟨seen, harrived, _, hall⟩ := (Arrived.refl h).inputs hwnd hin hcalls.1
  refine ⟨seen, harrived, fun sn => ⟨fun hsn => AList.mem_keys.mp (harrived.known sn hsn), fun hsn => ?_⟩⟩
  obtain ⟨call, hcall, s, hs, hpush, rfl⟩ := hcalls.2 sn hsn
  exact hall call hcall s hs hpush

end KcpEngine

open KcpEngine

/-- Datagrams that deliver the same contents of the receive window leave the same receive
side, whatever the order, the repetitions and the grouping. -/
theorem reassembly_confluent (start : Start) (ops : List Op) (contents : Contents)
    (hin : InWindow (start.reached ops) contents) (first second : List (Timestamp × Bytes))
    (hfirst : Delivers (start.reached ops).conv contents first)
    (hsecond : Delivers (start.reached ops).conv contents second) :
    ((start.reached ops).inputs first).rcv_nxt = ((start.reached ops).inputs second).rcv_nxt ∧
      ((start.reached ops).inputs first).rcv_queue.map entry = ((start.reached ops).inputs second).rcv_queue.map entry ∧
      ∀ sn, (((start.reached ops).inputs first).rcv_buf.lookup sn).map entry =
        (((start.reached ops).inputs second).rcv_buf.lookup sn).map entry := by
  have hwnd := start.rcv_le ops
  have hwin := (start.recvCount ops).window
  obtain ⟨seen, harrived, hseen⟩ := arrived_delivers hwin hwnd hin hfirst
  obtain ⟨seen', harrived', hseen'⟩ := arrived_delivers hwin hwnd hin hsecond
  exact harrived.agree harrived' (fun sn => (hseen sn).trans (hseen' sn).symm) hwnd

/-- Contents for three numbers, with the one before the last left out. -/
def gapped : Contents :=
  List.toAList ([⟨0, 0, [1]⟩, ⟨1, 0, [2]⟩, ⟨3, 0, [4]⟩] : List (Sigma fun _ : SeqNum => U8 × Bytes))

def gapped_push (sn : SeqNum) (byte : U8) : Bytes := (KcpSegment.push 7 sn [byte] 0).bytes

/-- Three segments with a gap, in two orders and with a repetition. -/
theorem reassembly_confluent_gapped :
    ((plain.reached []).inputs [(0, gapped_push 0 1), (1, gapped_push 1 2), (2, gapped_push 3 4)]).rcv_nxt =
      ((plain.reached []).inputs [(5, gapped_push 3 4), (5, gapped_push 1 2 ++ gapped_push 0 1 ++ gapped_push 1 2)]).rcv_nxt :=
  (reassembly_confluent plain [] gapped (by decide +kernel) _ _ (by decide +kernel) (by decide +kernel)).1

end kcp_core.engine
