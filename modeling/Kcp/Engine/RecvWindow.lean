import Kcp.Engine.Stored

open kcp_core.protocol kcp_core.config kcp_core.error
open kcp_tokio.config

namespace kcp_core.engine

namespace KcpEngine

/-! ### The window tests on an incoming number -/

/-- A number is before another if it is in the half behind it. -/
theorem seq_before_iff {sn nxt : SeqNum} : seq_before sn nxt = true ↔ 2 ^ 31 ≤ Serial.offset nxt sn := by
  unfold seq_before
  rw [decide_eq_true_iff, Serial.diff_neg_iff_offset]
  omega

/-- A number passes the upper window test when it lies in the window, or so far
behind it that half the number space separates the two. -/
theorem seq_before_window_iff (sn nxt : SeqNum) {wnd : U32} (hwnd : wnd.toNat ≤ 65535) :
    seq_before sn (nxt + wnd) = true ↔
      Serial.offset nxt sn < wnd.toNat ∨ 2 ^ 31 + wnd.toNat ≤ Serial.offset nxt sn := by
  rw [seq_before_iff]
  have hlt := Serial.offset_lt nxt sn
  by_cases hin : Serial.offset nxt sn < wnd.toNat
  · rw [Serial.offset_shift_wrap hin]
    omega
  · rw [Serial.offset_shift (by omega)]
    omega

/-! ### The invariant -/

/-- The receive window: the queue is no longer than the window, and the reorder
buffer holds only numbers of the window, each under its own key. -/
structure RecvWindow (e : KcpEngine) : Prop where
  capped : e.rcv_queue.length ≤ e.wnd.rcv.toNat
  inside : ∀ k segment, e.rcv_buf.lookup k = some segment →
    Serial.offset e.rcv_nxt k < e.wnd.rcv.toNat ∧ segment.header.sn = k

/-- The next segment in order waits in the reorder buffer only while the queue is full. -/
def Settled (e : KcpEngine) : Prop := e.rcv_nxt ∈ e.rcv_buf → e.rcv_queue.length = e.wnd.rcv.toNat

/-- A segment that moves to the queue leaves the window as it was. -/
theorem RecvWindow.refill {e : KcpEngine} (h : RecvWindow e) (segment : KcpSegment)
    (hroom : e.rcv_queue.length < e.wnd.rcv.toNat) : RecvWindow (e.refill segment) := by
  constructor
  · simp only [KcpEngine.refill, List.length_append, List.length_singleton]
    omega
  · intro k s hk
    have hne : k ≠ e.rcv_nxt := by
      rintro rfl
      simp [KcpEngine.refill, AList.lookup_erase] at hk
    simp only [KcpEngine.refill, AList.lookup_erase_ne hne] at hk ⊢
    obtain ⟨hoff, hsn⟩ := h.inside k s hk
    have hpos : Serial.offset e.rcv_nxt k ≠ 0 := fun h0 => hne (Serial.offset_eq_zero_iff.mp h0)
    have hone : ((1 : SeqNum)).toNat = 1 := rfl
    rw [Serial.offset_shift (by omega)]
    exact ⟨by omega, hsn⟩

/-- All segments that move to the queue leave the window as it was. -/
theorem RecvWindow.move_to_recv_queue {e : KcpEngine} (h : RecvWindow e) :
    RecvWindow e.move_to_recv_queue :=
  move_to_recv_queue_rule (fun _ segment hwin _ hroom => hwin.refill segment hroom) h

/-- After that nothing is left that could move. -/
theorem settled_move_to_recv_queue {e : KcpEngine} (h : RecvWindow e) : Settled e.move_to_recv_queue := by
  intro hmem
  have hcap := h.move_to_recv_queue.capped
  rcases e.move_to_recv_queue_exit with hnone | hfull
  · exact absurd hmem (AList.lookup_eq_none.mp hnone)
  · omega

/-- What `recv` drops off the queue never hurts the window. -/
theorem RecvWindow.drop {e : KcpEngine} (h : RecvWindow e) (k : Nat) :
    RecvWindow { e with rcv_queue := e.rcv_queue.drop k } where
  capped := by
    have := h.capped
    simp only [List.length_drop]
    omega
  inside := h.inside

/-- Storing an acceptable segment keeps the window. -/
theorem RecvWindow.insert {e : KcpEngine} (h : RecvWindow e) {segment : KcpSegment}
    (hin : Serial.offset e.rcv_nxt segment.header.sn < e.wnd.rcv.toNat) :
    RecvWindow { e with
      rcv_buf := if segment.header.sn ∈ e.rcv_buf then e.rcv_buf
        else e.rcv_buf.insert segment.header.sn segment } := by
  refine ⟨h.capped, ?_⟩
  intro k s hk
  dsimp only at hk
  split at hk
  · exact h.inside k s hk
  · by_cases heq : k = segment.header.sn
    · subst heq
      rw [AList.lookup_insert, Option.some.injEq] at hk
      subst hk
      exact ⟨hin, rfl⟩
    · rw [AList.lookup_insert_ne heq] at hk
      exact h.inside k s hk

/-- The queue holds consecutive numbers, the last of them just before `rcv_nxt`. -/
def InOrder (e : KcpEngine) : Prop := ∀ i segment, e.rcv_queue[i]? = some segment →
  segment.header.sn + BitVec.ofNat 32 (e.rcv_queue.length - i) = e.rcv_nxt

/-- The queue goes on with the next number. -/
theorem InOrder.refill {e : KcpEngine} (h : InOrder e) {segment : KcpSegment}
    (hsn : segment.header.sn = e.rcv_nxt) : InOrder (e.refill segment) := by
  intro i s hi
  simp only [KcpEngine.refill, List.length_append, List.length_singleton] at hi ⊢
  rcases Nat.lt_or_ge i e.rcv_queue.length with hlt | hge
  · rw [List.getElem?_append_left hlt] at hi
    have hold := h i s hi
    rw [Nat.sub_add_comm hlt.le, BitVec.ofNat_add, ← add_assoc, hold]
    rfl
  · rw [List.getElem?_append_right hge] at hi
    obtain ⟨hzero, rfl⟩ : i - e.rcv_queue.length = 0 ∧ segment = s := by
      cases hd : i - e.rcv_queue.length with
      | zero => rw [hd] at hi; exact ⟨rfl, by simpa using hi⟩
      | succ d => rw [hd] at hi; simp at hi
    have hone : e.rcv_queue.length + 1 - i = 1 := by omega
    rw [hone, hsn]
    rfl

/-- What is left of it is in order. -/
theorem InOrder.drop {e : KcpEngine} (h : InOrder e) (k : Nat) :
    InOrder { e with rcv_queue := e.rcv_queue.drop k } := by
  intro i s hi
  dsimp only at hi ⊢
  rw [List.getElem?_drop] at hi
  have hold := h (k + i) s hi
  rwa [List.length_drop, Nat.sub_sub]

/-- A segment in the queue lies before `rcv_nxt` by its distance from the end. -/
theorem InOrder.offset {e : KcpEngine} (h : InOrder e) (hlen : e.rcv_queue.length < 2 ^ 32) {i : Nat}
    {segment : KcpSegment} (hi : e.rcv_queue[i]? = some segment) :
    Serial.offset segment.header.sn e.rcv_nxt = e.rcv_queue.length - i := by
  rw [← h i segment hi, Serial.offset_add (by rw [Serial.offset_self]; omega), Serial.offset_self, Nat.zero_add]

/-! ### Counting what was accepted -/

/-- `sn` is the number of a position before the `n`-th, at most half the number space
before the first. -/
def Behind (n : Nat) (sn : SeqNum) : Prop := ∃ p : Int, -2 ^ 31 < p ∧ p < n ∧ sn = BitVec.ofInt 32 p

/-- What is behind stays behind. -/
theorem Behind.mono {n m : Nat} {sn : SeqNum} (h : Behind n sn) (hle : n ≤ m) : Behind m sn := by
  obtain ⟨p, hlo, hhi, heq⟩ := h
  exact ⟨p, hlo, by omega, heq⟩

/-- A number more than half a turn ahead is behind. -/
theorem behind_of_offset {n : Nat} {sn : SeqNum} (h : 2 ^ 31 < Serial.offset (BitVec.ofNat 32 n) sn) :
    Behind n sn := by
  obtain ⟨d, hd⟩ : ∃ d, Serial.offset (BitVec.ofNat 32 n) sn = d := ⟨_, rfl⟩
  have hlt := Serial.offset_lt (BitVec.ofNat 32 n) sn
  rw [hd] at h hlt
  have hsn : sn = BitVec.ofNat 32 (n + d) := by
    apply Serial.offset_injective (BitVec.ofNat 32 n)
    rw [hd, BitVec.ofNat_add, Serial.offset_add (by rw [Serial.offset_self]; omega), Serial.offset_self, Nat.zero_add]
  refine ⟨(n : Int) + d - 2 ^ 32, by omega, by omega, ?_⟩
  apply BitVec.eq_of_toInt_eq
  have hwrap : ((n : Int) + d - 2 ^ 32) = ((n + d : Nat) : Int) - ((2 ^ 32 : Nat) : Int) := by push_cast; ring
  rw [BitVec.toInt_ofInt, hsn, BitVec.toInt_ofNat', hwrap, Int.sub_bmod_right]

/-- While fewer than half the numbers are used, a number from the lower half is behind
only if it is a smaller one. -/
theorem Behind.lt {n : Nat} {sn : SeqNum} (h : Behind n sn) (hn : n < 2 ^ 31) (hsn : sn.toNat ≤ 2 ^ 31) :
    sn.toNat < n := by
  obtain ⟨p, hlo, hhi, rfl⟩ := h
  rw [BitVec.toNat_ofInt] at hsn ⊢
  omega

/-- After `n` segments went on to the queue, the one numbered `sn` has arrived: it waits
in the buffer, or it is behind. -/
def Kept (n : Nat) (e : KcpEngine) (sn : SeqNum) : Prop := sn ∈ e.rcv_buf ∨ Behind n sn

/-- The receive window after `n` segments went on to the queue: `n` is the number
expected next, and what is waiting to be acknowledged has arrived. -/
structure RecvCount (n : Nat) (e : KcpEngine) : Prop where
  window : RecvWindow e
  order : InOrder e
  nxt : e.rcv_nxt = BitVec.ofNat 32 n
  acks : ∀ a ∈ e.ack_list, Kept n e a.1

/-- What was accepted stays accepted. -/
theorem Kept.refill {n : Nat} {e : KcpEngine} {sn : SeqNum} (h : Kept n e sn) (hnxt : e.rcv_nxt = BitVec.ofNat 32 n)
    (segment : KcpSegment) : Kept (n + 1) (e.refill segment) sn := by
  rcases h with hin | hbehind
  · by_cases heq : sn = e.rcv_nxt
    · right
      refine ⟨n, by omega, by omega, ?_⟩
      rw [heq, hnxt, BitVec.ofInt_natCast]
    · exact .inl (AList.mem_erase.mpr ⟨heq, hin⟩)
  · exact .inr (hbehind.mono (Nat.le_succ n))

/-- One more is accepted. -/
theorem RecvCount.refill {n : Nat} {e : KcpEngine} (h : RecvCount n e) {segment : KcpSegment}
    (hnext : e.rcv_buf.lookup e.rcv_nxt = some segment) (hroom : e.rcv_queue.length < e.wnd.rcv.toNat) :
    RecvCount (n + 1) (e.refill segment) where
  window := h.window.refill segment hroom
  order := h.order.refill (h.window.inside _ _ hnext).2
  nxt := by
    rw [BitVec.ofNat_add]
    exact congrArg (· + 1) h.nxt
  acks := fun a ha => (h.acks a ha).refill h.nxt segment

/-- A number whose ACK was queued during the current call: it is in the buffer, or it
stays behind `rcv_nxt` even once the queue has been filled up. -/
def AckOk (e : KcpEngine) (sn : SeqNum) : Prop :=
  sn ∈ e.rcv_buf ∨ 2 ^ 31 + e.wnd.rcv.toNat ≤ Serial.offset e.rcv_nxt sn + e.rcv_queue.length

/-- What may be acknowledged still may be. -/
theorem AckOk.refill {e : KcpEngine} {sn : SeqNum} (h : AckOk e sn) (hwnd : e.wnd.rcv.toNat ≤ 65535)
    (segment : KcpSegment) : AckOk (e.refill segment) sn := by
  unfold AckOk at *
  simp only [KcpEngine.refill, List.length_append, List.length_singleton]
  have hone : ((1 : SeqNum)).toNat = 1 := rfl
  by_cases heq : sn = e.rcv_nxt
  · right
    rw [heq, Serial.offset_shift_wrap (by simp), Serial.offset_self, hone]
    omega
  · rcases h with hin | hfar
    · exact .inl (AList.mem_erase.mpr ⟨heq, hin⟩)
    · right
      have hpos : Serial.offset e.rcv_nxt sn ≠ 0 := fun h0 => heq (Serial.offset_eq_zero_iff.mp h0)
      rw [Serial.offset_shift (by omega)]
      omega

/-- A number that has arrived: it is before `rcv_nxt`, or it waits in the buffer. -/
def Held (e : KcpEngine) (sn : SeqNum) : Prop := seq_before sn e.rcv_nxt = true ∨ sn ∈ e.rcv_buf

/-- What may be acknowledged is held, or has been. -/
theorem AckOk.held {e : KcpEngine} {sn : SeqNum} (h : AckOk e sn) (hwin : RecvWindow e) : Held e sn := by
  have hcap := hwin.capped
  rcases h with hin | hfar
  · exact .inr hin
  · exact .inl (seq_before_iff.mpr (by omega))

/-- How a call has left the receive side so far, starting from `before` with `n`
segments accepted: `m` are accepted now, the queue grew by the difference, what had
arrived is still there, and the ACKs queued since are for numbers that are held. -/
structure Received (before : KcpEngine) (n m : Nat) (e : KcpEngine) : Prop where
  count : RecvCount m e
  le : n ≤ m
  grown : e.rcv_queue.length + n = before.rcv_queue.length + m
  kept : ∀ sn, Kept n before sn → Kept m e sn
  fresh : ∃ acks, e.ack_list = before.ack_list ++ acks ∧ ∀ a ∈ acks, AckOk e a.1
  rcv : e.wnd.rcv = before.wnd.rcv
  conv : e.conv = before.conv

/-- A datagram accepts one segment more. -/
theorem Received.refill {before e : KcpEngine} {n m : Nat} (h : Received before n m e)
    (hwnd : before.wnd.rcv.toNat ≤ 65535) {segment : KcpSegment}
    (hnext : e.rcv_buf.lookup e.rcv_nxt = some segment) (hroom : e.rcv_queue.length < e.wnd.rcv.toNat) :
    Received before n (m + 1) (e.refill segment) where
  count := h.count.refill hnext hroom
  le := h.le.trans (Nat.le_succ m)
  grown := by
    have := h.grown
    simp only [KcpEngine.refill, List.length_append, List.length_singleton]
    omega
  kept := fun sn hsn => (h.kept sn hsn).refill h.count.nxt segment
  fresh := by
    obtain ⟨acks, hacks, hok⟩ := h.fresh
    exact ⟨acks, hacks, fun a ha => (hok a ha).refill (by rw [h.rcv]; exact hwnd) segment⟩
  rcv := h.rcv
  conv := h.conv

theorem Received.move_to_recv_queue {before e : KcpEngine} {n m : Nat} (h : Received before n m e)
    (hwnd : before.wnd.rcv.toNat ≤ 65535) : ∃ m', Received before n m' e.move_to_recv_queue :=
  move_to_recv_queue_rule (P := fun e => ∃ m, Received before n m e)
    (fun _ _ hrec hnext hroom => ⟨_, hrec.choose_spec.refill hwnd hnext hroom⟩) ⟨m, h⟩

theorem Received.refl {e : KcpEngine} {n : Nat} (h : RecvCount n e) : Received e n n e :=
  ⟨h, le_rfl, rfl, fun _ hsn => hsn, ⟨[], (List.append_nil _).symm, by simp⟩, rfl, rfl⟩

/-- What `Received` says depends on the receive side only. -/
theorem Received.congr {before e e' : KcpEngine} {n m : Nat} (h : Received before n m e)
    (hqueue : e'.rcv_queue = e.rcv_queue) (hbuf : e'.rcv_buf = e.rcv_buf) (hnxt : e'.rcv_nxt = e.rcv_nxt)
    (hacks : e'.ack_list = e.ack_list) (hrcv : e'.wnd.rcv = e.wnd.rcv) (hconv : e'.conv = e.conv) :
    Received before n m e' where
  count := by
    refine ⟨⟨?_, ?_⟩, ?_, ?_, ?_⟩
    · rw [hqueue, hrcv]; exact h.count.window.capped
    · rw [hbuf, hnxt, hrcv]; exact h.count.window.inside
    · unfold InOrder; rw [hqueue, hnxt]; exact h.count.order
    · rw [hnxt]; exact h.count.nxt
    · unfold Kept; rw [hacks, hbuf]; exact h.count.acks
  le := h.le
  grown := by rw [hqueue]; exact h.grown
  kept := by unfold Kept; rw [hbuf]; exact h.kept
  fresh := by
    unfold AckOk
    rw [hacks, hbuf, hnxt, hqueue, hrcv]
    exact h.fresh
  rcv := hrcv.trans h.rcv
  conv := hconv.trans h.conv

/-- What it acknowledges is held. -/
theorem Received.ack_push {before e : KcpEngine} {n m : Nat} (h : Received before n m e) (hpos : 0 < e.wnd.rcv.toNat)
    (sn : SeqNum) (ts : Timestamp)
    (hok : sn ∈ e.rcv_buf ∨ 2 ^ 31 + e.wnd.rcv.toNat ≤ Serial.offset e.rcv_nxt sn) :
    Received before n m (e.ack_push sn ts) where
  count := by
    refine ⟨⟨h.count.window.capped, h.count.window.inside⟩, h.count.order, h.count.nxt, ?_⟩
    intro a ha
    rcases List.mem_append.mp ha with ha | ha
    · exact h.count.acks a ha
    · rw [List.mem_singleton.mp ha]
      refine hok.imp_right fun hfar => behind_of_offset ?_
      rw [← h.count.nxt]
      dsimp only
      omega
  le := h.le
  grown := h.grown
  kept := h.kept
  fresh := by
    obtain ⟨acks, hacks, hall⟩ := h.fresh
    refine ⟨acks ++ [(sn, ts)], ?_, ?_⟩
    · change e.ack_list ++ [(sn, ts)] = _
      rw [hacks, List.append_assoc]
    · intro a ha
      rcases List.mem_append.mp ha with ha | ha
      · exact hall a ha
      · rw [List.mem_singleton.mp ha]
        exact hok.imp_right (Nat.le_add_right_of_le ·)
  rcv := h.rcv
  conv := h.conv

theorem mem_insert_or_kept (buf : RecvBuf) (k : SeqNum) (segment : KcpSegment) :
    k ∈ (if k ∈ buf then buf else buf.insert k segment) ∧
      ∀ k', k' ∈ buf → k' ∈ (if k ∈ buf then buf else buf.insert k segment) := by
  split
  · exact ⟨‹_›, fun _ h => h⟩
  · exact ⟨(AList.mem_insert buf).mpr (.inl rfl), fun _ h => (AList.mem_insert buf).mpr (.inr h)⟩

/-- A segment in the window is kept. -/
theorem Received.insert {before e : KcpEngine} {n m : Nat} (h : Received before n m e) {segment : KcpSegment}
    (hin : Serial.offset e.rcv_nxt segment.header.sn < e.wnd.rcv.toNat) :
    Received before n m { e with
      rcv_buf := if segment.header.sn ∈ e.rcv_buf then e.rcv_buf
        else e.rcv_buf.insert segment.header.sn segment } where
  count := by
    refine ⟨h.count.window.insert hin, h.count.order, h.count.nxt, ?_⟩
    intro a ha
    exact (h.count.acks a ha).imp_left ((mem_insert_or_kept e.rcv_buf _ segment).2 a.1)
  le := h.le
  grown := h.grown
  kept := fun sn hsn => (h.kept sn hsn).imp_left ((mem_insert_or_kept e.rcv_buf _ segment).2 sn)
  fresh := by
    obtain ⟨acks, hacks, hall⟩ := h.fresh
    exact ⟨acks, hacks, fun a ha => (hall a ha).imp_left ((mem_insert_or_kept e.rcv_buf _ segment).2 a.1)⟩
  rcv := h.rcv
  conv := h.conv

/-! ### Preservation -/

/-- The PUSH arm, for a segment the window tests let through. -/
theorem input_push_new {e : KcpEngine} {segment : KcpSegment} (hwnd : e.wnd.rcv.toNat ≤ 65535)
    (hin : Serial.offset e.rcv_nxt segment.header.sn < e.wnd.rcv.toNat) :
    e.input_push segment = (KcpEngine.ack_push
      { e with
        rcv_buf := if segment.header.sn ∈ e.rcv_buf then e.rcv_buf
          else e.rcv_buf.insert segment.header.sn segment }
      segment.header.sn segment.header.ts).move_to_recv_queue := by
  have hwin := (seq_before_window_iff segment.header.sn e.rcv_nxt hwnd).mpr (.inl hin)
  have hnew : seq_before segment.header.sn e.rcv_nxt = false := by
    rw [← Bool.not_eq_true, seq_before_iff]
    omega
  simp only [input_push, hwin, if_true, parse_data, KcpEngine.ack_push, hnew, Bool.not_false, Bool.not_true,
    Bool.or_self, Bool.false_eq_true, if_false]
  rfl

/-- The PUSH arm, for any other segment: at most an ACK for an old number. -/
theorem input_push_old {e : KcpEngine} {segment : KcpSegment} (hwnd : e.wnd.rcv.toNat ≤ 65535)
    (hout : e.wnd.rcv.toNat ≤ Serial.offset e.rcv_nxt segment.header.sn) :
    e.input_push segment =
      if 2 ^ 31 + e.wnd.rcv.toNat ≤ Serial.offset e.rcv_nxt segment.header.sn then
        e.ack_push segment.header.sn segment.header.ts
      else e := by
  have hwin := seq_before_window_iff segment.header.sn e.rcv_nxt hwnd
  unfold input_push
  by_cases hfar : 2 ^ 31 + e.wnd.rcv.toNat ≤ Serial.offset e.rcv_nxt segment.header.sn
  · have hold : seq_before segment.header.sn e.rcv_nxt = true := seq_before_iff.mpr (by omega)
    rw [if_pos (hwin.mpr (.inr hfar)), if_pos hfar]
    simp [KcpEngine.ack_push, hold]
  · rw [if_neg (fun h => by rcases hwin.mp h with h | h <;> omega), if_neg hfar]

/-- A PUSH keeps what it acknowledges. -/
theorem Received.input_push {before e : KcpEngine} {n m : Nat} (h : Received before n m e)
    (hwnd : before.wnd.rcv.toNat ≤ 65535) (hpos : 0 < before.wnd.rcv.toNat) (segment : KcpSegment) :
    ∃ m', Received before n m' (e.input_push segment) := by
  have hrcv := congrArg BitVec.toNat h.rcv
  by_cases hin : Serial.offset e.rcv_nxt segment.header.sn < e.wnd.rcv.toNat
  · rw [input_push_new (by omega) hin]
    apply Received.move_to_recv_queue
    · apply (h.insert hin).ack_push
      · change 0 < e.wnd.rcv.toNat
        omega
      · exact .inl (mem_insert_or_kept e.rcv_buf _ segment).1
    · exact hwnd
  · rw [input_push_old (by omega) (by omega)]
    split
    · exact ⟨m, h.ack_push (by omega) _ _ (.inr ‹_›)⟩
    · exact ⟨m, h⟩

/-- A PUSH leaves nothing that could move on. -/
theorem settled_input_push {e : KcpEngine} (h : RecvWindow e) (hset : Settled e) (hwnd : e.wnd.rcv.toNat ≤ 65535)
    (segment : KcpSegment) : Settled (e.input_push segment) := by
  by_cases hin : Serial.offset e.rcv_nxt segment.header.sn < e.wnd.rcv.toNat
  · rw [input_push_new hwnd hin]
    have hwin := h.insert hin
    apply settled_move_to_recv_queue
    exact ⟨hwin.capped, hwin.inside⟩
  · rw [input_push_old hwnd (by omega)]
    split
    · exact hset
    · exact hset

/-- `input` accepts some segments, each one more in the queue, and acknowledges only
what it holds when it returns. -/
theorem received_input {e : KcpEngine} {n : Nat} (h : RecvCount n e) (hwnd : e.wnd.rcv.toNat ≤ 65535)
    (hpos : 0 < e.wnd.rcv.toNat) (current : Timestamp) (data : Bytes) :
    (∃ m, Received e n m (e.input current data).1) ∧ (Settled e → Settled (e.input current data).1) := by
  by_cases hshort : data.length < KcpHeader.SIZE
  · rw [input_short hshort]
    exact ⟨⟨n, (Received.refl h).congr rfl rfl rfl rfl rfl rfl⟩, fun hset => hset⟩
  · rw [input_eq hshort]
    have hloop : (∃ m, Received e n m (e.input_loop current data).1) ∧
        (Settled e → Settled (e.input_loop current data).1) := by
      apply input_loop_rule (P := fun e' => (∃ m, Received e n m e') ∧ (Settled e → Settled e'))
      · intro segment _ acc hacc
        apply input_segment_rule (P := fun e' => (∃ m, Received e n m e') ∧ (Settled e → Settled e'))
        · rintro e' rmt ⟨⟨m, hrec⟩, hset⟩
          exact ⟨⟨m, hrec.congr rfl rfl rfl rfl rfl rfl⟩, hset⟩
        · rintro e' ⟨⟨m, hrec⟩, hset⟩
          exact ⟨⟨m, hrec.congr rfl rfl rfl rfl rfl rfl⟩, hset⟩
        · rintro _ e' ⟨⟨m, hrec⟩, hset⟩
          obtain ⟨avg, var, rto, stats, buf, heq, _⟩ := input_ack_shape e' current segment
          rw [heq]
          exact ⟨⟨m, hrec.congr rfl rfl rfl rfl rfl rfl⟩, hset⟩
        · rintro _ e' ⟨⟨m, hrec⟩, hset⟩
          refine ⟨hrec.input_push hwnd hpos segment, fun hs => ?_⟩
          exact settled_input_push hrec.count.window (hset hs) (by rw [hrec.rcv]; exact hwnd) segment
        · rintro e' ⟨⟨m, hrec⟩, hset⟩
          exact ⟨⟨m, hrec.congr rfl rfl rfl rfl rfl rfl⟩, hset⟩
        · exact hacc
      · exact ⟨⟨n, (Received.refl h).congr rfl rfl rfl rfl rfl rfl⟩, fun hset => hset⟩
    obtain ⟨⟨m, hrec⟩, hset⟩ := hloop
    obtain ⟨buf, cwnd, incr, received, hfinish, _⟩ := input_finish_shape
      (e.input_loop current data).1 e.snd_una (e.input_loop current data).2
    rw [hfinish]
    exact ⟨⟨m, hrec.congr rfl rfl rfl rfl rfl rfl⟩, hset⟩

/-- A call took `k` segments off the queue, and `m` segments are accepted after it, where
`n` were before. What had arrived is still there. -/
structure Moved (before : KcpEngine) (n k m : Nat) (e : KcpEngine) : Prop where
  count : RecvCount m e
  le : n ≤ m
  near : m ≤ n + 65535
  taken : k ≤ before.rcv_queue.length
  grown : e.rcv_queue.length + n + k = before.rcv_queue.length + m
  kept : ∀ sn, Kept n before sn → Kept m e sn

/-- A call that leaves the receive side alone, but for ACKs it may have sent. -/
theorem Moved.still {before e : KcpEngine} {n : Nat} (h : RecvCount n e) (hqueue : e.rcv_queue = before.rcv_queue)
    (hbuf : e.rcv_buf = before.rcv_buf) : Moved before n 0 n e where
  count := h
  le := le_rfl
  near := by omega
  taken := Nat.zero_le _
  grown := by rw [hqueue, Nat.add_zero]
  kept := by unfold Kept; rw [hbuf]; exact fun _ h => h

/-- A refill after `k` segments were taken. -/
theorem Received.moved {before rest e : KcpEngine} {n k m : Nat} (h : Received rest n m e)
    (hwnd : rest.wnd.rcv.toNat ≤ 65535) (hqueue : rest.rcv_queue.length + k = before.rcv_queue.length)
    (hbuf : rest.rcv_buf = before.rcv_buf) : Moved before n k m e where
  count := h.count
  le := h.le
  near := by
    have hgrown := h.grown
    have hcap := h.count.window.capped
    rw [h.rcv] at hcap
    omega
  taken := by omega
  grown := by
    have := h.grown
    omega
  kept := by
    intro sn hsn
    apply h.kept
    unfold Kept
    rw [hbuf]
    exact hsn

/-- `recv` once `k` segments are popped: the queue is refilled from the reorder buffer. -/
theorem moved_popped {e : KcpEngine} {n k : Nat} (h : RecvCount n e) (hwnd : e.wnd.rcv.toNat ≤ 65535)
    (hk : k ≤ e.rcv_queue.length) : ∃ m, Moved e n k m (tell_window e (e.popped k).move_to_recv_queue) := by
  have hdrop := h.window.drop k
  have hpop : RecvCount n (e.popped k) := ⟨⟨hdrop.capped, h.window.inside⟩, h.order.drop k, h.nxt, h.acks⟩
  obtain ⟨m, hrec⟩ := (Received.refl hpop).move_to_recv_queue hwnd
  obtain ⟨flags, hflags⟩ := tell_window_shape e (e.popped k).move_to_recv_queue
  have htold : Received (e.popped k) n m (tell_window e (e.popped k).move_to_recv_queue) := by
    rw [hflags]
    exact hrec.congr rfl rfl rfl rfl rfl rfl
  refine ⟨m, htold.moved hwnd ?_ rfl⟩
  change (e.rcv_queue.drop k).length + k = e.rcv_queue.length
  rw [List.length_drop]
  omega

/-- `recv` takes segments off the queue, whose bytes it counts, and refills it from the reorder buffer. -/
theorem moved_recv {e : KcpEngine} {n : Nat} (h : RecvCount n e) (hwnd : e.wnd.rcv.toNat ≤ 65535) :
    ∃ k m, Moved e n k m e.recv.1 ∧
      e.recv.1.stats.bytes_received = e.stats.bytes_received + (payload (e.rcv_queue.take k)).length := by
  obtain ⟨_, heq⟩ | ⟨_, _, k, _, heq⟩ := e.recv_cases
  · rw [heq]
    exact ⟨0, n, .still h rfl rfl, rfl⟩
  · rw [heq]
    split
    · next hnil =>
      have hdrop := h.window.drop k
      refine ⟨min k e.rcv_queue.length, n, ?_, ?_⟩
      · exact {
          count := ⟨hdrop, h.order.drop k, h.nxt, h.acks⟩
          le := le_rfl
          near := by omega
          taken := Nat.min_le_right _ _
          grown := by
            simp only [List.length_drop]
            omega
          kept := fun _ hsn => hsn }
      · rw [List.take_eq_take_min] at hnil
        rw [hnil]
        rfl
    · have hcounted : ∀ j, (tell_window e (e.popped j).move_to_recv_queue).stats.bytes_received =
          e.stats.bytes_received + (payload (e.rcv_queue.take j)).length := by
        intro j
        obtain ⟨flags, hflags⟩ := tell_window_shape e (e.popped j).move_to_recv_queue
        obtain ⟨queue, buf, nxt, hmoved⟩ := (e.popped j).move_to_recv_queue_shape
        rw [hflags, hmoved]
        rfl
      by_cases hk : k ≤ e.rcv_queue.length
      · obtain ⟨m, hmoved⟩ := moved_popped h hwnd hk
        exact ⟨k, m, hmoved, hcounted k⟩
      · obtain ⟨m, hmoved⟩ := moved_popped h hwnd le_rfl
        have hpop : e.popped k = e.popped e.rcv_queue.length := by
          unfold popped
          rw [List.drop_of_length_le (by omega), List.take_of_length_le (by omega), List.drop_length, List.take_length]
        rw [hpop]
        exact ⟨_, m, hmoved, hcounted _⟩

end KcpEngine

end kcp_core.engine
