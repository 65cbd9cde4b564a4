import Kcp.Engine.RecvInvariant

open kcp_core.protocol kcp_core.config kcp_core.error

namespace kcp_core.engine

namespace KcpEngine

/-- A whole message waits at the head of the queue. -/
def CompleteHead (queue : List KcpSegment) : Prop :=
  ∃ segment rest, queue = segment :: rest ∧
    (segment.header.frg = 0 ∨
      segment.header.frg.toNat + 1 ≤ queue.length ∧ ∃ last ∈ queue, last.header.frg = 0)

/-- A complete message is ready to be received. -/
theorem CompleteHead.ready {queue : List KcpSegment} (h : CompleteHead queue) : HeadReady queue := by
  obtain ⟨segment, rest, hqueue, hlast | ⟨hlong, _⟩⟩ := h
  · exact ⟨segment, rest, hqueue, .inl hlast⟩
  · exact ⟨segment, rest, hqueue, .inr hlong⟩

/-- A complete message has a fragment. -/
theorem CompleteHead.head_len_pos {queue : List KcpSegment} (h : CompleteHead queue) : 0 < head_len queue := by
  apply KcpEngine.head_len_pos
  obtain ⟨segment, rest, hqueue, _⟩ := h
  rw [hqueue]
  exact List.cons_ne_nil _ _

/-- A call takes `k` segments off the front of the queue: what is left is the rest,
followed by what came out of the reorder buffer. -/
def Takes (before after : KcpEngine) (k : Nat) : Prop :=
  ∃ moved, after.rcv_queue = before.rcv_queue.drop k ++ moved ∧
    moved.length + after.rcv_buf.entries.length = before.rcv_buf.entries.length

/-- `recv` removes the head message from the queue. -/
def HeadRemoved (e : KcpEngine) : Prop := Takes e e.recv.1 (head_len e.rcv_queue)

/-- A call takes one number of segments off the queue, not two. -/
theorem Takes.unique {before after : KcpEngine} {j k : Nat} (hj : Takes before after j) (hk : Takes before after k)
    (hjlen : j ≤ before.rcv_queue.length) (hklen : k ≤ before.rcv_queue.length) : j = k := by
  obtain ⟨first, hqueue, hfirst⟩ := hj
  obtain ⟨second, hagain, hsecond⟩ := hk
  have hlen := congrArg List.length (hqueue.symm.trans hagain)
  simp only [List.length_append, List.length_drop] at hlen
  omega

/-- To take nothing. -/
theorem takes_none (e : KcpEngine) : Takes e e 0 := ⟨[], by simp, by simp⟩

/-- What the refill loop appends to the queue it takes out of the reorder buffer. -/
theorem takes_move_to_recv_queue (self : KcpEngine) : Takes self self.move_to_recv_queue 0 := by
  apply move_to_recv_queue_rule (P := fun e => Takes self e 0)
  · rintro e segment ⟨moved, hqueue, hcount⟩ hnext _
    have herase := length_erase_lt hnext
    refine ⟨moved ++ [segment], ?_, ?_⟩
    · simp only [refill, hqueue, List.append_assoc]
    · simp only [refill, List.length_append, List.length_singleton]
      omega
  · exact takes_none self

/-- `recv` takes the segments its loop popped. -/
theorem takes_recv {e : KcpEngine} {k : Nat} {data : Bytes}
    (hready : HeadReady e.rcv_queue) (hpos : 0 < Word.as_i32 (message_length e.rcv_queue))
    (hloop : recv_loop (Word.as_i32 (message_length e.rcv_queue)).toNat e.rcv_queue [] =
      (data, e.rcv_queue.drop k)) : Takes e e.recv.1 k := by
  obtain ⟨hnone | hnone, _⟩ | ⟨_, _, j, hagain, heq⟩ := e.recv_cases
  · exact absurd hready hnone
  · omega
  · rw [hloop, Prod.mk.injEq] at hagain
    obtain ⟨_, hdrop⟩ := hagain
    obtain ⟨moved, hqueue, hcount⟩ := takes_move_to_recv_queue (e.popped j)
    have hfront : (e.popped j).rcv_queue.drop 0 = e.rcv_queue.drop k := hdrop.symm
    rw [heq]
    split
    · exact ⟨[], by simp [hdrop], by simp⟩
    · obtain ⟨flags, hflags⟩ := tell_window_shape e (e.popped j).move_to_recv_queue
      rw [hflags]
      exact ⟨moved, hqueue.trans (by rw [hfront]), hcount⟩

/-- With a complete message at the head of the queue, `recv` removes that message exactly
when its total length is positive and fits the `i32` that `peek_size` reports. -/
theorem head_removed_iff {e : KcpEngine} (h : CompleteHead e.rcv_queue) :
    HeadRemoved e ↔ 0 < message_length e.rcv_queue ∧ message_length e.rcv_queue < 2 ^ 31 := by
  have hlen := head_len_le e.rcv_queue
  have hhead := h.head_len_pos
  by_cases hpos : 0 < Word.as_i32 (message_length e.rcv_queue)
  · by_cases hfits : message_length e.rcv_queue < 2 ^ 31
    · -- the loop takes the whole message
      have hsize := Word.as_i32_eq_of_lt hfits
      have hloop := recv_loop_fits (Word.as_i32 (message_length e.rcv_queue)).toNat e.rcv_queue []
        (by rw [hsize]; simp)
      exact ⟨fun _ => ⟨by omega, hfits⟩, fun _ => takes_recv h.ready hpos hloop⟩
    · -- the reported size is too small, and the loop stops inside the message
      have hsize := Word.as_i32_lt_of_le (n := message_length e.rcv_queue) (by omega)
      obtain ⟨k, hloop, hk⟩ := recv_loop_short (Word.as_i32 (message_length e.rcv_queue)).toNat e.rcv_queue []
        (Nat.zero_le _) (by simp only [List.length_nil]; omega)
      have htakes := takes_recv h.ready hpos hloop
      constructor
      · intro hremoved
        have := hremoved.unique htakes hlen (by omega)
        omega
      · rintro ⟨_, hshort⟩
        exact absurd hshort hfits
  · -- `recv` returns before it touches the queue
    obtain ⟨_, heq⟩ | ⟨_, hsome, _⟩ := e.recv_cases
    · have htakes : Takes e e.recv.1 0 := by
        rw [heq]
        exact takes_none e
      constructor
      · intro hremoved
        have := hremoved.unique htakes hlen (Nat.zero_le _)
        omega
      · rintro ⟨hsome, hshort⟩
        have hsize := Word.as_i32_eq_of_lt hshort
        omega
    · exact absurd hsome hpos

end KcpEngine

open KcpEngine

/-- The datagram of a fragment of one byte, with this many after it in its message. -/
def fragment_push (sn : SeqNum) (frg : U8) : Bytes :=
  let segment := KcpSegment.push 7 sn [1] 0
  { segment with header := { segment.header with frg } }.bytes

/-- A message of three fragments arrives, and another of two. -/
def two_messages : List Op :=
  [.input 0 (fragment_push 0 2), .input 0 (fragment_push 1 1), .input 0 (fragment_push 2 0),
    .input 0 (fragment_push 3 1), .input 0 (fragment_push 4 0)]

/-- The first of them is removed. -/
theorem head_removed_two_messages : HeadRemoved (plain.reached two_messages) :=
  (head_removed_iff ⟨_, _, rfl, .inr (by decide)⟩).mpr (by decide)

/-- The datagram of one PUSH without payload, a complete message of its own. -/
def empty_push (sn : SeqNum) : Bytes := (KcpSegment.push 7 sn [] 0).bytes

/-- An empty message arrives and blocks the one behind it: `recv` returns nothing and
leaves both in the queue. -/
theorem empty_message_not_removed :
    CompleteHead (plain.reached [.input 0 (empty_push 0), .input 0 (one_push 1)]).rcv_queue ∧
      (plain.reached [.input 0 (empty_push 0), .input 0 (one_push 1)]).recv.2 = .ok none ∧
      ¬ HeadRemoved (plain.reached [.input 0 (empty_push 0), .input 0 (one_push 1)]) := by
  refine ⟨⟨_, _, rfl, .inl rfl⟩, by decide, ?_⟩
  rintro ⟨moved, hqueue, hcount⟩
  have hlen := congrArg List.length hqueue
  have hmoved : moved.length = 0 := by
    have hbuf : (plain.reached [.input 0 (empty_push 0), .input 0 (one_push 1)]).rcv_buf.entries.length = 0 := by
      decide
    omega
  rw [List.length_append, hmoved] at hlen
  revert hlen
  decide

end kcp_core.engine
