import Kcp.Engine.Configured

open kcp_core.protocol kcp_core.config kcp_core.error

namespace kcp_core.engine.KcpEngine

/-- The payloads of some segments, put together. -/
def payload (segments : List KcpSegment) : Bytes := segments.flatMap KcpSegment.data

@[simp] theorem payload_nil : payload [] = [] := rfl

@[simp] theorem payload_cons (segment : KcpSegment) (rest : List KcpSegment) :
    payload (segment :: rest) = segment.data ++ payload rest := rfl

@[simp] theorem payload_append (first second : List KcpSegment) :
    payload (first ++ second) = payload first ++ payload second := List.flatMap_append

/-- How many segments the message at the head of the queue takes, as far as it is there. -/
def head_len : List KcpSegment → Nat
  | [] => 0
  | segment :: rest => if segment.header.frg = 0 then 1 else head_len rest + 1

/-- The first message is a part of the queue. -/
theorem head_len_le (queue : List KcpSegment) : head_len queue ≤ queue.length := by
  induction queue with
  | nil => exact le_rfl
  | cons segment rest ih =>
    unfold head_len
    split <;> simp only [List.length_cons] <;> omega

theorem head_len_pos {queue : List KcpSegment} (h : queue ≠ []) : 0 < head_len queue := by
  cases queue with
  | nil => exact absurd rfl h
  | cons segment rest => unfold head_len; split <;> omega

/-- The length of the first message is that of its data. -/
theorem length_payload_head (queue : List KcpSegment) :
    (payload (queue.take (head_len queue))).length = message_length queue := by
  induction queue with
  | nil => rfl
  | cons segment rest ih =>
    unfold head_len message_length
    split
    · simp
    · simp [ih]

/-- `peek_size` finds enough segments: the first is the last of its message, or the
queue is long enough for the number it carries. -/
def HeadReady (queue : List KcpSegment) : Prop :=
  ∃ segment rest, queue = segment :: rest ∧
    (segment.header.frg = 0 ∨ segment.header.frg.toNat + 1 ≤ queue.length)

/-- The size of a complete message, as the code returns it. -/
theorem peek_size_of_ready {self : KcpEngine} (h : HeadReady self.rcv_queue) :
    self.peek_size = Word.as_i32 (message_length self.rcv_queue) := by
  obtain ⟨segment, rest, hqueue, hready⟩ := h
  unfold peek_size
  rw [hqueue] at hready ⊢
  dsimp only
  by_cases hlast : segment.header.frg = 0
  · rw [if_pos hlast, message_length, if_pos hlast]
  · rw [if_neg hlast, if_neg (by rcases hready with h | h; exacts [absurd h hlast, by omega])]

/-- Without one there is no size. -/
theorem peek_size_of_not_ready {self : KcpEngine} (h : ¬ HeadReady self.rcv_queue) :
    self.peek_size = -1 := by
  unfold peek_size
  cases hqueue : self.rcv_queue with
  | nil => rfl
  | cons segment rest =>
    dsimp only
    rw [hqueue] at h
    have hfrg : ¬ segment.header.frg = 0 := fun hlast => h ⟨segment, rest, rfl, .inl hlast⟩
    have hlen : (segment :: rest).length < segment.header.frg.toNat + 1 := by
      by_contra hlong
      exact h ⟨segment, rest, rfl, .inr (by omega)⟩
    rw [if_neg hfrg, if_pos hlen]

/-- The pop loop takes segments off the front and puts their payloads together. -/
theorem recv_loop_take (peek_size : Nat) (queue : List KcpSegment) (data : Bytes) :
    ∃ k, recv_loop peek_size queue data = (data ++ payload (queue.take k), queue.drop k) ∧
      k ≤ head_len queue := by
  induction queue generalizing data with
  | nil => exact ⟨0, by simp [recv_loop], Nat.zero_le _⟩
  | cons segment rest ih =>
    unfold recv_loop head_len
    split
    · exact ⟨0, by simp, Nat.zero_le _⟩
    · dsimp only
      split
      · exact ⟨1, by simp, le_rfl⟩
      · obtain ⟨k, heq, hle⟩ := ih (data ++ segment.data)
        exact ⟨k + 1, by simp [heq], by omega⟩

/-- When the whole head message fits, the loop takes exactly that message. -/
theorem recv_loop_fits (peek_size : Nat) (queue : List KcpSegment) (data : Bytes)
    (h : data.length + message_length queue ≤ peek_size) :
    recv_loop peek_size queue data =
      (data ++ payload (queue.take (head_len queue)), queue.drop (head_len queue)) := by
  induction queue generalizing data with
  | nil => simp [recv_loop]
  | cons segment rest ih =>
    unfold message_length at h
    unfold recv_loop head_len
    by_cases hlast : segment.header.frg = 0
    · simp only [if_pos hlast] at h ⊢
      rw [if_neg (by omega)]
      simp
    · simp only [if_neg hlast] at h ⊢
      rw [if_neg (by omega), ih _ (by simp; omega)]
      simp

/-- When the head message does not fit, the loop stops inside it. -/
theorem recv_loop_short (peek_size : Nat) (queue : List KcpSegment) (data : Bytes)
    (hdata : data.length ≤ peek_size) (h : peek_size < data.length + message_length queue) :
    ∃ k, recv_loop peek_size queue data = (data ++ payload (queue.take k), queue.drop k) ∧
      k < head_len queue := by
  induction queue generalizing data with
  | nil =>
    simp only [message_length] at h
    omega
  | cons segment rest ih =>
    unfold message_length at h
    unfold recv_loop head_len
    by_cases hbig : peek_size < data.length + segment.data.length
    · rw [if_pos hbig]
      exact ⟨0, by simp, by split <;> omega⟩
    · rw [if_neg hbig]
      by_cases hlast : segment.header.frg = 0
      · rw [if_pos hlast] at h
        omega
      · simp only [if_neg hlast] at h ⊢
        obtain ⟨k, heq, hlt⟩ := ih (data ++ segment.data) (by simp; omega) (by simp; omega)
        exact ⟨k + 1, by simp [heq], by omega⟩

/-- The engine after a `recv` that popped `k` segments, before the window update flag. -/
def popped (self : KcpEngine) (k : Nat) : KcpEngine :=
  { self with
    rcv_queue := self.rcv_queue.drop k
    stats := { self.stats with
      bytes_received := self.stats.bytes_received + (payload (self.rcv_queue.take k)).length } }

/-- The flag `recv` raises when it makes room in a full window. -/
def tell_window (before after : KcpEngine) : KcpEngine :=
  if before.wnd.rcv.toNat ≤ before.rcv_queue.length ∧ after.rcv_queue.length < after.wnd.rcv.toNat then
    { after with probe := { after.probe with flags := after.probe.flags ||| constants.IKCP_ASK_TELL } }
  else after

/-- A window that opens is told of, by a flag. -/
theorem tell_window_shape (before after : KcpEngine) : ∃ flags,
    tell_window before after = { after with probe := { after.probe with flags } } := by
  unfold tell_window
  split <;> exact ⟨_, rfl⟩

/-- `recv` with a complete message at the head whose length, as an `i32`, is positive. -/
theorem recv_of_loop {self : KcpEngine} {k : Nat} (hready : HeadReady self.rcv_queue)
    (hpos : 0 < Word.as_i32 (message_length self.rcv_queue))
    (hloop : recv_loop (Word.as_i32 (message_length self.rcv_queue)).toNat self.rcv_queue [] =
      (payload (self.rcv_queue.take k), self.rcv_queue.drop k)) :
    self.recv =
      if payload (self.rcv_queue.take k) = [] then ({ self with rcv_queue := self.rcv_queue.drop k }, .ok none)
      else (tell_window self (self.popped k).move_to_recv_queue, .ok (some (payload (self.rcv_queue.take k)))) := by
  have hpeek := peek_size_of_ready hready
  have hne : self.rcv_queue.isEmpty = false := by
    obtain ⟨segment, rest, hqueue, _⟩ := hready
    rw [hqueue]
    rfl
  have hsome : ¬ Word.as_i32 (message_length self.rcv_queue) ≤ 0 := by omega
  unfold recv
  simp only [hne, Bool.false_eq_true, if_false, hpeek, hsome, hloop, List.isEmpty_iff]
  by_cases hdata : payload (self.rcv_queue.take k) = []
  · rw [if_pos hdata, if_pos hdata]
  · rw [if_neg hdata, if_neg hdata]
    unfold tell_window
    simp only [decide_eq_true_eq]
    rfl

/-- Without a complete message nothing is received. -/
theorem recv_of_none {self : KcpEngine}
    (h : ¬ HeadReady self.rcv_queue ∨ Word.as_i32 (message_length self.rcv_queue) ≤ 0) :
    self.recv = (self, .ok none) := by
  have hsize : self.peek_size ≤ 0 := by
    by_cases hready : HeadReady self.rcv_queue
    · rw [peek_size_of_ready hready]
      exact h.resolve_left (not_not.mpr hready)
    · rw [peek_size_of_not_ready hready]
      decide
  unfold recv
  simp only [hsize, if_true]
  split <;> rfl

/-- `recv`, by what `peek_size` finds. It returns nothing and changes nothing unless
the head message is there and its length, as an `i32`, is positive. Otherwise it
pops some segments of that message, and refills the queue if that gave any data. -/
theorem recv_cases (self : KcpEngine) :
    ((¬ HeadReady self.rcv_queue ∨ Word.as_i32 (message_length self.rcv_queue) ≤ 0) ∧
        self.recv = (self, .ok none)) ∨
      HeadReady self.rcv_queue ∧ 0 < Word.as_i32 (message_length self.rcv_queue) ∧
        ∃ k, recv_loop (Word.as_i32 (message_length self.rcv_queue)).toNat self.rcv_queue [] =
            (payload (self.rcv_queue.take k), self.rcv_queue.drop k) ∧
          self.recv =
            if payload (self.rcv_queue.take k) = [] then
              ({ self with rcv_queue := self.rcv_queue.drop k }, .ok none)
            else (tell_window self (self.popped k).move_to_recv_queue,
              .ok (some (payload (self.rcv_queue.take k)))) := by
  by_cases hready : HeadReady self.rcv_queue
  · by_cases hpos : Word.as_i32 (message_length self.rcv_queue) ≤ 0
    · exact .inl ⟨.inr hpos, recv_of_none (.inr hpos)⟩
    · obtain ⟨k, hloop, _⟩ := recv_loop_take (Word.as_i32 (message_length self.rcv_queue)).toNat self.rcv_queue []
      rw [List.nil_append] at hloop
      exact .inr ⟨hready, by omega, k, hloop, recv_of_loop hready (by omega) hloop⟩
  · exact .inl ⟨.inl hready, recv_of_none (.inl hready)⟩

/-- The common case of `recv`: a complete message of a proper length at the head. -/
theorem recv_of_ready {self : KcpEngine} (hready : HeadReady self.rcv_queue)
    (hpos : 0 < message_length self.rcv_queue) (hlen : message_length self.rcv_queue < 2 ^ 31) :
    self.recv = (tell_window self (self.popped (head_len self.rcv_queue)).move_to_recv_queue,
      .ok (some (payload (self.rcv_queue.take (head_len self.rcv_queue))))) := by
  have hsize := Word.as_i32_eq_of_lt hlen
  obtain ⟨hnone | hnone, _⟩ | ⟨_, _, k, hloop, hrecv⟩ := self.recv_cases
  · exact absurd hready hnone
  · omega
  · have hfits := recv_loop_fits (Word.as_i32 (message_length self.rcv_queue)).toNat
      self.rcv_queue [] (by rw [hsize]; simp)
    rw [hloop] at hfits
    simp only [List.nil_append, Prod.mk.injEq] at hfits
    obtain ⟨hdata, hrest⟩ := hfits
    have hne : payload (self.rcv_queue.take k) ≠ [] := by
      rw [hdata]
      intro hnil
      have hzero := length_payload_head self.rcv_queue
      rw [hnil, List.length_nil] at hzero
      omega
    rw [hrecv, if_neg hne, hdata]
    unfold popped
    rw [hrest, hdata]

end kcp_core.engine.KcpEngine
