import Kcp.Framing
import Kcp.Engine.Wire

open kcp_core.protocol kcp_core.config kcp_core.error
open Framing

namespace kcp_core.engine

/-- What a data segment carries, whatever its number and times: how many fragments of
its message follow it, and its bytes. -/
structure Fragment where
  frg : U8
  data : Bytes

namespace Fragment

/-- How many fragments of the message follow. -/
def left (f : Fragment) : Nat := f.frg.toNat

/-- The bytes of some fragments, put together. -/
def joined (fs : List Fragment) : Bytes := fs.flatMap Fragment.data

@[simp] theorem joined_append (first second : List Fragment) :
    joined (first ++ second) = joined first ++ joined second := List.flatMap_append

/-- The fragment holds some bytes, and no more than `mss` of them. -/
def Fits (mss : Nat) (f : Fragment) : Prop := 0 < f.data.length ∧ f.data.length ≤ mss

/-- Every fragment carries data. -/
theorem length_joined_pos {mss : Nat} {fs : List Fragment} (hne : fs ≠ []) (h : ∀ f ∈ fs, f.Fits mss) :
    0 < (joined fs).length := by
  cases fs with
  | nil => exact absurd rfl hne
  | cons f rest =>
    have hf := (h f List.mem_cons_self).1
    simp only [joined, List.flatMap_cons, List.length_append]
    omega

/-- Fragments carry no more data than as many segments hold. -/
theorem length_joined_le {mss : Nat} {fs : List Fragment} (h : ∀ f ∈ fs, f.Fits mss) :
    (joined fs).length ≤ fs.length * mss := by
  induction fs with
  | nil => simp [joined]
  | cons f rest ih =>
    have hf := (h f List.mem_cons_self).2
    have hrest := ih fun g hg => h g (List.mem_cons_of_mem f hg)
    simp only [joined, List.flatMap_cons, List.length_append, List.length_cons, Nat.add_mul] at *
    omega

end Fragment

namespace KcpEngine

/-- What a segment carries. -/
def carried (segment : KcpSegment) : Fragment := ⟨segment.header.frg, segment.data⟩

/-- The data of a queue is that of its fragments. -/
theorem payload_eq_joined (segments : List KcpSegment) : payload segments = Fragment.joined (segments.map carried) := by
  unfold payload Fragment.joined
  rw [List.flatMap_map]
  rfl

/-- A queued segment: its header gives its length, and it fits a datagram. -/
def Queued (mss : Nat) (segment : KcpSegment) : Prop := Sized segment ∧ (carried segment).Fits mss

/-! ### Fragments of one message -/

/-- As many fragments as are needed, and no more. -/
theorem fragment_count_spec {mss len : Nat} (hmss : 0 < mss) (hlen : 0 < len) :
    0 < fragment_count mss len ∧ len ≤ fragment_count mss len * mss ∧ (fragment_count mss len - 1) * mss < len := by
  unfold fragment_count
  split
  · exact ⟨Nat.one_pos, by omega, by omega⟩
  · rename_i hlong
    have hdiv := Nat.div_add_mod (len + mss - 1) mss
    have hmod := Nat.mod_lt (len + mss - 1) hmss
    rw [Nat.mul_comm] at hdiv
    have hpos : 0 < (len + mss - 1) / mss := Nat.div_pos (by omega) hmss
    refine ⟨hpos, by omega, ?_⟩
    rw [Nat.sub_mul, Nat.one_mul]
    omega

section

variable (conv : ConvId) (stream_mode : Bool) (mss count : Nat) (clk : Clock) (data : Bytes)

/-- The loop makes as many fragments as it is asked for. -/
theorem length_fragment_loop (remaining offset : Nat) :
    (fragment_loop conv stream_mode mss count clk data remaining offset).length = remaining := by
  induction remaining generalizing offset with
  | zero => rfl
  | succ remaining ih =>
    unfold fragment_loop
    simp only [List.length_cons, ih]

/-- One turn of the loop, by what the fragment carries. -/
theorem fragment_loop_succ (remaining offset : Nat) :
    ∃ segment, fragment_loop conv stream_mode mss count clk data (remaining + 1) offset =
        segment :: fragment_loop conv stream_mode mss count clk data remaining
          (offset + min mss (data.length - offset)) ∧
      segment.data = (data.drop offset).take (min mss (data.length - offset)) ∧
      segment.header.len = BitVec.ofNat 32 segment.data.length ∧
      segment.header.frg = if stream_mode then 0 else BitVec.ofNat 8 (count - (count - (remaining + 1)) - 1) := by
  refine ⟨_, rfl, ?_, ?_, ?_⟩
  all_goals cases stream_mode <;> rfl

/-- The fragments put together are the rest of the message. -/
theorem payload_fragment_loop (remaining offset : Nat) (h : data.length - offset ≤ remaining * mss) :
    payload (fragment_loop conv stream_mode mss count clk data remaining offset) = data.drop offset := by
  induction remaining generalizing offset with
  | zero =>
    rw [List.drop_eq_nil_of_le (by omega)]
    rfl
  | succ remaining ih =>
    obtain ⟨segment, heq, hdata, _, _⟩ :=
      fragment_loop_succ conv stream_mode mss count clk data remaining offset
    rw [Nat.add_mul] at h
    rw [heq, payload_cons, hdata, ih _ (by omega), ← List.drop_drop, List.take_append_drop]

/-- Every fragment holds some bytes and fits a segment. -/
theorem queued_fragment_loop (hmss : 0 < mss) (hword : mss < 2 ^ 32) (remaining offset : Nat)
    (h : 0 < remaining → offset + (remaining - 1) * mss < data.length) :
    ∀ segment ∈ fragment_loop conv stream_mode mss count clk data remaining offset, Queued mss segment := by
  induction remaining generalizing offset with
  | zero => intro segment hmem; cases hmem
  | succ remaining ih =>
    obtain ⟨first, heq, hdata, hlen, _⟩ :=
      fragment_loop_succ conv stream_mode mss count clk data remaining offset
    have hroom := h (Nat.succ_pos _)
    rw [Nat.add_sub_cancel] at hroom
    have hsize : first.data.length = min mss (data.length - offset) := by
      rw [hdata, List.length_take, List.length_drop]
      omega
    intro segment hmem
    rw [heq] at hmem
    rcases List.mem_cons.mp hmem with rfl | hmem
    · refine ⟨?_, ?_, ?_⟩
      · unfold Sized
        rw [hlen, BitVec.toNat_ofNat, Nat.mod_eq_of_lt (by omega)]
      · change 0 < segment.data.length
        omega
      · change segment.data.length ≤ mss
        omega
    · refine ih _ ?_ segment hmem
      intro hpos
      have hsplit : remaining * mss = (remaining - 1) * mss + mss := by
        obtain ⟨r, rfl⟩ := Nat.exists_eq_add_of_lt hpos
        simp [Nat.add_mul]
      omega

/-- In message mode the fragments of a message are one frame. -/
theorem frame_fragment_loop {remaining : Nat} (hpos : 0 < remaining) (hcount : remaining ≤ count)
    (hbyte : remaining ≤ 256) (offset : Nat) :
    Frame Fragment.left ((fragment_loop conv false mss count clk data remaining offset).map carried) := by
  induction remaining generalizing offset with
  | zero => exact absurd hpos (Nat.lt_irrefl 0)
  | succ remaining ih =>
    obtain ⟨segment, heq, _, _, hfrg⟩ := fragment_loop_succ conv false mss count clk data remaining offset
    have hleft : (carried segment).left = remaining := by
      change segment.header.frg.toNat = remaining
      rw [hfrg, if_neg Bool.false_ne_true, BitVec.toNat_ofNat]
      omega
    rw [heq, List.map_cons]
    cases remaining with
    | zero => exact .last hleft
    | succ remaining =>
      apply Frame.more
      · rw [hleft, List.length_map, length_fragment_loop]
      · exact ih (Nat.succ_pos _) (by omega) (by omega) _

/-- In stream mode every fragment stands for itself. -/
theorem left_fragment_loop (remaining offset : Nat) :
    ∀ segment ∈ fragment_loop conv true mss count clk data remaining offset, (carried segment).left = 0 := by
  induction remaining generalizing offset with
  | zero => intro segment hmem; cases hmem
  | succ remaining ih =>
    obtain ⟨first, heq, _, _, hfrg⟩ := fragment_loop_succ conv true mss count clk data remaining offset
    intro segment hmem
    rw [heq] at hmem
    rcases List.mem_cons.mp hmem with rfl | hmem
    · change segment.header.frg.toNat = 0
      rw [hfrg]
      rfl
    · exact ih _ segment hmem

end

/-! ### What `send` queues -/

/-- Stream mode: some bytes of the data go to the end of the last segment. -/
theorem payload_merge_into_last (mss : Nat) (queue : List KcpSegment) (data : Bytes) :
    payload (merge_into_last mss queue data).1 = payload queue ++ data.take (merge_into_last mss queue data).2 := by
  unfold merge_into_last
  cases hlast : queue.getLast? with
  | none => simp
  | some last =>
    dsimp only
    split
    · obtain ⟨front, rfl⟩ := List.getLast?_eq_some_iff.mp hlast
      simp
    · simp

/-- Merging keeps the last segment within the segment size. -/
theorem queued_merge_into_last {mss : Nat} (hword : mss < 2 ^ 32) {queue : List KcpSegment} (data : Bytes)
    (hqueue : ∀ s ∈ queue, Queued mss s ∧ (carried s).left = 0) :
    ∀ s ∈ (merge_into_last mss queue data).1, Queued mss s ∧ (carried s).left = 0 := by
  unfold merge_into_last
  cases hlast : queue.getLast? with
  | none => exact hqueue
  | some last =>
    dsimp only
    split
    · rename_i hroom
      obtain ⟨front, rfl⟩ := List.getLast?_eq_some_iff.mp hlast
      have hend := hqueue last (by simp)
      have hold := hend.1.2.1
      change 0 < last.data.length at hold
      have hsize : (last.data ++ data.take (min data.length (mss - last.data.length))).length ≤ mss := by
        rw [List.length_append, List.length_take]
        omega
      rw [List.dropLast_concat]
      intro s hs
      rcases List.mem_append.mp hs with hs | hs
      · exact hqueue s (List.mem_append_left _ hs)
      · rw [List.mem_singleton.mp hs]
        refine ⟨⟨?_, ?_, hsize⟩, hend.2⟩
        · unfold Sized
          dsimp only
          rw [BitVec.toNat_ofNat, Nat.mod_eq_of_lt (by omega)]
        · change 0 < (last.data ++ data.take (min data.length (mss - last.data.length))).length
          rw [List.length_append]
          omega
    · exact hqueue

/-- The new fragments of one `send`. -/
def fragments (self : KcpEngine) (clk : Clock) (data : Bytes) : List KcpSegment :=
  fragment_loop self.conv self.config.stream_mode self.mss.toNat (fragment_count self.mss.toNat data.length) clk data
    (fragment_count self.mss.toNat data.length) 0

/-- The fragments carry the data in order, each within the segment size. -/
theorem fragments_spec {self : KcpEngine} (hmss : 0 < self.mss.toNat) (clk : Clock) {data : Bytes}
    (hdata : 0 < data.length) :
    payload (self.fragments clk data) = data ∧ ∀ s ∈ self.fragments clk data, Queued self.mss.toNat s := by
  obtain ⟨hpos, hcover, hlast⟩ := fragment_count_spec hmss hdata
  constructor
  · unfold fragments
    rw [payload_fragment_loop _ _ _ _ _ _ _ _ (by omega)]
    rfl
  · exact queued_fragment_loop _ _ _ _ _ _ hmss self.mss.isLt _ _ fun _ => by omega

/-- The queue once stream mode has filled up its last segment, and how much of the data
that took. -/
def merged (self : KcpEngine) (data : Bytes) : List KcpSegment × Nat :=
  if self.config.stream_mode then merge_into_last self.mss.toNat self.snd_queue data else (self.snd_queue, 0)

/-- Merging appends a part of the data to what is queued. -/
theorem payload_merged (self : KcpEngine) (data : Bytes) :
    payload (self.merged data).1 = payload self.snd_queue ++ data.take (self.merged data).2 := by
  unfold merged
  split
  · exact payload_merge_into_last ..
  · simp

/-- What `send` does: nothing, a merge alone, a rejection, or fragments. -/
theorem send_eq (self : KcpEngine) (clk : Clock) (data : Bytes) :
    self.send clk data =
      if data.isEmpty then ({ self with last_activity := clk.now }, .ok ())
      else if (data.drop (self.merged data).2).isEmpty then
        ({ self with
            last_activity := clk.now
            snd_queue := (self.merged data).1
            stats := { self.stats with bytes_sent := self.stats.bytes_sent + (self.merged data).2 } }, .ok ())
      else if max_frags self.config < fragment_count self.mss.toNat (data.drop (self.merged data).2).length then
        ({ self with last_activity := clk.now, snd_queue := (self.merged data).1 },
          .error (.Buffer s!"Message needs {fragment_count self.mss.toNat (data.drop (self.merged data).2).length} fragments, exceeding the {max_frags self.config} the receive window can reassemble"))
      else
        ({ self with
            last_activity := clk.now
            snd_queue := (self.merged data).1 ++ self.fragments clk (data.drop (self.merged data).2)
            stats := { self.stats with
              bytes_sent := self.stats.bytes_sent + (data.drop (self.merged data).2).length } }, .ok ()) := rfl

/-- What `send` does: nothing to queue, all of it merged into the last segment, too many
fragments, or new fragments behind what was merged. -/
theorem send_cases (self : KcpEngine) (clk : Clock) (data : Bytes) :
    data = [] ∧ (self.send clk data).1.snd_queue = self.snd_queue ∧ (self.send clk data).2 = .ok () ∨
      data ≠ [] ∧ (self.send clk data).1.snd_queue = (self.merged data).1 ∧
        (data.drop (self.merged data).2 = [] ∧ (self.send clk data).2 = .ok () ∨ (self.send clk data).2 ≠ .ok ()) ∨
      data.drop (self.merged data).2 ≠ [] ∧
        fragment_count self.mss.toNat (data.drop (self.merged data).2).length ≤ max_frags self.config ∧
        (self.send clk data).1.snd_queue =
          (self.merged data).1 ++ self.fragments clk (data.drop (self.merged data).2) ∧
        (self.send clk data).2 = .ok () := by
  rw [send_eq]
  by_cases hempty : data = []
  · left
    simp [hempty]
  · right
    rw [if_neg (by simp [hempty])]
    by_cases hrest : data.drop (self.merged data).2 = []
    · left
      rw [if_pos (by simp [hrest])]
      exact ⟨hempty, rfl, .inl ⟨hrest, rfl⟩⟩
    · rw [if_neg (by simp [hrest])]
      by_cases hlong : max_frags self.config < fragment_count self.mss.toNat (data.drop (self.merged data).2).length
      · left
        rw [if_pos hlong]
        exact ⟨hempty, rfl, .inr (by simp)⟩
      · right
        rw [if_neg hlong]
        exact ⟨hrest, by omega, rfl, rfl⟩

/-- `send` in message mode: a message that is not empty and not too long is queued as
one frame, and in every other case nothing is queued. -/
theorem send_message {self : KcpEngine} (hmode : self.config.stream_mode = false) (hmss : 0 < self.mss.toNat)
    (clk : Clock) (data : Bytes) :
    (self.send clk data).1.snd_queue = self.snd_queue ∧ (data = [] ∨ (self.send clk data).2 ≠ .ok ()) ∨
      (self.send clk data).1.snd_queue = self.snd_queue ++ self.fragments clk data ∧
        (self.send clk data).2 = .ok () ∧ data ≠ [] ∧
        (self.fragments clk data).length ≤ max_frags self.config ∧
        Frame Fragment.left ((self.fragments clk data).map carried) := by
  have hmerged : self.merged data = (self.snd_queue, 0) := by
    unfold merged
    rw [hmode]
    rfl
  have hcases := self.send_cases clk data
  rw [hmerged, List.drop_zero] at hcases
  rcases hcases with ⟨hempty, hqueue, _⟩ | ⟨hne, hqueue, hresult⟩ | ⟨hne, hcount, hqueue, hok⟩
  · exact .inl ⟨hqueue, .inl hempty⟩
  · exact .inl ⟨hqueue, hresult.imp And.left id⟩
  · obtain ⟨hpos, _, _⟩ := fragment_count_spec hmss (List.length_pos_of_ne_nil hne)
    have hbyte : max_frags self.config ≤ 128 := by
      unfold max_frags
      rw [Word.toNat_min]
      exact Nat.min_le_right _ _
    refine .inr ⟨hqueue, hok, hne, ?_, ?_⟩
    · unfold fragments
      rwa [length_fragment_loop]
    · unfold fragments
      rw [hmode]
      exact frame_fragment_loop _ _ _ _ _ hpos le_rfl (by omega) _

/-- `send` in stream mode: some of the data is queued after what was there, all of it if
the call succeeds, and every queued segment stands for itself. -/
theorem send_stream {self : KcpEngine} (hmode : self.config.stream_mode = true) (hmss : 0 < self.mss.toNat)
    (hqueue : ∀ s ∈ self.snd_queue, Queued self.mss.toNat s ∧ (carried s).left = 0) (clk : Clock) (data : Bytes) :
    ∃ k, payload (self.send clk data).1.snd_queue = payload self.snd_queue ++ data.take k ∧
      ((self.send clk data).2 = .ok () → data.take k = data) ∧
      ∀ s ∈ (self.send clk data).1.snd_queue, Queued self.mss.toNat s ∧ (carried s).left = 0 := by
  have hmerge : self.merged data = merge_into_last self.mss.toNat self.snd_queue data := by
    unfold merged
    rw [hmode]
    rfl
  have hmerged := self.payload_merged data
  have hall := queued_merge_into_last self.mss.isLt data hqueue
  rw [← hmerge] at hall
  rcases self.send_cases clk data with ⟨hempty, hsame, _⟩ | ⟨_, hsent, hresult⟩ | ⟨hne, _, hsent, _⟩
  · rw [hsame]
    exact ⟨0, by simp, by simp [hempty], hqueue⟩
  · rw [hsent]
    refine ⟨_, hmerged, fun hok => ?_, hall⟩
    rcases hresult with ⟨hrest, _⟩ | herr
    · exact List.take_of_length_le (List.drop_eq_nil_iff.mp hrest)
    · exact absurd hok herr
  · obtain ⟨hpayload, hqueued⟩ := fragments_spec hmss clk (List.length_pos_of_ne_nil hne)
    have hleft : ∀ s ∈ self.fragments clk (data.drop (self.merged data).2), (carried s).left = 0 := by
      unfold fragments
      rw [hmode]
      exact left_fragment_loop _ _ _ _ _ _ _
    rw [hsent]
    refine ⟨data.length, ?_, fun _ => List.take_length, ?_⟩
    · rw [List.take_length, payload_append, hmerged, hpayload, List.append_assoc, List.take_append_drop]
    · intro s hs
      rcases List.mem_append.mp hs with hs | hs
      · exact hall s hs
      · exact ⟨hqueued s hs, hleft s hs⟩

end KcpEngine

end kcp_core.engine
