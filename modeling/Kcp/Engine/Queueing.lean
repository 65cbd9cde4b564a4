import Mathlib.Algebra.Order.Floor.Div
import Kcp.Engine.Emission

open kcp_core.protocol kcp_core.config kcp_core.error
open Framing

namespace kcp_core.engine

namespace KcpEngine

/-! ### Rejected data -/

/-- The fragments are the length divided by the segment size, rounded up. -/
theorem fragment_count_eq {mss len : Nat} (hmss : 0 < mss) (hlen : 0 < len) : fragment_count mss len = len ⌈/⌉ mss := by
  unfold fragment_count
  split
  · symm
    apply le_antisymm
    · rwa [ceilDiv_le_iff_le_mul hmss, Nat.mul_one]
    · rw [Nat.one_le_iff_ne_zero]
      intro hzero
      have hle := (ceilDiv_le_iff_le_mul (b := len) hmss).mp hzero.le
      omega
  · exact (Nat.ceilDiv_eq_add_pred_div len mss).symm

/-- As many fragments as are allowed hold the data exactly when it is no longer than they are. -/
theorem fragment_count_le_iff {mss len n : Nat} (hmss : 0 < mss) (hlen : 0 < len) :
    fragment_count mss len ≤ n ↔ len ≤ n * mss := by
  rw [fragment_count_eq hmss hlen, ceilDiv_le_iff_le_mul hmss, Nat.mul_comm]

/-- Stream mode with room in the last queued segment: what is left of the data once that
room is used fits the fragments that are allowed. -/
def RestFits (self : KcpEngine) (data : Bytes) : Prop :=
  self.config.stream_mode = true → ∀ last ∈ self.snd_queue.getLast?, last.data.length < self.mss.toNat →
    data.length ≤ self.mss.toNat - last.data.length + max_frags self.config * self.mss.toNat

/-- A call is rejected exactly when what is left after merging takes too many fragments. -/
theorem send_rejected_iff {self : KcpEngine} (hmss : 0 < self.mss.toNat) (clk : Clock) (data : Bytes) :
    (self.send clk data).2 ≠ .ok () ↔
      max_frags self.config * self.mss.toNat < (data.drop (self.merged data).2).length := by
  by_cases hrest : data.drop (self.merged data).2 = []
  · have hok : (self.send clk data).2 = .ok () := by
      rw [send_eq]
      split
      · rfl
      · rw [if_pos (by simp [hrest])]
    rw [hrest]
    simp [hok]
  · have hdata : data ≠ [] := by
      rintro rfl
      exact hrest List.drop_nil
    have hcount := fragment_count_le_iff (n := max_frags self.config) hmss (List.length_pos_of_ne_nil hrest)
    rw [send_eq, if_neg (by simp [hdata]), if_neg (by simp [hrest])]
    split
    · simp only [ne_eq, reduceCtorEq, not_false_eq_true, true_iff]
      omega
    · simp only [ne_eq, not_true_eq_false, false_iff]
      omega

/-- What a rejected call leaves behind: the queue with the last segment filled up. -/
theorem send_rejected {self : KcpEngine} {clk : Clock} {data : Bytes} (h : (self.send clk data).2 ≠ .ok ()) :
    (self.send clk data).1 = { self with last_activity := clk.now, snd_queue := (self.merged data).1 } := by
  rw [send_eq] at h ⊢
  split
  · rw [if_pos ‹_›] at h
    exact absurd rfl h
  · rw [if_neg ‹_›] at h
    split
    · rw [if_pos ‹_›] at h
      exact absurd rfl h
    · rw [if_neg ‹_›] at h
      split
      · rfl
      · rw [if_neg ‹_›] at h
        exact absurd rfl h

/-- Merging, when there is a last segment with room. -/
theorem merged_room {self : KcpEngine} (hmode : self.config.stream_mode = true) {last : KcpSegment}
    (hlast : self.snd_queue.getLast? = some last) (hroom : last.data.length < self.mss.toNat) (data : Bytes) :
    (self.merged data).2 = min data.length (self.mss.toNat - last.data.length) ∧
      ∃ filled, (self.merged data).1 = self.snd_queue.dropLast ++ [filled] ∧
        filled.data = last.data ++ data.take (self.merged data).2 := by
  unfold merged
  rw [if_pos hmode]
  unfold merge_into_last
  rw [hlast]
  dsimp only
  rw [if_pos hroom]
  exact ⟨rfl, _, rfl, rfl⟩

/-- In every other case nothing is merged. -/
theorem merged_none {self : KcpEngine} {data : Bytes}
    (h : self.config.stream_mode = true → ∀ last ∈ self.snd_queue.getLast?, self.mss.toNat ≤ last.data.length) :
    self.merged data = (self.snd_queue, 0) := by
  unfold merged
  split
  · rename_i hmode
    unfold merge_into_last
    split
    · rfl
    · rename_i last hlast
      exact if_neg (Nat.not_lt.mpr (h hmode last hlast))
  · rfl

/-- A rejected call leaves the queue alone exactly if it has merged nothing. -/
theorem rejected_clean_iff {self : KcpEngine} (hmss : 0 < self.mss.toNat) (clk : Clock) (data : Bytes) :
    ((self.send clk data).2 ≠ .ok () → (self.send clk data).1.snd_queue = self.snd_queue ∧
      (self.send clk data).1.stats = self.stats) ↔ RestFits self data := by
  constructor
  · intro hclean hmode last hlast hroom
    by_contra hlong
    obtain ⟨htaken, filled, hfilled, hbytes⟩ := merged_room hmode hlast hroom data
    have hrejected : (self.send clk data).2 ≠ .ok () := by
      rw [send_rejected_iff hmss, List.length_drop]
      omega
    obtain ⟨hqueue, _⟩ := hclean hrejected
    rw [send_rejected hrejected] at hqueue
    -- the last segment has grown
    have hsame : some filled = some last := by
      rw [← hlast, ← hqueue]
      dsimp only
      rw [hfilled, List.getLast?_concat]
    have hlen := congrArg (fun s => s.data.length) (Option.some.inj hsame)
    simp only [hbytes, List.length_append, List.length_take] at hlen
    omega
  · intro hfits hrejected
    rw [send_rejected hrejected]
    refine ⟨?_, rfl⟩
    have hnone : self.merged data = (self.snd_queue, 0) := by
      apply merged_none
      intro hmode last hlast
      by_contra hroom
      obtain ⟨htaken, _⟩ := merged_room hmode hlast (Nat.not_le.mp hroom) data
      have hlong := (send_rejected_iff hmss clk data).mp hrejected
      have hshort := hfits hmode last hlast (Nat.not_le.mp hroom)
      rw [List.length_drop] at hlong
      omega
    exact congrArg Prod.fst hnone

end KcpEngine

open KcpEngine

/-- A rejected `send` leaves queue and statistics as they were if and only if stream mode
did not first fill up the last segment of the queue with data that is rejected. -/
theorem rejected_send_iff (origin : Origin) (ops : List Op) (clk : Clock) (data : Bytes) :
    (((origin.reached ops).send clk data).2 ≠ .ok () →
      ((origin.reached ops).send clk data).1.snd_queue = (origin.reached ops).snd_queue ∧
        ((origin.reached ops).send clk data).1.stats = (origin.reached ops).stats) ↔
      RestFits (origin.reached ops) data :=
  rejected_clean_iff (origin.mtu_eq ops).2 clk data

/-- Stream mode, with 40 bytes to a segment and a window of one. -/
def small_stream : Start where
  conv := 7
  config := { kcp_tokio.config.KcpConfig.default with mtu := 64, rcv_wnd := 1, stream_mode := true, accepted := rfl }
  updated := 0
  active := 0

/-- One byte is queued, and 80 more are rejected: 39 of them stay in the queue. -/
theorem rejected_send_merges :
    ((small_stream.reached [.send (.at 0) [0]]).send (.at 0) (List.replicate 80 1)).2 ≠ .ok () ∧
      (small_stream.reached [.send (.at 0) [0]]).snd_queue.map KcpSegment.data = [[0]] ∧
      ((small_stream.reached [.send (.at 0) [0]]).send (.at 0) (List.replicate 80 1)).1.snd_queue.map KcpSegment.data =
        [0 :: List.replicate 39 1] := by
  decide +kernel

/-! ### Accepted data -/

/-- In message mode nothing is merged. -/
theorem KcpEngine.merged_message {self : KcpEngine} (hmode : self.config.stream_mode = false) (data : Bytes) :
    self.merged data = (self.snd_queue, 0) :=
  merged_none fun hstream => absurd (hmode.symm.trans hstream) Bool.false_ne_true

/-- In message mode `send` fails on the messages that take too many fragments. -/
theorem KcpEngine.send_message_rejected_iff {self : KcpEngine} (hmode : self.config.stream_mode = false)
    (hmss : 0 < self.mss.toNat) (clk : Clock) (data : Bytes) :
    (self.send clk data).2 ≠ .ok () ↔ min self.config.rcv_wnd.toNat 128 < data.length ⌈/⌉ self.mss.toNat := by
  have hmax : max_frags self.config = min self.config.rcv_wnd.toNat 128 := Word.toNat_min ..
  rw [send_rejected_iff hmss, merged_message hmode, List.drop_zero, hmax, ← not_le, ← not_le,
    ceilDiv_le_iff_le_mul hmss, Nat.mul_comm]

/-- In message mode an accepted message is queued as fragments that count down to zero. -/
theorem KcpEngine.send_message_fresh {self : KcpEngine} (hmode : self.config.stream_mode = false)
    (hmss : 0 < self.mss.toNat) {clk : Clock} {data : Bytes} (hok : (self.send clk data).2 = .ok ()) :
    ∃ fresh, (self.send clk data).1.snd_queue = self.snd_queue ++ fresh ∧ payload fresh = data ∧
      fresh.map (fun s => s.header.frg.toNat) = (List.range (data.length ⌈/⌉ self.mss.toNat)).reverse := by
  rcases send_message hmode hmss clk data with ⟨hqueue, hnone⟩ | ⟨hqueue, _, hne, _, hframe⟩
  · obtain rfl : data = [] := hnone.resolve_right (not_not.mpr hok)
    exact ⟨[], by simpa using hqueue, rfl, by simp⟩
  · have hlen := List.length_pos_of_ne_nil hne
    refine ⟨self.fragments clk data, hqueue, (fragments_spec hmss clk hlen).1, ?_⟩
    have hcount : (self.fragments clk data).length = data.length ⌈/⌉ self.mss.toNat := by
      unfold fragments
      rw [length_fragment_loop, fragment_count_eq hmss hlen]
    have hleft := hframe.map_left
    rw [List.map_map, List.length_map, hcount] at hleft
    exact hleft

/-- An accepted `send` appends exactly its data to what is queued, in segments of one to
`mss` bytes whose headers give their lengths. In stream mode each stands for itself. In
message mode the segments before stay as they are and the new ones count down to zero; and
there a message is rejected exactly when it takes more fragments than the smaller of the
receive window and 128. -/
theorem send_queues_data (origin : Origin) (ops : List Op) (clk : Clock) (data : Bytes) :
    (((origin.reached ops).send clk data).2 = .ok () →
      payload ((origin.reached ops).send clk data).1.snd_queue = payload (origin.reached ops).snd_queue ++ data ∧
      (∀ s ∈ ((origin.reached ops).send clk data).1.snd_queue, 1 ≤ s.data.length ∧
        s.data.length ≤ (origin.reached ops).mss.toNat ∧ s.header.len.toNat = s.data.length) ∧
      ((origin.reached ops).config.stream_mode = true →
        ∀ s ∈ ((origin.reached ops).send clk data).1.snd_queue, s.header.frg = 0) ∧
      ((origin.reached ops).config.stream_mode = false →
        ∃ fresh, ((origin.reached ops).send clk data).1.snd_queue = (origin.reached ops).snd_queue ++ fresh ∧
          fresh.map (fun s => s.header.frg.toNat) =
            (List.range (data.length ⌈/⌉ (origin.reached ops).mss.toNat)).reverse)) ∧
    ((origin.reached ops).config.stream_mode = false →
      (((origin.reached ops).send clk data).2 ≠ .ok () ↔
        min (origin.reached ops).config.rcv_wnd.toNat 128 < data.length ⌈/⌉ (origin.reached ops).mss.toNat)) := by
  obtain ⟨e, he⟩ : ∃ e, e = origin.reached ops := ⟨_, rfl⟩
  have hmss := (origin.mtu_eq ops).2
  have hqueue := (origin.stocked ops).queue
  rw [← he] at hmss hqueue ⊢
  have hsent := queued_send hqueue hmss clk data
  refine ⟨fun hok => ⟨?_, ?_, ?_, ?_⟩, fun hmode => send_message_rejected_iff hmode hmss clk data⟩
  · cases hmode : e.config.stream_mode with
    | false =>
      obtain ⟨fresh, hfresh, hpayload, _⟩ := send_message_fresh hmode hmss hok
      rw [hfresh, payload_append, hpayload]
    | true =>
      obtain ⟨k, hpayload, hall, _⟩ := send_stream hmode hmss
        (fun s hs => ⟨⟨(hqueue s hs).1, (hqueue s hs).2.1⟩, (hqueue s hs).2.2 hmode⟩) clk data
      rw [hpayload, hall hok]
  · intro s hs
    obtain ⟨hsized, ⟨hpos, hle⟩, _⟩ := hsent s hs
    exact ⟨hpos, hle, hsized.symm⟩
  · intro hmode s hs
    exact BitVec.eq_of_toNat_eq ((hsent s hs).2.2 hmode)
  · intro hmode
    obtain ⟨fresh, hfresh, _, hfrg⟩ := send_message_fresh hmode hmss hok
    exact ⟨fresh, hfresh, hfrg⟩

end kcp_core.engine
