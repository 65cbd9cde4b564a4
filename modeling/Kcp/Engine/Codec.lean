import Kcp.Engine.Wire

open kcp_core.protocol kcp_core.config kcp_core.error

namespace kcp_core.engine

namespace KcpEngine

/-! ### One segment -/

/-- A segment is decoded from its bytes, but for the fields that are not sent. -/
theorem decode_bytes {segment : KcpSegment} (h : Sized segment) :
    KcpSegment.decode segment.bytes = some (received_segment segment.header segment.data) := by
  unfold KcpSegment.decode
  rw [KcpSegment.bytes, KcpHeader.decode_bytes]
  exact if_neg (not_not.mpr h)

/-- A byte string that decodes is the encoding of what it decodes to. -/
theorem bytes_decode {buf : Bytes} {segment : KcpSegment} (h : KcpSegment.decode buf = some segment) :
    segment.bytes = buf := by
  unfold KcpSegment.decode at h
  cases hheader : KcpHeader.decode buf with
  | none => simp [hheader] at h
  | some out =>
    simp only [hheader, Option.ite_none_left_eq_some, Option.some.injEq] at h
    obtain ⟨_, rfl⟩ := h
    exact KcpHeader.bytes_decode hheader

/-! ### Tails -/

/-- No segment can be split off: there is no room for a header, or the header announces
more payload than there is. -/
def Cut (tail : Bytes) : Prop :=
  tail.length < KcpHeader.SIZE ∨
    ∃ header rest, KcpHeader.decode tail = some (header, rest) ∧ rest.length < header.len.toNat

/-- What is cut off is no segment. -/
theorem next_segment_cut {tail : Bytes} (h : Cut tail) : next_segment tail = none := by
  unfold next_segment
  rcases h with hshort | ⟨header, rest, hheader, hmissing⟩
  · have hnone : KcpHeader.decode tail = none := if_pos hshort
    rw [hnone]
  · have hlen := congrArg List.length (KcpHeader.bytes_decode hheader)
    rw [List.length_append, KcpHeader.length_bytes] at hlen
    simp only [hheader]
    rw [if_pos]
    rw [KcpHeader.SIZE]
    omega

end KcpEngine

open KcpEngine

/-- Encoding and decoding undo each other, on segments whose header gives the length of the
payload and on byte strings that decode; and `input` takes a datagram of such segments apart
into just these segments, whatever cut tail follows them. -/
theorem wire_round_trip :
    (∀ segment : KcpSegment, segment.header.len.toNat = segment.data.length →
      ∃ decoded, KcpSegment.decode (segment.encode []) = some decoded ∧ decoded.header = segment.header ∧
        decoded.data = segment.data) ∧
      (∀ (buf : Bytes) (segment : KcpSegment), KcpSegment.decode buf = some segment → segment.encode [] = buf) ∧
      ∀ (segments : List KcpSegment) (tail : Bytes), (∀ s ∈ segments, s.header.len.toNat = s.data.length) → Cut tail →
        (split_segments (segments.flatMap (fun s => s.encode []) ++ tail)).map (fun s => (s.header, s.data)) =
          segments.map fun s => (s.header, s.data) := by
  refine ⟨fun segment h => ?_, fun buf segment h => ?_, fun segments tail h htail => ?_⟩
  · refine ⟨received_segment segment.header segment.data, ?_, rfl, rfl⟩
    rw [KcpSegment.encode_eq, List.nil_append]
    exact decode_bytes h.symm
  · rw [KcpSegment.encode_eq, List.nil_append]
    exact bytes_decode h
  · have hbytes : segments.flatMap (fun s => s.encode []) = segments.flatMap KcpSegment.bytes :=
      List.flatMap_congr fun s _ => by rw [KcpSegment.encode_eq, List.nil_append]
    rw [hbytes, split_segments_append (fun s hs => (h s hs).symm) (next_segment_cut htail), List.map_map]
    exact List.map_congr_left fun s _ => rfl

end kcp_core.engine
