import Kcp.Engine.Flush

open kcp_core.protocol kcp_core.config kcp_core.error

namespace kcp_core.engine.KcpEngine

/-- The datagrams closed so far and the one being packed, after one more segment. -/
def pack_one (mtu : Nat) (out : List Bytes × Bytes) (segment : KcpSegment) : List Bytes × Bytes :=
  if mtu < out.2.length + segment.size ∧ out.2 ≠ [] then (out.1 ++ [out.2], segment.bytes)
  else (out.1, out.2 ++ segment.bytes)

def pack (mtu : Nat) (out : List Bytes × Bytes) (segments : List KcpSegment) : List Bytes × Bytes :=
  segments.foldl (pack_one mtu) out

/-- Emitting segments touches nothing but the output and the packet counter. -/
def with_output (self : KcpEngine) (segments : List KcpSegment) : KcpEngine :=
  let out := pack self.config.mtu.toNat (self.output_queue, self.out_buf) segments
  { self with
    output_queue := out.1
    out_buf := out.2
    stats := { self.stats with packets_sent := self.stats.packets_sent + segments.length } }

@[simp] theorem with_output_nil (self : KcpEngine) : self.with_output [] = self := rfl

/-- To put out one segment. -/
theorem output_segment_eq (self : KcpEngine) (segment : KcpSegment) :
    self.output_segment segment = self.with_output [segment] := by
  unfold output_segment with_output pack
  simp only [List.foldl_cons, List.foldl_nil, pack_one, KcpSegment.encode_eq, List.length_singleton]
  split <;> simp

/-- To put out one list after another. -/
theorem with_output_append (self : KcpEngine) (first second : List KcpSegment) :
    self.with_output (first ++ second) = (self.with_output first).with_output second := by
  simp [with_output, pack, Nat.add_assoc]

theorem with_output_cons (self : KcpEngine) (segment : KcpSegment) (rest : List KcpSegment) :
    self.with_output (segment :: rest) = (self.output_segment segment).with_output rest := by
  rw [output_segment_eq, ← with_output_append, List.singleton_append]

/-! ### What was packed -/

/-- All bytes encoded so far that have not been drained. -/
def emitted (self : KcpEngine) : Bytes := self.output_queue.flatten ++ self.out_buf

/-- A segment goes behind all that is packed. -/
theorem pack_one_flatten (mtu : Nat) (out : List Bytes × Bytes) (segment : KcpSegment) :
    (pack_one mtu out segment).1.flatten ++ (pack_one mtu out segment).2 =
      out.1.flatten ++ out.2 ++ segment.bytes := by
  unfold pack_one
  split <;> simp

/-- A list of segments goes behind all that is packed. -/
theorem pack_flatten (mtu : Nat) (out : List Bytes × Bytes) (segments : List KcpSegment) :
    (pack mtu out segments).1.flatten ++ (pack mtu out segments).2 =
      out.1.flatten ++ out.2 ++ segments.flatMap KcpSegment.bytes := by
  induction segments generalizing out with
  | nil => simp [pack]
  | cons segment rest ih =>
    have hrest := ih (pack_one mtu out segment)
    rw [pack_one_flatten] at hrest
    simpa [pack] using hrest

/-- What is put out is emitted in order. -/
theorem emitted_with_output (self : KcpEngine) (segments : List KcpSegment) :
    (self.with_output segments).emitted = self.emitted ++ segments.flatMap KcpSegment.bytes :=
  pack_flatten ..

/-- To hand over the open buffer emits nothing new. -/
theorem emitted_flush_out_buf (self : KcpEngine) : self.flush_out_buf.emitted = self.emitted := by
  unfold flush_out_buf emitted
  split <;> simp

/-- A property of byte strings that the empty string has and that appending a
segment keeps holds of every datagram packed from such segments. -/
theorem pack_forall {P : Bytes → Prop} (hnil : P []) {segments : List KcpSegment}
    (happend : ∀ segment ∈ segments, ∀ buf, P buf → P (buf ++ segment.bytes))
    (mtu : Nat) (out : List Bytes × Bytes) (hqueue : ∀ d ∈ out.1, P d) (hbuf : P out.2) :
    (∀ d ∈ (pack mtu out segments).1, P d) ∧ P (pack mtu out segments).2 := by
  induction segments generalizing out with
  | nil => exact ⟨hqueue, hbuf⟩
  | cons segment rest ih =>
    have hhead := happend segment List.mem_cons_self
    apply ih (fun s hs => happend s (List.mem_cons_of_mem _ hs))
    · unfold pack_one
      split
      · intro d hd
        rcases List.mem_append.mp hd with hd | hd
        · exact hqueue d hd
        · rw [List.mem_singleton.mp hd]
          exact hbuf
      · exact hqueue
    · unfold pack_one
      split
      · exact hhead [] hnil
      · exact hhead _ hbuf

end kcp_core.engine.KcpEngine
