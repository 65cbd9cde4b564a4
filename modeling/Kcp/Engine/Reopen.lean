import Kcp.Engine.RecvInvariant
import Kcp.Engine.InOrder

open kcp_core.protocol kcp_core.config kcp_core.error

namespace kcp_core.engine

namespace KcpEngine

/-! ### What a call encodes -/

/-- The segments a call encodes, in order. -/
def encoded (self : KcpEngine) : Op → List KcpSegment
  | .flush clk => self.emissions clk
  | .keep_alive_probe clk =>
    emissions { self with probe := { self.probe with flags := self.probe.flags ||| constants.IKCP_ASK_SEND } } clk
  | .update now clk =>
    if (self.flush_of (.update now clk)).isSome then emissions { self with last_update := now } clk else []
  | _ => []

/-- A call that runs a flush encodes what that flush emits. -/
theorem encoded_of_flush_of {self : KcpEngine} {op : Op} {clk : Clock} (h : self.flush_of op = some clk) :
    ∃ last flags,
      self.step op = (flush { self with last_update := last, probe := { self.probe with flags } } clk).1 ∧
      self.encoded op = emissions { self with last_update := last, probe := { self.probe with flags } } clk ∧
      (flags = self.probe.flags ∨ flags = self.probe.flags ||| constants.IKCP_ASK_SEND) := by
  cases op with
  | flush c =>
    simp only [flush_of, Option.some.injEq] at h
    subst h
    exact ⟨self.last_update, self.probe.flags, rfl, rfl, .inl rfl⟩
  | keep_alive_probe c =>
    simp only [flush_of, Option.some.injEq] at h
    subst h
    exact ⟨self.last_update, _, rfl, rfl, .inr rfl⟩
  | update now c =>
    have hsome := h
    simp only [flush_of, Option.ite_none_right_eq_some, Option.some.injEq] at hsome
    obtain ⟨_, rfl⟩ := hsome
    refine ⟨now, self.probe.flags, congrArg Prod.fst (update_of_flush h), ?_, .inl rfl⟩
    simp only [encoded, h, Option.isSome_some, if_true]
  | _ => simp [flush_of] at h

/-- Without a flush nothing is encoded. -/
theorem encoded_of_no_flush {self : KcpEngine} {op : Op} (h : self.flush_of op = none) : self.encoded op = [] := by
  cases op with
  | flush clk => simp [flush_of] at h
  | keep_alive_probe clk => simp [flush_of] at h
  | update now clk => simp only [encoded, h, Option.isSome_none, Bool.false_eq_true, if_false]
  | _ => rfl

/-- These are the bytes the call adds to the output, unless it hands the output over. -/
theorem emitted_step (self : KcpEngine) {op : Op} (hop : op ≠ .drain_output) :
    (self.step op).emitted = self.emitted ++ (self.encoded op).flatMap KcpSegment.bytes := by
  cases hflush : self.flush_of op with
  | some clk =>
    obtain ⟨last, flags, hstep, hencoded, _⟩ := encoded_of_flush_of hflush
    rw [hstep, hencoded]
    exact emitted_flush _ clk
  | none =>
    have hsame : (self.step op).emitted = self.emitted := by
      cases op with
      | flush clk => simp [flush_of] at hflush
      | keep_alive_probe clk => simp [flush_of] at hflush
      | drain_output => exact absurd rfl hop
      | set_conv conv => rfl
      | update now clk =>
        obtain ⟨last, heq⟩ := update_of_no_flush hflush
        simp only [step, heq]
        rfl
      | send clk data =>
        obtain ⟨queue, sent, heq⟩ := self.send_shape clk data
        simp only [step, heq]
        rfl
      | recv =>
        obtain ⟨queue, buf, nxt, flags, received, heq⟩ := self.recv_shape
        simp only [step, heq]
        rfl
      | input now data =>
        have hframe := self.inputFrame_input now data
        simp only [step, emitted, hframe.output_queue, hframe.out_buf]
    rw [hsame, encoded_of_no_flush hflush]
    simp

/-! ### The advertised window -/

/-- The window is open exactly if the queue has room. -/
theorem wnd_unused_pos_iff (self : KcpEngine) :
    0 < self.wnd_unused ↔ self.rcv_queue.length < self.wnd.rcv.toNat := by
  unfold wnd_unused
  split
  · rename_i hroom
    have hlt := self.wnd.rcv.isLt
    have hsub : (self.wnd.rcv - BitVec.ofNat 32 self.rcv_queue.length).toNat =
        self.wnd.rcv.toNat - self.rcv_queue.length := by
      rw [BitVec.toNat_sub_of_le (by rw [BitVec.le_def, BitVec.toNat_ofNat]; omega), BitVec.toNat_ofNat]
      omega
    rw [BitVec.lt_def, hsub]
    exact iff_of_true (by change 0 < _; omega) hroom
  · exact iff_of_false (by decide) ‹_›

/-- A window of at most 65535 segments is advertised as zero only when it is. -/
theorem advertised_wnd_eq_zero_iff {self : KcpEngine} (hwnd : self.wnd.rcv.toNat ≤ 65535) :
    self.advertised_wnd = 0 ↔ ¬ self.rcv_queue.length < self.wnd.rcv.toNat := by
  have hle : self.wnd_unused.toNat ≤ 65535 := by
    unfold wnd_unused
    split
    · rw [BitVec.toNat_sub_of_le (by rw [BitVec.le_def, BitVec.toNat_ofNat]; omega)]
      omega
    · exact Nat.zero_le _
  rw [← wnd_unused_pos_iff, BitVec.lt_def]
  unfold advertised_wnd
  constructor
  · intro hzero hpos
    have hval := congrArg BitVec.toNat hzero
    rw [BitVec.toNat_setWidth, Nat.mod_eq_of_lt (by omega)] at hval
    change 0 < self.wnd_unused.toNat at hpos
    change _ = 0 at hval
    omega
  · intro hnot
    have hzero : self.wnd_unused = 0 := BitVec.eq_of_toNat_eq (by change _ = 0; change ¬ 0 < _ at hnot; omega)
    rw [hzero]
    rfl

/-- Every segment is encoded with the window of the moment. -/
theorem emissions_wnd (self : KcpEngine) (clk : Clock) : ∀ s ∈ self.emissions clk, s.header.wnd = self.advertised_wnd := by
  apply emissions_rule
  · exact fun _ _ => rfl
  · exact fun _ _ _ => rfl
  · intro before _ s hheader _
    rw [hheader]

/-! ### The window answer -/

/-- A window answer is asked for. -/
def Asked (e : KcpEngine) : Prop := e.probe.flags &&& constants.IKCP_ASK_TELL ≠ 0

instance decidableAsked (e : KcpEngine) : Decidable (Asked e) := inferInstanceAs (Decidable (¬ _))

theorem asked_or (flags more : U32) (h : flags &&& constants.IKCP_ASK_TELL ≠ 0) :
    (flags ||| more) &&& constants.IKCP_ASK_TELL ≠ 0 := by
  rw [BitVec.and_or_distrib_right]
  exact fun hzero => h (BitVec.or_eq_zero_iff.mp hzero).1

theorem asked_self (flags : U32) {ask : U32} (h : ask ≠ 0) : (flags ||| ask) &&& ask ≠ 0 := by
  rw [BitVec.and_or_distrib_right]
  intro hzero
  have hself := (BitVec.or_eq_zero_iff.mp hzero).2
  rw [BitVec.and_self] at hself
  exact h hself

theorem asked_tell (flags : U32) : (flags ||| constants.IKCP_ASK_TELL) &&& constants.IKCP_ASK_TELL ≠ 0 :=
  asked_self flags (by decide)

/-- The probe timer may ask for more, and forgets nothing that is asked for. -/
theorem asked_probe_timer {e : KcpEngine} (h : Asked e) (current : Timestamp) :
    (e.probe_timer current).flags &&& constants.IKCP_ASK_TELL ≠ 0 := by
  unfold probe_timer
  split
  · dsimp only
    split
    · exact h
    · split
      · exact asked_or _ _ h
      · exact h
  · exact h

/-- When an answer is asked for, the next flush encodes one, with the window of the moment. -/
theorem asked_emits {e : KcpEngine} (h : Asked e) (clk : Clock) :
    ∃ s ∈ e.emissions clk, s.header.cmd = constants.IKCP_CMD_WINS ∧ s.header.wnd = e.advertised_wnd := by
  refine ⟨e.create_probe_segment constants.IKCP_CMD_WINS (clk.hdr 1), ?_, rfl, rfl⟩
  unfold emissions probes_out
  dsimp only
  rw [if_pos (asked_probe_timer h clk.now)]
  simp

/-- `input` forgets nothing that is asked for. -/
theorem asked_input {e : KcpEngine} (h : Asked e) (now : Timestamp) (data : Bytes) : Asked (e.input now data).1 := by
  by_cases hshort : data.length < KcpHeader.SIZE
  · rw [input_short hshort]
    exact h
  · have hloop : Asked (e.input_loop now data).1 := by
      apply input_loop_rule (P := Asked)
      · intro segment _ acc hacc
        apply input_segment_rule (P := Asked)
        · exact fun _ _ h => h
        · exact fun _ h => h
        · intro _ e h
          obtain ⟨avg, var, rto, stats, buf, heq, _⟩ := input_ack_shape e now segment
          rw [heq]
          exact h
        · intro _ e h
          obtain ⟨queue, buf, nxt, acks, heq⟩ := input_push_shape e segment
          rw [heq]
          exact h
        · exact fun e h => asked_or _ _ h
        · exact hacc
      · exact h
    obtain ⟨buf, cwnd, incr, received, hfinish, _⟩ := input_finish_shape
      (e.input_loop now data).1 e.snd_una (e.input_loop now data).2
    rw [input_eq hshort, hfinish]
    exact hloop

/-! ### A pop that yields nothing -/

/-- `recv` pops empty segments only: the message starts with some, and the first payload
in it is longer than the length `peek_size` finds. -/
structure PopsNothing (e : KcpEngine) : Prop where
  pos : 0 < e.peek_size
  blocked : ∃ empties big rest, e.rcv_queue = empties ++ big :: rest ∧ empties ≠ [] ∧
    (∀ s ∈ empties, s.data = [] ∧ s.header.frg ≠ 0) ∧ e.peek_size < big.data.length

/-- What the pop loop leaves when it has found no data. -/
theorem recv_loop_nothing {peek_size : Nat} {queue rest : List KcpSegment} (hmessage : message_length queue ≠ 0)
    (h : recv_loop peek_size queue [] = ([], rest)) :
    ∃ empties big more, queue = empties ++ big :: more ∧ rest = big :: more ∧
      (∀ s ∈ empties, s.data = [] ∧ s.header.frg ≠ 0) ∧ peek_size < big.data.length := by
  induction queue with
  | nil => exact absurd rfl hmessage
  | cons segment queue ih =>
    unfold recv_loop at h
    by_cases hbig : peek_size < segment.data.length
    · rw [if_pos (by simpa using hbig)] at h
      exact ⟨[], segment, queue, rfl, (congrArg Prod.snd h).symm, by simp, hbig⟩
    · rw [if_neg (by simpa using hbig)] at h
      dsimp only at h
      rw [List.nil_append] at h
      unfold message_length at hmessage
      by_cases hlast : segment.header.frg = 0
      · rw [if_pos hlast] at h hmessage
        have hnil : segment.data = [] := congrArg Prod.fst h
        exact absurd (by rw [hnil]; rfl) hmessage
      · rw [if_neg hlast] at h hmessage
        obtain ⟨k, hloop, _⟩ := recv_loop_take peek_size queue segment.data
        have hnil : segment.data = [] := by
          have hdata := congrArg Prod.fst (hloop.symm.trans h)
          exact (List.append_eq_nil_iff.mp hdata).1
        rw [hnil] at h hmessage
        obtain ⟨empties, big, more, rfl, hrest, hempty, hlong⟩ := ih (by simpa using hmessage) h
        refine ⟨segment :: empties, big, more, rfl, hrest, ?_, hlong⟩
        intro s hs
        cases List.mem_cons.mp hs with
        | inl heq => exact heq ▸ ⟨hnil, hlast⟩
        | inr hs => exact hempty s hs

/-- A segment too long for the size that was peeked stays where it is. -/
theorem recv_loop_blocked {peek_size : Nat} {empties : List KcpSegment} {big : KcpSegment} (more : List KcpSegment)
    (hempty : ∀ s ∈ empties, s.data = [] ∧ s.header.frg ≠ 0) (hlong : peek_size < big.data.length) :
    recv_loop peek_size (empties ++ big :: more) [] = ([], big :: more) := by
  induction empties with
  | nil =>
    rw [List.nil_append, recv_loop, if_pos (by simpa using hlong)]
  | cons segment empties ih =>
    obtain ⟨hdata, hfrg⟩ := hempty segment List.mem_cons_self
    have hrest := ih fun s hs => hempty s (List.mem_cons_of_mem segment hs)
    rw [List.cons_append, recv_loop]
    simp only [hdata, List.length_nil, Nat.add_zero, Nat.not_lt_zero, if_false, List.append_nil, hfrg]
    exact hrest

theorem length_le_message_length {empties : List KcpSegment} (more : List KcpSegment)
    (hempty : ∀ s ∈ empties, s.data = [] ∧ s.header.frg ≠ 0) (big : KcpSegment) :
    big.data.length ≤ message_length (empties ++ big :: more) := by
  induction empties with
  | nil =>
    rw [List.nil_append, message_length]
    split <;> omega
  | cons segment empties ih =>
    have hfrg := (hempty segment List.mem_cons_self).2
    have hrest := ih fun s hs => hempty s (List.mem_cons_of_mem segment hs)
    rw [List.cons_append, message_length, if_neg hfrg]
    omega

/-- With payloads from datagrams of ordinary size, `recv` never does that. -/
theorem not_popsNothing {e : KcpEngine} (hwin : RecvWindow e) (hshort : Stored Short e)
    (hwnd : e.wnd.rcv.toNat ≤ 65535) : ¬ PopsNothing e := by
  rintro ⟨hpos, empties, big, rest, hqueue, _, hempty, hlong⟩
  have hready : HeadReady e.rcv_queue := by
    by_contra hnot
    rw [peek_size_of_not_ready hnot] at hpos
    omega
  have hlen := message_length_le hshort.queue
  have hcap := hwin.capped
  have hbound : e.rcv_queue.length * 65511 ≤ 65535 * 65511 := Nat.mul_le_mul_right _ (by omega)
  rw [peek_size_of_ready hready] at hpos hlong
  have hsmall := Word.pos_and_lt_of_as_i32_pos hpos (by omega)
  rw [Word.as_i32_eq_of_lt hsmall.2] at hlong
  have hle := length_le_message_length rest hempty big
  rw [← hqueue] at hle
  omega

/-- `recv` forgets nothing that is asked for. -/
theorem asked_recv {e : KcpEngine} (h : Asked e) : Asked e.recv.1 := by
  obtain ⟨_, heq⟩ | ⟨_, _, k, _, heq⟩ := e.recv_cases
  · rw [heq]
    exact h
  · rw [heq]
    split
    · exact h
    · obtain ⟨queue, buf, nxt, hmove⟩ := (e.popped k).move_to_recv_queue_shape
      have hmoved : Asked (e.popped k).move_to_recv_queue := by
        rw [hmove]
        exact h
      unfold tell_window
      split
      · exact asked_or _ _ hmoved
      · exact hmoved

/-- A call that runs no flush forgets nothing that is asked for. -/
theorem asked_step {e : KcpEngine} (h : Asked e) {op : Op} (hnone : e.flush_of op = none) : Asked (e.step op) := by
  cases op with
  | flush clk => simp [flush_of] at hnone
  | keep_alive_probe clk => simp [flush_of] at hnone
  | drain_output => exact h
  | set_conv conv => exact h
  | recv => exact asked_recv h
  | input now data => exact asked_input h now data
  | update now clk =>
    obtain ⟨last, heq⟩ := update_of_no_flush hnone
    simp only [step, heq]
    exact h
  | send clk data =>
    obtain ⟨queue, sent, heq⟩ := e.send_shape clk data
    simp only [step, heq]
    exact h

/-- A call that runs a flush encodes the answer that is asked for. -/
theorem asked_flush {e : KcpEngine} (h : Asked e) {op : Op} {clk : Clock} (hflush : e.flush_of op = some clk) :
    ∃ s ∈ e.encoded op, s.header.cmd = constants.IKCP_CMD_WINS ∧ s.header.wnd = (e.step op).advertised_wnd := by
  obtain ⟨last, flags, hstep, hencoded, hflags⟩ := encoded_of_flush_of hflush
  obtain ⟨queue, buf, stats, hshape⟩ := flush_shape { e with last_update := last, probe := { e.probe with flags } } clk
  obtain ⟨_, hrcv, _⟩ := flushed_wnd_frame { e with last_update := last, probe := { e.probe with flags } } clk.now
  have hopened : Asked { e with last_update := last, probe := { e.probe with flags } } := by
    cases hflags with
    | inl heq => rw [heq]; exact h
    | inr heq => rw [heq]; exact asked_or _ _ h
  have hwnd : (e.step op).advertised_wnd = e.advertised_wnd := by
    unfold advertised_wnd wnd_unused
    rw [hstep, hshape, hrcv]
  rw [hencoded, hwnd]
  exact asked_emits hopened clk

end KcpEngine

open KcpEngine

/-! ### Runs -/

/-- An engine with the window that the segment encoded last advertises, if there is one. -/
structure Announcer where
  state : KcpEngine
  last : Option U16

namespace Announcer

def fresh (start : Start) : Announcer where
  state := start.fresh
  last := none

def step (self : Announcer) (op : Op) : Announcer where
  state := self.state.step op
  last := ((self.state.encoded op).getLast?.map fun s => s.header.wnd).or self.last

/-- A closed window that has opened again is about to be announced. -/
def Told (self : Announcer) : Prop := self.last = some 0 → 0 < self.state.wnd_unused → Asked self.state

/-- After the call, an opened window is about to be announced. An answer that was asked
for stays so, unless the call runs a flush, which then encodes it with the window of
the moment. -/
def Reopens (self : Announcer) (op : Op) : Prop :=
  Told (self.step op) ∧ (Asked self.state →
    (self.state.flush_of op = none → Asked (self.step op).state) ∧
    (self.state.flush_of op ≠ none → ∃ s ∈ self.state.encoded op,
      s.header.cmd = constants.IKCP_CMD_WINS ∧ s.header.wnd = (self.step op).state.advertised_wnd))

/-- The call is a `recv` that takes only empty segments out of a full queue, while the
peer believes the window closed and no answer is asked for. -/
def Strands (self : Announcer) (op : Op) : Prop :=
  op = .recv ∧ self.last = some 0 ∧ ¬ Asked self.state ∧
    self.state.wnd.rcv.toNat ≤ self.state.rcv_queue.length ∧ PopsNothing self.state

/-- A call that leaves the window or shrinks it, encodes nothing and forgets nothing. -/
theorem Told.still {self : Announcer} (h : Told self) {op : Op} (hnone : self.state.encoded op = [])
    (hqueue : self.state.rcv_queue.length ≤ (self.state.step op).rcv_queue.length)
    (hrcv : (self.state.step op).wnd.rcv = self.state.wnd.rcv)
    (hasked : Asked self.state → Asked (self.state.step op)) : Told (self.step op) := by
  intro hlast hopen
  have hlast' : self.last = some 0 := by simpa [step, hnone] using hlast
  have hroom := (wnd_unused_pos_iff _).mp hopen
  simp only [step, hrcv] at hroom
  exact hasked (h hlast' ((wnd_unused_pos_iff _).mpr (by omega)))

/-- A flush tells of the window. -/
theorem told_flush {self : Announcer} (h : Told self) (hwnd : self.state.wnd.rcv.toNat ≤ 65535) {op : Op} {clk : Clock}
    (hflush : self.state.flush_of op = some clk) : Told (self.step op) := by
  obtain ⟨last, flags, hstep, hencoded, hflags⟩ := encoded_of_flush_of hflush
  obtain ⟨queue, buf, stats, hshape⟩ :=
    flush_shape { self.state with last_update := last, probe := { self.state.probe with flags } } clk
  obtain ⟨_, hrcv, _⟩ := flushed_wnd_frame
    { self.state with last_update := last, probe := { self.state.probe with flags } } clk.now
  have hsame : (self.state.step op).rcv_queue = self.state.rcv_queue ∧
      (self.state.step op).wnd.rcv = self.state.wnd.rcv := by
    rw [hstep, hshape]
    exact ⟨rfl, hrcv⟩
  intro hlast hopen
  have hroom : self.state.rcv_queue.length < self.state.wnd.rcv.toNat := by
    rw [← hsame.1, ← hsame.2]
    exact (wnd_unused_pos_iff _).mp hopen
  exfalso
  cases hout : (self.state.encoded op).getLast? with
  | some s =>
    -- what is encoded now advertises the open window
    have hmem : s ∈ emissions { self.state with last_update := last, probe := { self.state.probe with flags } } clk := by
      rw [← hencoded]
      exact List.mem_of_getLast? hout
    have hzero : s.header.wnd = 0 := by simpa [step, hout] using hlast
    rw [emissions_wnd _ clk s hmem] at hzero
    exact (advertised_wnd_eq_zero_iff hwnd).mp hzero hroom
  | none =>
    -- nothing is encoded, so no answer was asked for
    have hlast' : self.last = some 0 := by simpa [step, hout] using hlast
    have hasked := h hlast' ((wnd_unused_pos_iff _).mpr hroom)
    have hopened : Asked { self.state with last_update := last, probe := { self.state.probe with flags } } := by
      cases hflags with
      | inl heq => rw [heq]; exact hasked
      | inr heq => rw [heq]; exact asked_or _ _ hasked
    obtain ⟨s, hmem, _⟩ := asked_emits hopened clk
    rw [← hencoded, List.getLast?_eq_none_iff.mp hout] at hmem
    cases hmem

/-- `recv` leaves an open window unannounced exactly when it strands it. -/
theorem told_recv {self : Announcer} (h : Told self) (hwin : RecvWindow self.state) :
    Told (self.step .recv) ↔ ¬ Strands self .recv := by
  obtain ⟨hnot, heq⟩ | ⟨hready, hpos, k, hloop, heq⟩ := self.state.recv_cases
  · -- nothing complete: `recv` changes nothing
    have hnone : ¬ Strands self .recv := by
      rintro ⟨_, _, _, _, hpop⟩
      have hsize := hpop.pos
      by_cases hready : HeadReady self.state.rcv_queue
      · rw [peek_size_of_ready hready] at hsize
        cases hnot with
        | inl hnot => exact hnot hready
        | inr hnot => omega
      · rw [peek_size_of_not_ready hready] at hsize
        omega
    refine iff_of_true (h.still rfl ?_ ?_ ?_) hnone
    · simp [KcpEngine.step, heq]
    · simp [KcpEngine.step, heq]
    · simp [KcpEngine.step, heq]
  · have hpeek := peek_size_of_ready hready
    have hmessage : message_length self.state.rcv_queue ≠ 0 := by
      intro hzero
      rw [hzero] at hpos
      exact absurd hpos (by decide)
    by_cases hdata : payload (self.state.rcv_queue.take k) = []
    · -- only empty segments come off the queue
      rw [hdata] at hloop
      obtain ⟨empties, big, more, hqueue, hrest, hempty, hlong⟩ := recv_loop_nothing hmessage hloop
      have hstep : (self.step .recv).state = { self.state with rcv_queue := big :: more } := by
        simp only [step, KcpEngine.step, heq, if_pos hdata, hrest]
      have hlast : (self.step .recv).last = self.last := by simp [step, encoded]
      have hcap := hwin.capped
      by_cases hfull : self.state.wnd.rcv.toNat ≤ self.state.rcv_queue.length
      · by_cases hsome : empties = []
        · -- not even those: the queue stays as it is
          have hsame : self.state.rcv_queue = big :: more := by rw [hqueue, hsome]; rfl
          have hshut : ¬ 0 < (self.step .recv).state.wnd_unused := by
            rw [wnd_unused_pos_iff, hstep, ← hsame]
            exact Nat.not_lt.mpr hfull
          refine iff_of_true (fun _ hopen => absurd hopen hshut) ?_
          rintro ⟨_, _, _, _, _, first, big', rest, hother, hne, hall, _⟩
          obtain ⟨s, tail, rfl⟩ := List.exists_cons_of_ne_nil hne
          rw [hsame, List.cons_append] at hother
          obtain ⟨rfl, _⟩ := List.cons.inj hother
          have hzero := (hall big List.mem_cons_self).1
          rw [hzero] at hlong
          exact absurd hlong (Nat.not_lt_zero _)
        · have hopen : 0 < (self.step .recv).state.wnd_unused := by
            have hlen := congrArg List.length hqueue
            have hpos := List.length_pos_of_ne_nil hsome
            rw [List.length_append] at hlen
            rw [wnd_unused_pos_iff, hstep]
            change (big :: more).length < self.state.wnd.rcv.toNat
            omega
          have hpops : PopsNothing self.state := by
            rw [← hpeek] at hlong hpos
            exact ⟨hpos, empties, big, more, hqueue, hsome, hempty, by omega⟩
          have hasked : Asked (self.step .recv).state ↔ Asked self.state := by
            rw [hstep]
            rfl
          constructor
          · rintro htold ⟨_, hzero, hclear, _⟩
            exact hclear (hasked.mp (htold (hlast.trans hzero) hopen))
          · intro hnone hzero _
            rw [hasked]
            by_contra hclear
            exact hnone ⟨rfl, hlast.symm.trans hzero, hclear, hfull, hpops⟩
      · -- the window was open before
        refine iff_of_true ?_ fun hstrands => hfull hstrands.2.2.2.1
        intro hzero _
        have hopen := (wnd_unused_pos_iff self.state).mpr (by omega)
        rw [hstep]
        exact h (hlast.symm.trans hzero) hopen
    · -- data comes off the queue, and `recv` compares the queue before and after
      have hnone : ¬ Strands self .recv := by
        rintro ⟨_, _, _, _, _, empties, big, more, hqueue, _, hempty, hlong⟩
        rw [hpeek] at hlong
        rw [hqueue, recv_loop_blocked more hempty (by rw [← hqueue]; omega)] at hloop
        exact hdata (by rw [hqueue]; exact (congrArg Prod.fst hloop).symm)
      refine iff_of_true ?_ hnone
      have hstep : (self.step .recv).state = tell_window self.state (self.state.popped k).move_to_recv_queue := by
        simp only [step, KcpEngine.step, heq, if_neg hdata]
      have hlast : (self.step .recv).last = self.last := by simp [step, encoded]
      obtain ⟨queue, buf, nxt, hmove⟩ := (self.state.popped k).move_to_recv_queue_shape
      intro hzero hopen
      rw [hlast] at hzero
      rw [hstep] at hopen ⊢
      have hroom := (wnd_unused_pos_iff _).mp hopen
      unfold tell_window at hroom ⊢
      by_cases hfull : self.state.wnd.rcv.toNat ≤ self.state.rcv_queue.length ∧
          (self.state.popped k).move_to_recv_queue.rcv_queue.length <
            (self.state.popped k).move_to_recv_queue.wnd.rcv.toNat
      · rw [if_pos hfull]
        exact asked_tell _
      · rw [if_neg hfull] at hroom ⊢
        have hbefore : self.state.rcv_queue.length < self.state.wnd.rcv.toNat := by
          by_contra hge
          exact hfull ⟨by omega, hroom⟩
        rw [hmove]
        exact h hzero ((wnd_unused_pos_iff _).mpr hbefore)

/-- Every call keeps the claim of the window, but for a `recv` that strands it. -/
theorem reopens_step {self : Announcer} (h : Told self) {c : KcpCoreConfig} (hset : Configured c self.state) {n : Nat}
    (hcount : RecvCount n self.state) (hwnd : self.state.wnd.rcv.toNat ≤ 65535) (hpos : 0 < self.state.wnd.rcv.toNat)
    (op : Op) :
    Reopens self op ↔ ¬ Strands self op := by
  have hasks : Asked self.state →
      (self.state.flush_of op = none → Asked (self.step op).state) ∧
      (self.state.flush_of op ≠ none → ∃ s ∈ self.state.encoded op,
        s.header.cmd = constants.IKCP_CMD_WINS ∧ s.header.wnd = (self.step op).state.advertised_wnd) := by
    intro hasked
    refine ⟨fun hnone => asked_step hasked hnone, fun hsome => ?_⟩
    obtain ⟨clk, hflush⟩ := Option.ne_none_iff_exists'.mp hsome
    exact asked_flush hasked hflush
  have htold : Told (self.step op) ↔ ¬ Strands self op := by
    by_cases hrecv : op = .recv
    · subst hrecv
      exact told_recv h hcount.window
    · refine iff_of_true ?_ fun hstrands => hrecv hstrands.1
      cases hflush : self.state.flush_of op with
      | some clk => exact told_flush h hwnd hflush
      | none =>
        obtain ⟨k, m, hmoved, hzero⟩ := moved_step hcount hwnd hpos op
        have hgrown := hmoved.grown
        have hle := hmoved.le
        have hk := hzero hrecv
        exact h.still (encoded_of_no_flush hflush) (by omega) ((configured_step hset op).rcv.trans hset.rcv.symm)
          fun hasked => asked_step hasked hflush
  exact ⟨fun hreopens => htold.mp hreopens.1, fun hnone => ⟨htold.mpr hnone, hasks⟩⟩

theorem run_state (start : Start) (ops : List Op) :
    (Trace.run Announcer.step (fresh start) ops).state = start.reached ops := by
  induction ops using List.reverseRecOn with
  | nil => rfl
  | append_singleton ops op ih =>
    rw [Trace.run_concat, Start.reached_concat, ← ih]
    rfl

/-- In a run that meets the condition the peer is told of every window that opens. -/
theorem told_run (start : Start) {ops : List Op} (h : Trace.Always Announcer.step Reopens (fresh start) ops) :
    Told (Trace.run Announcer.step (fresh start) ops) := by
  apply Trace.invariant_of_always (P := fun _ s => Told s) _ _ h
  · intro hzero
    cases hzero
  · intro ops op _ hreopens
    exact hreopens.1

end Announcer

open Announcer

/-- In a run of an engine with accepted settings, whatever datagrams arrive: a window that
was last advertised as closed and has opened again is always about to be announced, and
what is to be announced stays so until a flush encodes it, exactly when no `recv` of the
run takes only empty segments out of a full queue while the peer believes the window
closed and no answer is asked for. -/
theorem reopened_iff (start : Start) (ops : List Op) :
    Trace.Always Announcer.step Reopens (fresh start) ops ↔
      Trace.Always Announcer.step (fun s op => ¬ Strands s op) (fresh start) ops := by
  induction ops using List.reverseRecOn with
  | nil => simp
  | append_singleton ops op ih =>
    have hstep : Told (Trace.run Announcer.step (fresh start) ops) →
        (Reopens (Trace.run Announcer.step (fresh start) ops) op ↔
          ¬ Strands (Trace.run Announcer.step (fresh start) ops) op) := by
      intro htold
      have hstate := run_state start ops
      apply reopens_step htold (c := start.config.into) (n := start.accepts ops)
      · rw [hstate]; exact start.configured ops
      · rw [hstate]; exact start.recvCount ops
      · rw [hstate]; exact start.rcv_le ops
      · rw [hstate]; exact start.rcv_pos ops
    rw [Trace.always_concat, Trace.always_concat, ← ih]
    constructor
    · rintro ⟨hbefore, hlast⟩
      exact ⟨hbefore, (hstep (told_run start hbefore)).mp hlast⟩
    · rintro ⟨hbefore, hlast⟩
      exact ⟨hbefore, (hstep (told_run start hbefore)).mpr hlast⟩

/-- With datagrams no longer than UDP allows, every run meets the condition. -/
theorem reopens_of_datagrams (start : Start) (ops : List Op) (h : ∀ op ∈ ops, op.Datagram) :
    Trace.Always Announcer.step Reopens (fresh start) ops := by
  rw [reopened_iff]
  induction ops using List.reverseRecOn with
  | nil => simp
  | append_singleton ops op ih =>
    have hbefore : ∀ op ∈ ops, op.Datagram := fun o ho => h o (List.mem_append_left _ ho)
    refine Trace.always_concat.mpr ⟨ih hbefore, ?_⟩
    rintro ⟨_, _, _, _, hpops⟩
    rw [run_state] at hpops
    exact not_popsNothing (start.recvCount ops).window (start.settled ops hbefore).1 (start.rcv_le ops) hpops

/-! ### A window that stays closed -/

/-- A receiver with a window of three segments. -/
def three : Start where
  conv := 7
  config := { kcp_tokio.config.KcpConfig.default with rcv_wnd := 3, accepted := rfl }
  updated := 0
  active := 0

/-- One fragment of a message, on its way to the receiver. -/
def piece (frg : U8) (sn : SeqNum) (len : U32) (data : Bytes) : KcpSegment :=
  received_segment { conv := 7, cmd := constants.IKCP_CMD_PUSH, frg, wnd := 128, ts := 0, sn, una := 0, len } data

/-- A message of an empty fragment, one as long as the length field allows, and two bytes:
`2 ^ 32 + 1` bytes in all, of which the cast to `i32` leaves one. -/
def pieces (big : Bytes) : List KcpSegment := [piece 2 0 0 [], piece 1 1 0xFFFFFFFF big, piece 0 2 2 [0, 0]]

/-- The message arrives in one datagram, is acknowledged, and `recv` is called. -/
def stranding (big : Bytes) : List Op :=
  [.input 0 ((pieces big).flatMap KcpSegment.bytes), .flush (.at 0), .recv]

theorem input_pieces {big : Bytes} (hbig : big.length = 2 ^ 32 - 1) :
    (three.reached [.input 0 ((pieces big).flatMap KcpSegment.bytes)]).rcv_queue = pieces big ∧
      (three.reached [.input 0 ((pieces big).flatMap KcpSegment.bytes)]).probe.flags = 0 ∧
      (three.reached [.input 0 ((pieces big).flatMap KcpSegment.bytes)]).ack_list ≠ [] := by
  have hsized : ∀ s ∈ pieces big, Sized s := by
    intro s hs
    simp only [pieces, List.mem_cons, List.not_mem_nil, or_false] at hs
    obtain rfl | rfl | rfl := hs
    · rfl
    · exact hbig
    · rfl
  have hnext : ∀ i s, (pieces big)[i]? = some s → s.header.conv = three.fresh.conv ∧
      s.header.cmd = constants.IKCP_CMD_PUSH ∧ s.header.sn = three.fresh.rcv_nxt + BitVec.ofNat 32 i := by
    intro i s hs
    obtain ⟨hi, rfl⟩ := List.getElem?_eq_some_iff.mp hs
    have hlen : (pieces big).length = 3 := rfl
    obtain _ | _ | _ | i := i
    · exact ⟨rfl, rfl, rfl⟩
    · exact ⟨rfl, rfl, rfl⟩
    · exact ⟨rfl, rfl, rfl⟩
    · omega
  have hsplit : split_segments ((pieces big).flatMap KcpSegment.bytes) = pieces big := split_segments_bytes hsized
  have hlong : ¬ ((pieces big).flatMap KcpSegment.bytes).length < KcpHeader.SIZE := by
    simp [pieces, KcpSegment.size, KcpHeader.SIZE]
    omega
  obtain ⟨hqueue, hacks, hprobe⟩ := input_in_order 0 hlong hsplit rfl hnext (Nat.le_refl 3) (by decide)
  have hreached : three.reached [.input 0 ((pieces big).flatMap KcpSegment.bytes)] =
      (three.fresh.input 0 ((pieces big).flatMap KcpSegment.bytes)).1 := rfl
  rw [hreached, hqueue, hprobe, hacks]
  exact ⟨rfl, rfl, List.cons_ne_nil _ _⟩

/-- A flush with an ACK to send advertises the window of the moment. -/
theorem flush_announces {self : Announcer} {clk : Clock} (hacks : self.state.ack_list ≠ []) :
    (self.step (.flush clk)).last = some self.state.advertised_wnd := by
  have hne : self.state.emissions clk ≠ [] := by
    simp [emissions, acks_out, hacks]
  have hlast : (self.state.encoded (.flush clk)).getLast? = _ := List.getLast?_eq_some_getLast hne
  have hwnd := emissions_wnd self.state clk _ (List.getLast_mem hne)
  simp [Announcer.step, hlast, hwnd]

/-- After the flush the peer believes the window closed, and it is. -/
theorem flushed_pieces {big : Bytes} (hbig : big.length = 2 ^ 32 - 1) :
    ∃ self : Announcer, Trace.run Announcer.step (fresh three) (stranding big) = self.step .recv ∧
      self.state = three.reached [.input 0 ((pieces big).flatMap KcpSegment.bytes), .flush (.at 0)] ∧
      self.last = some 0 ∧ self.state.rcv_queue = pieces big ∧ self.state.probe.flags = 0 := by
  obtain ⟨hqueue, hflags, hacks⟩ := input_pieces hbig
  have harrived := run_state three [.input 0 ((pieces big).flatMap KcpSegment.bytes)]
  have hshut : (three.reached [.input 0 ((pieces big).flatMap KcpSegment.bytes)]).advertised_wnd = 0 := by
    rw [advertised_wnd_eq_zero_iff (three.rcv_le _), (three.configured _).rcv, hqueue]
    exact Nat.lt_irrefl 3
  obtain ⟨queue, buf, stats, hshape⟩ :=
    flush_shape (three.reached [.input 0 ((pieces big).flatMap KcpSegment.bytes)]) (.at 0)
  generalize hself : Trace.run Announcer.step (fresh three) [.input 0 ((pieces big).flatMap KcpSegment.bytes)] =
    self at harrived
  rw [← harrived] at hqueue hacks hshut hshape
  refine ⟨self.step (.flush (.at 0)), ?_, ?_, ?_, ?_, ?_⟩
  · rw [← hself]
    rfl
  · rw [← run_state, ← hself]
    rfl
  · rw [flush_announces hacks, hshut]
  · change (flush self.state (.at 0)).1.rcv_queue = _
    rw [hshape]
    exact hqueue
  · change (flush self.state (.at 0)).1.probe.flags = 0
    rw [hshape]

/-- `peek_size` finds one byte, so `recv` takes the empty fragment and stops. -/
theorem popsNothing_pieces {big : Bytes} (hbig : big.length = 2 ^ 32 - 1) {e : KcpEngine}
    (hqueue : e.rcv_queue = pieces big) : PopsNothing e := by
  have hready : HeadReady e.rcv_queue := by
    rw [hqueue]
    exact ⟨piece 2 0 0 [], _, rfl, .inr (Nat.le_refl 3)⟩
  have hlen : message_length (pieces big) = 2 ^ 32 + 1 := by
    simp [pieces, piece, received_segment, message_length, hbig]
  have hsize : e.peek_size = 1 := by
    rw [peek_size_of_ready hready, hqueue, hlen]
    decide
  refine ⟨by rw [hsize]; decide, [piece 2 0 0 []], piece 1 1 0xFFFFFFFF big, [piece 0 2 2 [0, 0]], hqueue,
    List.cons_ne_nil _ _, ?_, ?_⟩
  · intro s hs
    rw [List.mem_singleton.mp hs]
    exact ⟨rfl, by decide⟩
  · rw [hsize]
    change (1 : Int) < (big.length : Int)
    omega

/-- A message whose length does not fit 32 bits leaves the peer untold. -/
theorem stranded {big : Bytes} (hbig : big.length = 2 ^ 32 - 1) :
    ¬ Told (Trace.run Announcer.step (fresh three) (stranding big)) := by
  obtain ⟨self, hrun, hstate, hlast, hqueue, hflags⟩ := flushed_pieces hbig
  have hwin : RecvWindow self.state := by
    rw [hstate]
    exact (three.recvCount _).window
  have hfull : self.state.wnd.rcv.toNat ≤ self.state.rcv_queue.length := by
    rw [hqueue, hstate, (three.configured _).rcv]
    exact Nat.le_refl 3
  have htold : Told self := fun _ hopen => absurd ((wnd_unused_pos_iff _).mp hopen) (by omega)
  have hclear : ¬ Asked self.state := by
    rw [Asked, hflags]
    decide
  rw [hrun, told_recv htold hwin, not_not]
  exact ⟨rfl, hlast, hclear, hfull, popsNothing_pieces hbig hqueue⟩

/-- The peer was told that the window is closed; it has opened, and no answer is asked for. -/
theorem window_stays_closed :
    (Trace.run Announcer.step (fresh three) (stranding (List.replicate (2 ^ 32 - 1) 0))).last = some 0 ∧
      0 < (Trace.run Announcer.step (fresh three) (stranding (List.replicate (2 ^ 32 - 1) 0))).state.wnd_unused ∧
      ¬ Asked (Trace.run Announcer.step (fresh three) (stranding (List.replicate (2 ^ 32 - 1) 0))).state := by
  have hstranded : ¬ Told (Trace.run Announcer.step (fresh three) (stranding (List.replicate (2 ^ 32 - 1) 0))) :=
    stranded List.length_replicate
  simpa only [Told, Classical.not_imp] using hstranded

end kcp_core.engine
