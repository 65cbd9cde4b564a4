import Kcp.Engine.ShiftFlush
import Kcp.Engine.Sender

open kcp_core.protocol kcp_core.config kcp_core.error

namespace kcp_core.engine

namespace KcpEngine

/-- What a call returns: `recv` a message or nothing, the others no data. -/
def answer (self : KcpEngine) : Op → KcpCoreResult (Option Bytes)
  | .send clk data => (self.send clk data).2.map fun _ => none
  | .recv => self.recv.2
  | .input now data => (self.input now data).2.map fun _ => none
  | .flush clk => (self.flush clk).2.map fun _ => none
  | .update now clk => (self.update now clk).2.map fun _ => none
  | .keep_alive_probe clk => (self.keep_alive_probe clk).2.map fun _ => none
  | .drain_output => .ok none
  | .set_conv _ => .ok none

/-- The segments a call encodes, each with the space of its number. -/
def numbered_encoded (self : KcpEngine) : Op → List (Space × KcpSegment)
  | .flush clk => self.numbered_emissions clk
  | .keep_alive_probe clk =>
    numbered_emissions { self with probe := { self.probe with flags := self.probe.flags ||| constants.IKCP_ASK_SEND } } clk
  | .update now clk =>
    if (self.flush_of (.update now clk)).isSome then numbered_emissions { self with last_update := now } clk else []
  | _ => []

theorem numbered_encoded_snd (self : KcpEngine) (op : Op) :
    (self.numbered_encoded op).map Prod.snd = self.encoded op := by
  cases op with
  | flush clk => exact numbered_emissions_snd ..
  | keep_alive_probe clk => exact numbered_emissions_snd ..
  | update now clk =>
    simp only [numbered_encoded, encoded]
    split
    · exact numbered_emissions_snd ..
    · rfl
  | _ => rfl

end KcpEngine

namespace Shift

variable {σ : Shift} {e e' : KcpEngine}

/-- The second engine is the first one moved, and its datagrams are cut at the same places. -/
def Moved (σ : Shift) (e e' : KcpEngine) : Prop := ∃ out, SameCut (output e) out ∧ e' = σ.image out e

theorem moved_refl (e : KcpEngine) : Moved σ e (σ.moved e) := ⟨output e, .refl _, rfl⟩

/-- The readings of the clock at which a call can tell the moved engine: `update` and the
probe timer. -/
def Smooth (σ : Shift) (e : KcpEngine) : Op → Prop
  | .flush clk => σ.clock = 0 ∨ ¬ Overgrown e clk.now
  | .keep_alive_probe clk => σ.clock = 0 ∨ ¬ Overgrown e clk.now
  | .update now clk =>
    (now + σ.clock < e.last_update + σ.clock ↔ now < e.last_update) ∧ (σ.clock = 0 ∨ ¬ Overgrown e clk.now)
  | _ => True

theorem smooth_of_clock (h : σ.clock = 0) (e : KcpEngine) (op : Op) : Smooth σ e op := by
  cases op with
  | flush clk => exact .inl h
  | keep_alive_probe clk => exact .inl h
  | update now clk => exact ⟨by rw [h, add_zero, add_zero], .inl h⟩
  | _ => trivial

/-- What a call does to the engine, what it returns and what it encodes, all moved. -/
structure Commutes (σ : Shift) (e e' : KcpEngine) (op : Op) : Prop where
  state : Moved σ (e.step op) (e'.step (σ.op op))
  answer : e'.answer (σ.op op) = e.answer op
  encoded : e'.numbered_encoded (σ.op op) = (e.numbered_encoded op).map σ.outgoing

theorem commutes_flush {clk : Clock} {out : List Bytes × Bytes} (hcut : SameCut (output e) out)
    (h : σ.clock = 0 ∨ ¬ Overgrown e clk.now) :
    Moved σ (e.flush clk).1 ((σ.image out e).flush (σ.clk clk)).1 ∧
      ((σ.image out e).flush (σ.clk clk)).2 = (e.flush clk).2 := by
  obtain ⟨out', hcut', heq⟩ := flush_image h hcut
  rw [heq]
  exact ⟨⟨out', hcut', rfl⟩, rfl⟩

theorem flush_of_update_image {out : List Bytes × Bytes} {now : Timestamp} {clk : Clock}
    (h : now + σ.clock < e.last_update + σ.clock ↔ now < e.last_update) :
    (σ.image out e).flush_of (.update (now + σ.clock) (σ.clk clk)) = (e.flush_of (.update now clk)).map σ.clk := by
  have hlast : (if now + σ.clock < e.last_update + σ.clock then now + σ.clock else e.last_update + σ.clock) =
      (if now < e.last_update then now else e.last_update) + σ.clock := by
    by_cases hback : now < e.last_update
    · rw [if_pos hback, if_pos (h.mpr hback)]
    · rw [if_neg hback, if_neg (mt h.mp hback)]
  change (if e.config.nodelay.interval ≤ now + σ.clock -
      (if now + σ.clock < e.last_update + σ.clock then now + σ.clock else e.last_update + σ.clock) then
      some (σ.clk clk) else none) = _
  rw [hlast, add_sub_add_right_eq_sub]
  unfold KcpEngine.flush_of
  dsimp only
  by_cases hdue : e.config.nodelay.interval ≤ now - (if now < e.last_update then now else e.last_update)
  · rw [if_pos hdue, if_pos hdue]
    rfl
  · rw [if_neg hdue, if_neg hdue]
    rfl

theorem commutes_update_idle {out : List Bytes × Bytes} (hcut : SameCut (output e) out) {now : Timestamp} {clk : Clock}
    (h : now + σ.clock < e.last_update + σ.clock ↔ now < e.last_update) (hnone : e.flush_of (.update now clk) = none) :
    Commutes σ e (σ.image out e) (.update now clk) := by
  have hgate : (σ.image out e).flush_of (.update (now + σ.clock) (σ.clk clk)) = _ := flush_of_update_image h
  rw [hnone] at hgate
  have hidle := KcpEngine.update_idle hnone
  have hidle' := KcpEngine.update_idle hgate
  have hlast : (if now + σ.clock < (σ.image out e).last_update then now + σ.clock else (σ.image out e).last_update) =
      (if now < e.last_update then now else e.last_update) + σ.clock := by
    change (if now + σ.clock < e.last_update + σ.clock then now + σ.clock else e.last_update + σ.clock) = _
    by_cases hback : now < e.last_update
    · rw [if_pos hback, if_pos (h.mpr hback)]
    · rw [if_neg hback, if_neg (mt h.mp hback)]
  rw [hlast] at hidle'
  constructor
  · refine ⟨out, ?_, ?_⟩
    · simp only [KcpEngine.step, hidle]
      exact hcut
    · simp only [KcpEngine.step, op, hidle, hidle']
      rfl
  · simp only [KcpEngine.answer, op, hidle, hidle']
  · simp only [KcpEngine.numbered_encoded, op, hnone, hgate, Option.map_none, Option.isSome_none, Bool.false_eq_true,
      if_false, List.map_nil]

/-- An `update` survives a shift if its comparison does. -/
theorem commutes_update {out : List Bytes × Bytes} (hcut : SameCut (output e) out) {now : Timestamp} {clk : Clock}
    (h : now + σ.clock < e.last_update + σ.clock ↔ now < e.last_update) (hclk : σ.clock = 0 ∨ ¬ Overgrown e clk.now) :
    Commutes σ e (σ.image out e) (.update now clk) := by
  have hgate : (σ.image out e).flush_of (.update (now + σ.clock) (σ.clk clk)) = _ := flush_of_update_image h
  cases hflush : e.flush_of (.update now clk) with
  | none => exact commutes_update_idle hcut h hflush
  | some c =>
    rw [hflush] at hgate
    have hrun := KcpEngine.update_of_flush hflush
    have hrun' := KcpEngine.update_of_flush hgate
    have hstart : { σ.image out e with last_update := now + σ.clock } = σ.image out { e with last_update := now } := rfl
    obtain ⟨hstate, hresult⟩ := commutes_flush (e := { e with last_update := now }) hcut hclk
    rw [hstart] at hrun'
    constructor
    · simp only [KcpEngine.step, op, hrun, hrun']
      exact hstate
    · simp only [KcpEngine.answer, op, hrun, hrun', hresult]
    · simp only [KcpEngine.numbered_encoded, op, hflush, hgate, Option.map_some, Option.isSome_some, if_true, hstart]
      exact numbered_emissions_image (e := { e with last_update := now }) hclk

/-- Every smooth call survives a shift. -/
theorem commutes_step (h : Moved σ e e') {op : Op} (hsmooth : Smooth σ e op) : Commutes σ e e' op := by
  obtain ⟨out, hcut, rfl⟩ := h
  cases op with
  | send clk data =>
    have heq : (σ.image out e).send (σ.clk clk) data = _ := send_image clk data
    obtain ⟨queue, sent, hshape⟩ := e.send_shape clk data
    constructor
    · refine ⟨out, ?_, congrArg Prod.fst heq⟩
      simp only [KcpEngine.step, hshape]
      exact hcut
    · simp only [KcpEngine.answer, Shift.op, heq]
    · rfl
  | recv =>
    have heq : (σ.image out e).recv = _ := recv_image
    obtain ⟨queue, buf, nxt, flags, received, hshape⟩ := e.recv_shape
    constructor
    · refine ⟨out, ?_, congrArg Prod.fst heq⟩
      simp only [KcpEngine.step, hshape]
      exact hcut
    · simp only [KcpEngine.answer, Shift.op, heq]
    · rfl
  | input now data =>
    have heq : (σ.image out e).input (now + σ.clock) (σ.datagram data) = _ := input_image now data
    have hframe := e.inputFrame_input now data
    constructor
    · refine ⟨out, ?_, congrArg Prod.fst heq⟩
      simp only [KcpEngine.step, output, hframe.output_queue, hframe.out_buf]
      exact hcut
    · simp only [KcpEngine.answer, Shift.op, heq]
    · rfl
  | flush clk =>
    obtain ⟨hstate, hresult⟩ := commutes_flush hcut hsmooth
    refine ⟨hstate, ?_, numbered_emissions_image hsmooth⟩
    simp only [KcpEngine.answer, Shift.op, hresult]
  | update now clk => exact commutes_update hcut hsmooth.1 hsmooth.2
  | keep_alive_probe clk =>
    have hstart : { σ.image out e with probe := { (σ.image out e).probe with
        flags := (σ.image out e).probe.flags ||| constants.IKCP_ASK_SEND } } =
        σ.image out { e with probe := { e.probe with flags := e.probe.flags ||| constants.IKCP_ASK_SEND } } := by
      simp only [image, probe_flags, flags_probe]
    obtain ⟨hstate, hresult⟩ := commutes_flush
      (e := { e with probe := { e.probe with flags := e.probe.flags ||| constants.IKCP_ASK_SEND } }) hcut hsmooth
    constructor
    · simp only [KcpEngine.step, Shift.op, KcpEngine.keep_alive_probe, hstart]
      exact hstate
    · simp only [KcpEngine.answer, Shift.op, KcpEngine.keep_alive_probe, hstart, hresult]
    · simp only [KcpEngine.numbered_encoded, Shift.op, hstart]
      exact numbered_emissions_image
        (e := { e with probe := { e.probe with flags := e.probe.flags ||| constants.IKCP_ASK_SEND } }) hsmooth
  | drain_output => exact ⟨⟨([], out.2), ⟨rfl, hcut.buf⟩, rfl⟩, rfl, rfl⟩
  | set_conv conv => exact ⟨⟨out, hcut, rfl⟩, rfl, rfl⟩

end Shift

/-! ### Runs -/

namespace KcpEngine

/-- The datagrams a call hands over. -/
def drained (self : KcpEngine) : Op → List Bytes
  | .drain_output => self.output_queue
  | _ => []

/-- The datagrams of a run: those handed over, then those closed and still there. -/
def datagrams (self : KcpEngine) (ops : List Op) : List Bytes :=
  Trace.log step drained self ops ++ (Trace.run step self ops).output_queue

/-- What the calls of a run return. -/
def answers (self : KcpEngine) (ops : List Op) : List (KcpCoreResult (Option Bytes)) :=
  Trace.log step (fun e op => [e.answer op]) self ops

/-- The segments the calls of a run encode. -/
def encoded_by (self : KcpEngine) (ops : List Op) : List (Space × KcpSegment) :=
  Trace.log step numbered_encoded self ops

/-- The datagrams of a run and the one being packed are the bytes there were, then those of
the segments encoded. -/
theorem datagrams_bytes (self : KcpEngine) (ops : List Op) :
    (self.datagrams ops).flatten ++ (Trace.run step self ops).out_buf =
      self.emitted ++ (self.encoded_by ops).flatMap fun p => p.2.bytes := by
  unfold datagrams encoded_by
  induction ops generalizing self with
  | nil => simp [emitted]
  | cons op ops ih =>
    have hrest := ih (self.step op)
    have hstep : (self.drained op).flatten ++ (self.step op).emitted =
        self.emitted ++ (self.numbered_encoded op).flatMap fun p => p.2.bytes := by
      have hbytes : (self.numbered_encoded op).flatMap (fun p => p.2.bytes) =
          (self.encoded op).flatMap KcpSegment.bytes := by
        rw [← numbered_encoded_snd, List.flatMap_map]
      rw [hbytes]
      by_cases hdrain : op = .drain_output
      · subst hdrain
        simp [drained, step, drain_output, emitted, encoded]
      · rw [← emitted_step self hdrain]
        cases op with
        | drain_output => exact absurd rfl hdrain
        | _ => rfl
    simp only [Trace.log, Trace.run_cons, List.flatMap_append, List.flatten_append, List.append_assoc] at hrest ⊢
    rw [hrest, ← List.append_assoc, hstep, List.append_assoc]

end KcpEngine

namespace Shift

variable {σ : Shift} {e e' : KcpEngine}

/-- The datagrams drained are of the same lengths. -/
theorem length_drained (h : Moved σ e e') (op : Op) :
    (e'.drained (σ.op op)).map List.length = (e.drained op).map List.length := by
  obtain ⟨out, hcut, rfl⟩ := h
  cases op with
  | drain_output => exact hcut.queue
  | _ => rfl

/-- A run of the moved engine is the moved run. -/
theorem moved_run (h : Moved σ e e') {ops : List Op} (hsmooth : Trace.Always KcpEngine.step (Smooth σ) e ops) :
    Moved σ (Trace.run KcpEngine.step e ops) (Trace.run KcpEngine.step e' (ops.map σ.op)) ∧
      e'.answers (ops.map σ.op) = e.answers ops ∧
      e'.encoded_by (ops.map σ.op) = (e.encoded_by ops).map σ.outgoing ∧
      (e'.datagrams (ops.map σ.op)).map List.length = (e.datagrams ops).map List.length := by
  unfold KcpEngine.answers KcpEngine.encoded_by KcpEngine.datagrams
  induction ops generalizing e e' with
  | nil =>
    obtain ⟨out, hcut, rfl⟩ := h
    exact ⟨⟨out, hcut, rfl⟩, rfl, rfl, hcut.queue⟩
  | cons op ops ih =>
    have hstep := commutes_step h hsmooth.1
    obtain ⟨hstate, hanswers, hencoded, hlengths⟩ := ih hstep.state hsmooth.2
    simp only [List.map_append] at hlengths
    simp only [List.map_cons, Trace.run_cons, Trace.log, List.map_append, List.append_assoc]
    rw [hstep.answer, hanswers, hstep.encoded, hencoded, length_drained h, hlengths]
    exact ⟨hstate, rfl, rfl, rfl⟩

/-- Only the numbers move. -/
def sequence (snd rcv : U32) : Shift where
  clock := 0
  snd := snd
  rcv := rcv

/-- The number space of an encoded segment goes with its command. -/
def Commanded : Space × KcpSegment → Prop
  | (.own, s) => s.header.cmd = constants.IKCP_CMD_PUSH
  | (.peer, s) => s.header.cmd = constants.IKCP_CMD_ACK
  | (.neither, s) => s.header.cmd = constants.IKCP_CMD_WASK ∨ s.header.cmd = constants.IKCP_CMD_WINS

/-- The send buffer holds PUSH segments. -/
def Pushes (e : KcpEngine) : Prop := ∀ s ∈ e.snd_buf, s.header.cmd = constants.IKCP_CMD_PUSH

theorem Pushes.ready {e : KcpEngine} (h : Pushes e) (now : Timestamp) : Pushes (e.ready now) := by
  intro s hs
  rcases KcpEngine.mem_ready.mp hs with hs | hs
  · exact h s hs
  · obtain ⟨_, _, _, _, hpush, _⟩ := e.numbered_carries now _ _ s hs
    exact hpush

/-- All that is queued or sent is a PUSH. -/
theorem pushes_step {e : KcpEngine} (h : Pushes e) (op : Op) : Pushes (e.step op) := by
  apply KcpEngine.step_rule op
  · intro clk data _
    obtain ⟨queue, sent, heq⟩ := e.send_shape clk data
    rw [heq]
    exact h
  · intro _
    obtain ⟨queue, buf, nxt, flags, received, heq⟩ := e.recv_shape
    rw [heq]
    exact h
  · intro now data _
    obtain ⟨kept, hsub, hcounted, _⟩ := e.input_snd_buf now data
    intro s hs
    obtain ⟨before, hbefore, hsame⟩ := KcpEngine.exists_counted hcounted s hs
    have hpush := h before (hsub.subset hbefore)
    obtain rfl | rfl := hsame
    · exact hpush
    · exact hpush
  · intro last flags clk _
    obtain ⟨queue, buf, stats, heq⟩ :=
      KcpEngine.flush_shape { e with last_update := last, probe := { e.probe with flags } } clk
    rw [heq]
    intro s hs
    obtain ⟨before, hbefore, rfl⟩ := List.mem_map.mp hs
    have hready := Pushes.ready (e := { e with last_update := last, probe := { e.probe with flags } }) h clk.now before
    rw [KcpEngine.ready_eq] at hready
    exact (KcpEngine.mark_segment_carries _ _ _ _ _).2.1.trans (hready hbefore)
  · exact fun _ => h
  · exact h
  · exact fun _ => h

theorem commanded_emissions {e : KcpEngine} (h : Pushes e) (clk : Clock) :
    ∀ p ∈ e.numbered_emissions clk, Commanded p := by
  intro p hp
  unfold KcpEngine.numbered_emissions at hp
  rcases List.mem_append.mp hp with hp | hp
  · rcases List.mem_append.mp hp with hp | hp
    · obtain ⟨s, hs, rfl⟩ := List.mem_map.mp hp
      obtain ⟨a, _, rfl⟩ := List.mem_map.mp hs
      rfl
    · obtain ⟨s, hs, rfl⟩ := List.mem_map.mp hp
      rcases List.mem_append.mp hs with hs | hs
      · split at hs
        · rw [List.mem_singleton.mp hs]
          exact .inl rfl
        · cases hs
      · split at hs
        · rw [List.mem_singleton.mp hs]
          exact .inr rfl
        · cases hs
  · obtain ⟨s, hs, rfl⟩ := List.mem_map.mp hp
    obtain ⟨before, hbefore, rfl⟩ := List.mem_map.mp (KcpEngine.mem_upto_dead hs)
    exact (KcpEngine.mark_segment_carries _ _ _ _ _).2.1.trans (h.ready clk.now before (List.mem_of_mem_filter hbefore))

/-- What is encoded has a command. -/
theorem commanded_encoded {e : KcpEngine} (h : Pushes e) (ops : List Op) : ∀ p ∈ e.encoded_by ops, Commanded p := by
  unfold KcpEngine.encoded_by
  induction ops generalizing e with
  | nil => exact fun _ hp => absurd hp List.not_mem_nil
  | cons op ops ih =>
    intro p hp
    rcases List.mem_append.mp hp with hp | hp
    · cases op with
      | flush clk => exact commanded_emissions h clk p hp
      | keep_alive_probe clk =>
        have hprobing : Pushes { e with probe := { e.probe with flags := e.probe.flags ||| constants.IKCP_ASK_SEND } } := h
        exact commanded_emissions hprobing clk p hp
      | update now clk =>
        simp only [KcpEngine.numbered_encoded] at hp
        have hupdated : Pushes { e with last_update := now } := h
        split at hp
        · exact commanded_emissions hupdated clk p hp
        · cases hp
      | _ => cases hp
    · exact ih (pushes_step h op) p hp

end Shift

open Shift

/-- Whatever the numbers of the two spaces start from: shifted by `snd` and `rcv`, a run goes
on from the shifted state to the shifted state and returns the same. It encodes the shifted
segments and cuts them into datagrams at the same places. The segments that carry their
engine's own numbers are the PUSHes, those that carry the peer's the ACKs. -/
theorem sequence_wrap (snd rcv : U32) (e : KcpEngine) (ops : List Op) :
    Moved (sequence snd rcv) (Trace.run KcpEngine.step e ops)
        (Trace.run KcpEngine.step ((sequence snd rcv).moved e) (ops.map (sequence snd rcv).op)) ∧
      ((sequence snd rcv).moved e).answers (ops.map (sequence snd rcv).op) = e.answers ops ∧
      ((sequence snd rcv).moved e).encoded_by (ops.map (sequence snd rcv).op) =
        (e.encoded_by ops).map (sequence snd rcv).outgoing ∧
      (((sequence snd rcv).moved e).datagrams (ops.map (sequence snd rcv).op)).map List.length =
        (e.datagrams ops).map List.length ∧
      (((sequence snd rcv).moved e).datagrams (ops.map (sequence snd rcv).op)).flatten ++
          (Trace.run KcpEngine.step ((sequence snd rcv).moved e) (ops.map (sequence snd rcv).op)).out_buf =
        e.emitted ++ ((e.encoded_by ops).map (sequence snd rcv).outgoing).flatMap (fun p => p.2.bytes) ∧
      (Pushes e → ∀ p ∈ e.encoded_by ops, Commanded p) := by
  have hsmooth : Trace.Always KcpEngine.step (Smooth (sequence snd rcv)) e ops :=
    Trace.always_of_forall fun e op _ => smooth_of_clock rfl e op
  obtain ⟨hstate, hanswers, hencoded, hlengths⟩ := moved_run (moved_refl e) hsmooth
  refine ⟨hstate, hanswers, hencoded, hlengths, ?_, fun h => commanded_encoded h ops⟩
  rw [KcpEngine.datagrams_bytes, hencoded]
  rfl

end kcp_core.engine
