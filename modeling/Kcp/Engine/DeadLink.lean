import Kcp.Engine.Configured

open kcp_core.protocol kcp_core.config kcp_core.error

namespace kcp_core.engine

namespace KcpEngine

/-- Some segment still in the buffer has been sent again, after its first
transmission, at least `n` times. `xmit` counts all transmissions. -/
def Retransmitted (e : KcpEngine) (n : Nat) : Prop := ∃ segment ∈ e.snd_buf, n + 1 ≤ segment.xmit.toNat

/-- A call reports a lost connection, or leaves an engine that counts as dead, only if
some segment has been retransmitted `max_retries` times. -/
def LossDeserved (e : KcpEngine) (op : Op) : Prop :=
  (e.outcome op = .error .ConnectionLost ∨ (e.step op).is_dead = true) →
    Retransmitted (e.step op) e.dead_link.toNat

/-- A flush at this reading sends some segment for the `max_retries`-th time: one that is
due and has been sent one time less, or, where one transmission is the limit, a new one. -/
def LastTry (e : KcpEngine) (now : Timestamp) : Prop :=
  (∃ segment ∈ e.snd_buf, mark_of now e.resend_threshold segment ≠ .hold ∧
      segment.xmit.toNat + 1 = e.dead_link.toNat) ∨
    e.dead_link.toNat = 1 ∧ 0 < e.admitted

/-- The call runs a flush that sends some segment for the `max_retries`-th time. -/
def UsesLastTry (e : KcpEngine) (op : Op) : Prop := ∃ clk, e.flush_of op = some clk ∧ LastTry e clk.now

/-! ### Transmission counts through a flush -/

/-- The dead-link test of a flush, on the segments it scans. -/
theorem flush_dies_iff {self : KcpEngine} {current : Timestamp} :
    self.flush_dies current = true ↔ ∃ segment ∈ (self.ready current).snd_buf,
      mark_of current self.resend_threshold segment ≠ .hold ∧ self.dead_link ≤ segment.xmit + 1 := by
  have hresend : (self.ready current).resend_threshold = self.resend_threshold := by rw [ready_eq]; rfl
  unfold flush_dies meets_dead due picked
  rw [hresend]
  simp only [List.any_map, List.any_eq_true, List.mem_filter, decide_eq_true_eq, Function.comp_apply, xmit_mark_segment]
  constructor
  · rintro ⟨segment, ⟨hmem, hmark⟩, hdead⟩
    rw [if_neg hmark] at hdead
    exact ⟨segment, hmem, hmark, hdead⟩
  · rintro ⟨segment, hmem, hmark, hdead⟩
    exact ⟨segment, ⟨hmem, hmark⟩, by rwa [if_neg hmark]⟩

/-! ### Below the threshold -/

/-- No segment in the buffer has been sent `max_retries` times. -/
def Alive (e : KcpEngine) : Prop := ∀ segment ∈ e.snd_buf, segment.xmit.toNat < e.dead_link.toNat

/-- A segment with a try left keeps the link alive. -/
theorem Alive.not_is_dead {e : KcpEngine} (h : Alive e) : e.is_dead = false := by
  rw [← Bool.not_eq_true]
  unfold is_dead
  simp only [List.any_eq_true, decide_eq_true_eq]
  rintro ⟨segment, hmem, hdead⟩
  have := h segment hmem
  rw [BitVec.le_def] at hdead
  omega

/-- The segments that a flush numbers have all their tries. -/
theorem Alive.ready {e : KcpEngine} (h : Alive e) (hpos : 0 < e.dead_link.toNat) (current : Timestamp) :
    ∀ segment ∈ (e.ready current).snd_buf, segment.xmit.toNat < e.dead_link.toNat := by
  intro segment hmem
  rcases mem_ready.mp hmem with hmem | hmem
  · exact h segment hmem
  · rw [xmit_numbered e _ _ _ segment hmem]
    exact hpos

theorem toNat_add_one_of_lt {x limit : U32} (h : x.toNat < limit.toNat) : (x + 1).toNat = x.toNat + 1 := by
  have hlimit := limit.isLt
  rw [BitVec.toNat_add]
  exact Nat.mod_eq_of_lt (by change x.toNat + 1 < 2 ^ 32; omega)

/-- Below the threshold, a flush reports a lost connection exactly when it uses a last try. -/
theorem Alive.flush_dies_iff {e : KcpEngine} (h : Alive e) (hpos : 0 < e.dead_link.toNat) {current : Timestamp} :
    e.flush_dies current = true ↔ LastTry e current := by
  rw [KcpEngine.flush_dies_iff]
  constructor
  · rintro ⟨segment, hmem, hmark, hdead⟩
    have hlt := h.ready hpos current segment hmem
    rw [BitVec.le_def, toNat_add_one_of_lt hlt] at hdead
    rcases mem_ready.mp hmem with hmem | hmem
    · exact .inl ⟨segment, hmem, hmark, by omega⟩
    · have hzero := xmit_numbered e _ _ _ segment hmem
      have hlen := List.length_pos_of_mem hmem
      rw [length_numbered, List.length_take] at hlen
      rw [hzero] at hdead hlt
      change 0 < e.dead_link.toNat at hlt
      change e.dead_link.toNat ≤ 0 + 1 at hdead
      exact .inr ⟨by omega, by omega⟩
  · rintro (⟨segment, hmem, hmark, hlast⟩ | ⟨hone, hadmitted⟩)
    · have hlt := h segment hmem
      refine ⟨segment, mem_ready.mpr (.inl hmem), hmark, ?_⟩
      rw [BitVec.le_def, toNat_add_one_of_lt hlt]
      omega
    · have hlen := e.admitted_le
      have hnew : 0 < (e.numbered current e.snd_nxt (e.snd_queue.take e.admitted)).length := by
        rw [length_numbered, List.length_take]
        omega
      obtain ⟨segment, hmem⟩ := List.exists_mem_of_length_pos hnew
      have hzero := xmit_numbered e _ _ _ segment hmem
      refine ⟨segment, mem_ready.mpr (.inr hmem), ?_, ?_⟩
      · unfold mark_of
        rw [if_pos hzero]
        decide
      · rw [hzero, BitVec.le_def, hone]
        decide

/-- The transmission counts a flush leaves are at most one higher. -/
theorem Alive.xmit_flush {e : KcpEngine} (h : Alive e) (hpos : 0 < e.dead_link.toNat) (clk : Clock) :
    ∀ segment ∈ (e.flush clk).1.snd_buf, segment.xmit.toNat ≤ e.dead_link.toNat ∧
      (¬ LastTry e clk.now → segment.xmit.toNat < e.dead_link.toNat) := by
  obtain ⟨queue, buf, stats, heq⟩ := e.flush_shape clk
  rw [heq]
  intro segment hmem
  obtain ⟨scanned, hscanned, rfl⟩ := List.mem_map.mp hmem
  have hready : scanned ∈ (e.ready clk.now).snd_buf := by rw [ready_eq]; exact hscanned
  have hlt := h.ready hpos clk.now scanned hready
  rw [xmit_mark_segment]
  by_cases hmark : mark_of clk.now e.resend_threshold scanned = .hold
  · rw [if_pos hmark]
    exact ⟨hlt.le, fun _ => hlt⟩
  · rw [if_neg hmark, toNat_add_one_of_lt hlt]
    refine ⟨hlt, fun hlast => ?_⟩
    by_contra hfull
    apply hlast
    rw [← h.flush_dies_iff hpos, KcpEngine.flush_dies_iff]
    exact ⟨scanned, hready, hmark, by rw [BitVec.le_def, toNat_add_one_of_lt hlt]; omega⟩

/-! ### One step -/

/-- A call that runs no flush reports no lost connection and sends nothing. -/
theorem step_of_no_flush {self : KcpEngine} {op : Op} (h : self.flush_of op = none) :
    self.outcome op ≠ .error .ConnectionLost ∧
      (∀ segment ∈ (self.step op).snd_buf, ∃ before ∈ self.snd_buf, segment.xmit = before.xmit) ∧
      (self.step op).dead_link = self.dead_link := by
  cases op with
  | flush c => simp [flush_of] at h
  | keep_alive_probe c => simp [flush_of] at h
  | send clk data =>
    obtain ⟨queue, sent, heq⟩ := self.send_shape clk data
    refine ⟨?_, ?_, ?_⟩
    · simp only [outcome, send]
      split_ifs <;> simp
    · simp only [step, heq]
      exact fun segment hmem => ⟨segment, hmem, rfl⟩
    · simp only [step, heq]
  | recv =>
    obtain ⟨queue, buf, nxt, flags, received, heq⟩ := self.recv_shape
    refine ⟨by simp [outcome], ?_, ?_⟩
    · simp only [step, heq]
      exact fun segment hmem => ⟨segment, hmem, rfl⟩
    · simp only [step, heq]
  | input now data =>
    refine ⟨?_, ?_, (self.inputFrame_input now data).dead_link⟩
    · by_cases hshort : data.length < KcpHeader.SIZE
      · simp [outcome, input_short hshort]
      · simp [outcome, input_eq hshort]
    · obtain ⟨kept, hsub, hcounted, _⟩ := self.input_snd_buf now data
      intro segment hmem
      have hxmit : segment.xmit ∈ kept.map KcpSegment.xmit := by
        rw [← forall₂_counted_map (fun _ _ => rfl) hcounted]
        exact List.mem_map_of_mem hmem
      obtain ⟨before, hbefore, heq⟩ := List.mem_map.mp hxmit
      exact ⟨before, hsub.subset hbefore, heq.symm⟩
  | update now c =>
    obtain ⟨last, heq⟩ := update_of_no_flush h
    refine ⟨by simp [outcome, heq], ?_, ?_⟩
    · simp only [step, heq]
      exact fun segment hmem => ⟨segment, hmem, rfl⟩
    · simp only [step, heq]
  | drain_output => exact ⟨by simp [outcome], fun segment hmem => ⟨segment, hmem, rfl⟩, rfl⟩
  | set_conv conv => exact ⟨by simp [outcome], fun segment hmem => ⟨segment, hmem, rfl⟩, rfl⟩

/-- One step from a state below the threshold: unless it uses a last try it stays below
and reports nothing, and if it does it reports a loss too early. -/
theorem alive_step {self : KcpEngine} (h : Alive self) (hpos : 0 < self.dead_link.toNat) (op : Op) :
    (LossDeserved self op ↔ ¬ UsesLastTry self op) ∧ (¬ UsesLastTry self op → Alive (self.step op)) := by
  cases hflush : self.flush_of op with
  | none =>
    obtain ⟨hok, hxmit, hlink⟩ := step_of_no_flush hflush
    have hnone : ¬ UsesLastTry self op := by
      rintro ⟨clk, hclk, _⟩
      rw [hflush] at hclk
      cases hclk
    have halive : Alive (self.step op) := by
      intro segment hmem
      obtain ⟨before, hbefore, heq⟩ := hxmit segment hmem
      rw [heq, hlink]
      exact h before hbefore
    refine ⟨⟨fun _ => hnone, fun _ => ?_⟩, fun _ => halive⟩
    rintro (hlost | hdead)
    · exact absurd hlost hok
    · rw [halive.not_is_dead] at hdead
      cases hdead
  | some clk =>
    obtain ⟨last, flags, hstep, houtcome⟩ := step_of_flush_of hflush
    have hset : Alive { self with last_update := last, probe := { self.probe with flags } } := h
    have huses : UsesLastTry self op ↔
        LastTry { self with last_update := last, probe := { self.probe with flags } } clk.now := by
      constructor
      · rintro ⟨other, hother, hlast⟩
        rw [hflush, Option.some.injEq] at hother
        subst hother
        exact hlast
      · exact fun hlast => ⟨clk, hflush, hlast⟩
    have hcounts := hset.xmit_flush hpos clk
    have hlink : (self.step op).dead_link = self.dead_link := by
      obtain ⟨queue, buf, stats, heq⟩ :=
        flush_shape { self with last_update := last, probe := { self.probe with flags } } clk
      rw [hstep, heq]
    have halive : ¬ UsesLastTry self op → Alive (self.step op) := by
      intro hnone segment hmem
      rw [hlink]
      rw [hstep] at hmem
      exact (hcounts segment hmem).2 (fun hlast => hnone (huses.mpr hlast))
    refine ⟨⟨?_, ?_⟩, halive⟩
    · intro hdeserved huse
      have hdies := (hset.flush_dies_iff hpos).mpr (huses.mp huse)
      have hlost : self.outcome op = .error .ConnectionLost := by rw [houtcome, flush_result, if_pos hdies]
      obtain ⟨segment, hmem, hretried⟩ := hdeserved (.inl hlost)
      rw [hstep] at hmem
      have hbound : segment.xmit.toNat ≤ self.dead_link.toNat := (hcounts segment hmem).1
      omega
    · rintro hnone (hlost | hdead)
      · have hdies : ¬ flush_dies { self with last_update := last, probe := { self.probe with flags } } clk.now := by
          rw [hset.flush_dies_iff hpos, ← huses]
          exact hnone
        rw [houtcome, flush_result, if_neg hdies] at hlost
        cases hlost
      · rw [(halive hnone).not_is_dead] at hdead
        cases hdead

end KcpEngine

open KcpEngine

/-! ### Runs -/

/-- The limit of accepted settings is positive. -/
theorem Start.dead_link_pos (start : Start) (ops : List Op) : 0 < (start.reached ops).dead_link.toNat := by
  rw [(start.configured ops).dead_link]
  exact start.accepted.retries_pos

/-- While no flush uses a last try, every segment has one. -/
theorem Start.alive (start : Start) (ops : List Op)
    (h : Trace.Always KcpEngine.step (fun e op => ¬ UsesLastTry e op) start.fresh ops) : Alive (start.reached ops) := by
  apply Trace.invariant_of_always (P := fun _ e => Alive e) _ _ h
  · intro segment hmem
    cases hmem
  · intro ops op halive hnone
    exact (alive_step halive (start.dead_link_pos ops) op).2 hnone

/-- A run reports a lost connection, or reaches a dead engine, only after `max_retries`
retransmissions of some segment, exactly when no flush of the run sends a segment for
the `max_retries`-th time. -/
theorem loss_deserved_iff (start : Start) (ops : List Op) :
    Trace.Always KcpEngine.step LossDeserved start.fresh ops ↔
      Trace.Always KcpEngine.step (fun e op => ¬ UsesLastTry e op) start.fresh ops := by
  induction ops using List.reverseRecOn with
  | nil => simp
  | append_singleton ops op ih =>
    rw [Trace.always_concat, Trace.always_concat, ih]
    constructor
    · rintro ⟨hbefore, hlast⟩
      exact ⟨hbefore, ((alive_step (start.alive ops hbefore) (start.dead_link_pos ops) op).1).mp hlast⟩
    · rintro ⟨hbefore, hlast⟩
      exact ⟨hbefore, ((alive_step (start.alive ops hbefore) (start.dead_link_pos ops) op).1).mpr hlast⟩

/-- An engine that allows one retransmission. -/
def one_retry : Start where
  conv := 7
  config := { kcp_tokio.config.KcpConfig.default with max_retries := 1, accepted := rfl }
  updated := 0
  active := 0

/-- With one retransmission allowed, the first transmission already ends the connection:
the flush fails and the engine counts as dead, though nothing was sent twice. -/
theorem loss_after_first_transmission :
    (one_retry.reached [.send (.at 0) [1]]).outcome (.flush (.at 0)) = .error .ConnectionLost ∧
      (one_retry.reached [.send (.at 0) [1], .flush (.at 0)]).is_dead = true ∧
      ¬ Retransmitted (one_retry.reached [.send (.at 0) [1], .flush (.at 0)]) 1 := by
  unfold Retransmitted
  decide

end kcp_core.engine
