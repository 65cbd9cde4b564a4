import Kcp.Engine.Origin

open kcp_core.protocol kcp_core.config kcp_core.error

/-! The round-trip estimator: what a sequence of samples makes of it. -/

namespace kcp_core.engine

namespace KcpEngine

/-- A sample as `update_ack` counts it. -/
def clamped (sample : Int) : Nat := (max 0 (min sample constants.IKCP_RTO_MAX.toInt)).toNat

/-- A sample counts for a minute at most. -/
theorem clamped_le (sample : Int) : clamped sample ≤ 60000 := by
  have hmax : constants.IKCP_RTO_MAX.toInt = 60000 := by decide
  unfold clamped
  omega

/-- As a word it is the same number. -/
theorem toNat_ofInt_clamped (sample : Int) :
    (BitVec.ofInt 32 (max 0 (min sample constants.IKCP_RTO_MAX.toInt))).toNat = clamped sample := by
  have hmax : constants.IKCP_RTO_MAX.toInt = 60000 := by decide
  exact Word.toNat_ofInt (by omega) (by omega)

/-! ### One sample -/

/-- The first sample, or one after an average of zero, is taken as it is. -/
theorem update_ack_first {e : KcpEngine} (h : e.rtt.avg = 0) (sample : Int) :
    (e.update_ack sample).rtt.avg.toNat = clamped sample ∧ (e.update_ack sample).rtt.var.toNat = clamped sample / 2 := by
  unfold update_ack
  dsimp only
  rw [if_pos h]
  refine ⟨toNat_ofInt_clamped sample, ?_⟩
  rw [BitVec.toNat_udiv, toNat_ofInt_clamped]
  rfl

/-- Any other sample moves the average by an eighth, and the variance by a quarter. -/
theorem update_ack_next {e : KcpEngine} (h : e.rtt.avg ≠ 0) (havg : e.rtt.avg.toNat ≤ 60000)
    (hvar : e.rtt.var.toNat ≤ 60000) (sample : Int) :
    (e.update_ack sample).rtt.avg.toNat = max 1 ((7 * e.rtt.avg.toNat + clamped sample) / 8) ∧
      (e.update_ack sample).rtt.var.toNat =
        (3 * e.rtt.var.toNat + (max e.rtt.avg.toNat (clamped sample) - min e.rtt.avg.toNat (clamped sample))) / 4 := by
  have hsample := toNat_ofInt_clamped sample
  have hle := clamped_le sample
  have hint : e.rtt.avg.toInt = e.rtt.avg.toNat := BitVec.toInt_eq_toNat_of_lt (by omega)
  have hmax : constants.IKCP_RTO_MAX.toInt = 60000 := by decide
  obtain ⟨delta, hdelta, hdist⟩ : ∃ delta : Int,
      (if e.rtt.avg.toInt < max 0 (min sample constants.IKCP_RTO_MAX.toInt) then
          max 0 (min sample constants.IKCP_RTO_MAX.toInt) - e.rtt.avg.toInt
        else e.rtt.avg.toInt - max 0 (min sample constants.IKCP_RTO_MAX.toInt)) = delta ∧
      (BitVec.ofInt 32 delta).toNat =
        max e.rtt.avg.toNat (clamped sample) - min e.rtt.avg.toNat (clamped sample) := by
    refine ⟨_, rfl, ?_⟩
    unfold clamped at hle ⊢
    rw [hint, Word.toNat_ofInt (by omega) (by omega)]
    omega
  have hthree : (3 * e.rtt.var).toNat = 3 * e.rtt.var.toNat :=
    Word.toNat_mul_of_lt (by change 3 * e.rtt.var.toNat < _; omega)
  have hseven : (7 * e.rtt.avg).toNat = 7 * e.rtt.avg.toNat :=
    Word.toNat_mul_of_lt (by change 7 * e.rtt.avg.toNat < _; omega)
  unfold update_ack
  dsimp only
  rw [if_neg h, hdelta]
  dsimp only
  constructor
  · have heighth : ((7 * e.rtt.avg + BitVec.ofInt 32 (max 0 (min sample constants.IKCP_RTO_MAX.toInt))) / 8).toNat =
        (7 * e.rtt.avg.toNat + clamped sample) / 8 := by
      rw [BitVec.toNat_udiv, Word.toNat_add_of_lt (by rw [hseven, hsample]; omega), hseven, hsample]
      rfl
    split
    · next hlow =>
      rw [BitVec.lt_def, heighth] at hlow
      change _ < 1 at hlow
      change 1 = _
      omega
    · next hhigh =>
      rw [BitVec.lt_def, heighth] at hhigh
      change ¬ _ < 1 at hhigh
      rw [heighth]
      omega
  · rw [BitVec.toNat_udiv, Word.toNat_add_of_lt (by rw [hthree, hdist]; omega), hthree, hdist]
    rfl

/-- The retransmission timeout is between its limits, and no shorter than the average. -/
theorem update_ack_rto {e : KcpEngine} (hmode : e.config.nodelay.IsPreset) (hmin : e.rtt.min_rto.toNat ≤ 60000)
    (sample : Int) (havg : (e.update_ack sample).rtt.avg.toNat ≤ 60000)
    (hvar : (e.update_ack sample).rtt.var.toNat ≤ 60000) :
    e.rtt.min_rto.toNat ≤ (e.update_ack sample).rtt.rto.toNat ∧ (e.update_ack sample).rtt.rto.toNat ≤ 60000 ∧
      (e.update_ack sample).rtt.avg.toNat ≤ (e.update_ack sample).rtt.rto.toNat := by
  obtain ⟨avg, var, rto, heq⟩ := e.update_ack_shape sample
  have hrto : (e.update_ack sample).rtt.rto = Word.clamp ((e.update_ack sample).rtt.avg +
      max e.config.nodelay.interval (4 * (e.update_ack sample).rtt.var)) e.rtt.min_rto constants.IKCP_RTO_MAX := rfl
  have hinterval : e.config.nodelay.interval.toNat ≤ 40 := by
    rcases hmode with h | h | h | h <;> rw [h] <;> decide
  have hfour : (4 * (e.update_ack sample).rtt.var).toNat = 4 * (e.update_ack sample).rtt.var.toNat :=
    Word.toNat_mul_of_lt (by change 4 * (e.update_ack sample).rtt.var.toNat < _; omega)
  have hsum : ((e.update_ack sample).rtt.avg +
      max e.config.nodelay.interval (4 * (e.update_ack sample).rtt.var)).toNat =
        (e.update_ack sample).rtt.avg.toNat +
          max e.config.nodelay.interval.toNat (4 * (e.update_ack sample).rtt.var.toNat) := by
    rw [Word.toNat_add_of_lt, Word.toNat_max, hfour]
    rw [Word.toNat_max, hfour]
    omega
  have hlimit : constants.IKCP_RTO_MAX.toNat = 60000 := rfl
  rw [hrto]
  unfold Word.clamp
  split
  · next hlow =>
    rw [BitVec.lt_def, hsum] at hlow
    omega
  · next hlow =>
    rw [BitVec.lt_def, hsum] at hlow
    split
    · omega
    · next hhigh =>
      rw [BitVec.lt_def, hsum, hlimit] at hhigh
      omega

/-! ### A sequence of samples -/

/-- The estimate is no higher than the samples so far, and once there was one, no lower. -/
structure Estimate (lo hi : Nat) (rtt : RttState) : Prop where
  avg_le : rtt.avg.toNat ≤ hi
  var_le : rtt.var.toNat ≤ hi
  avg_ge : rtt.avg = 0 ∨ lo ≤ rtt.avg.toNat

/-- A sample within the bounds keeps the estimate within them. -/
theorem Estimate.update_ack {lo hi : Nat} {e : KcpEngine} (h : Estimate lo hi e.rtt) (hhi : hi ≤ 60000) {sample : Int}
    (hlow : lo ≤ clamped sample) (hhigh : clamped sample ≤ hi) :
    Estimate lo hi (e.update_ack sample).rtt ∧ lo ≤ (e.update_ack sample).rtt.avg.toNat := by
  have havg := h.avg_le
  have hvar := h.var_le
  by_cases hzero : e.rtt.avg = 0
  · obtain ⟨hfirst, hhalf⟩ := update_ack_first hzero sample
    exact ⟨⟨by omega, by omega, .inr (by omega)⟩, by omega⟩
  · obtain ⟨hnext, hspread⟩ := update_ack_next hzero (by omega) (by omega) sample
    have hge := h.avg_ge.resolve_left hzero
    have hpos : 0 < e.rtt.avg.toNat := Nat.pos_of_ne_zero fun hnot => hzero (BitVec.eq_of_toNat_eq hnot)
    exact ⟨⟨by omega, by omega, .inr (by omega)⟩, by omega⟩

/-- The samples touch neither the settings nor the lower limit of the timeout. -/
theorem foldl_update_ack_frame (e : KcpEngine) (samples : List Int) :
    (samples.foldl update_ack e).config = e.config ∧ (samples.foldl update_ack e).rtt.min_rto = e.rtt.min_rto := by
  induction samples generalizing e with
  | nil => exact ⟨rfl, rfl⟩
  | cons sample samples ih => exact ih (e.update_ack sample)

/-- Samples within the bounds keep the estimate within them. -/
theorem estimate_foldl {lo hi : Nat} {e : KcpEngine} (h : Estimate lo hi e.rtt) (hhi : hi ≤ 60000) {samples : List Int}
    (hbounds : ∀ sample ∈ samples, lo ≤ clamped sample ∧ clamped sample ≤ hi) :
    Estimate lo hi (samples.foldl update_ack e).rtt := by
  induction samples generalizing e with
  | nil => exact h
  | cons sample samples ih =>
    obtain ⟨hlow, hhigh⟩ := hbounds sample List.mem_cons_self
    exact ih (h.update_ack hhi hlow hhigh).1 fun s hs => hbounds s (List.mem_cons_of_mem sample hs)

/-! ### The samples of a run -/

/-- What a sample makes of the estimate depends on the estimate and the settings. -/
theorem update_ack_congr {e e' : KcpEngine} (hrtt : e'.rtt = e.rtt) (hconfig : e'.config = e.config) (sample : Int) :
    (e'.update_ack sample).rtt = (e.update_ack sample).rtt := by
  unfold KcpEngine.update_ack
  dsimp only
  rw [hrtt, hconfig]

/-- The estimate of `e'` is what some samples make of that of `e`. -/
def Sampled (e e' : KcpEngine) : Prop :=
  e'.config = e.config ∧ ∃ samples : List Int, e'.rtt = (samples.foldl update_ack e).rtt

theorem Sampled.refl (e : KcpEngine) : Sampled e e := ⟨rfl, [], rfl⟩

theorem Sampled.congr {e first second : KcpEngine} (h : Sampled e first) (hrtt : second.rtt = first.rtt)
    (hconfig : second.config = first.config) : Sampled e second := by
  obtain ⟨hsame, samples, heq⟩ := h
  exact ⟨hconfig.trans hsame, samples, hrtt.trans heq⟩

/-- One sample more. -/
theorem Sampled.update_ack {e e' : KcpEngine} (h : Sampled e e') (sample : Int) : Sampled e (e'.update_ack sample) := by
  obtain ⟨hsame, samples, heq⟩ := h
  refine ⟨hsame, samples ++ [sample], ?_⟩
  rw [List.foldl_concat]
  exact update_ack_congr heq (hsame.trans (foldl_update_ack_frame e samples).1.symm) sample

/-- A datagram takes samples, and changes the estimate in no other way. -/
theorem Sampled.input {e e' : KcpEngine} (h : Sampled e e') (current : Timestamp) (data : Bytes) :
    Sampled e (e'.input current data).1 := by
  by_cases hshort : data.length < KcpHeader.SIZE
  · rw [input_short hshort]
    exact h.congr rfl rfl
  · rw [input_eq hshort]
    have hloop : Sampled e (e'.input_loop current data).1 := by
      apply input_loop_rule
      · intro segment _ acc hacc
        apply input_segment_rule (P := Sampled e)
        · exact fun _ _ h => h.congr rfl rfl
        · exact fun _ h => h.congr rfl rfl
        · intro _ e'' h
          have hack : ∀ e'' : KcpEngine, Sampled e e'' → Sampled e (e''.parse_ack segment.header.sn) := by
            intro e'' h
            obtain ⟨buf, heq, _⟩ := e''.parse_ack_shape segment.header.sn
            rw [heq]
            exact h.congr rfl rfl
          unfold input_ack
          split
          · exact hack _ (h.update_ack _)
          · exact hack _ h
        · intro _ e'' h
          obtain ⟨queue, buf, nxt, acks, heq⟩ := e''.input_push_shape segment
          rw [heq]
          exact h.congr rfl rfl
        · exact fun _ h => h.congr rfl rfl
        · exact hacc
      · exact h.congr rfl rfl
    obtain ⟨buf, cwnd, incr, received, hfinish, _⟩ := input_finish_shape
      (e'.input_loop current data).1 e'.snd_una (e'.input_loop current data).2
    rw [hfinish]
    exact hloop.congr rfl rfl

/-- Every call changes the estimate by samples alone. -/
theorem Sampled.step {e e' : KcpEngine} (h : Sampled e e') (op : Op) : Sampled e (e'.step op) := by
  apply step_rule (P := Sampled e) op
  · intro clk data _
    obtain ⟨queue, sent, heq⟩ := e'.send_shape clk data
    rw [heq]
    exact h.congr rfl rfl
  · intro _
    obtain ⟨queue, buf, nxt, flags, received, heq⟩ := e'.recv_shape
    rw [heq]
    exact h.congr rfl rfl
  · exact fun now data _ => h.input now data
  · intro last flags clk _
    obtain ⟨queue, buf, stats, heq⟩ := flush_shape { e' with last_update := last, probe := { e'.probe with flags } } clk
    rw [heq]
    exact h.congr rfl rfl
  · exact fun _ => h.congr rfl rfl
  · exact h.congr rfl rfl
  · exact fun _ => h.congr rfl rfl

end KcpEngine

open KcpEngine

/-- Whatever the calls, the estimate of an engine is what some samples make of a new one. -/
theorem Origin.sampled (origin : Origin) (ops : List Op) : Sampled origin.fresh (origin.reached ops) := by
  apply Trace.invariant (P := fun _ e => Sampled origin.fresh e)
  · exact .refl _
  · exact fun _ op h => h.step op

/-- With one of the named modes, after any samples but none at all, the average is between the
smallest and the largest of them, the variance is no larger than the largest, and the timeout
is between its limits and no shorter than the average. -/
theorem estimator_bounds (origin : Origin) (hmode : origin.config.nodelay.IsPreset) (samples : List Int)
    (hsome : samples ≠ []) :
    (samples.map clamped).min (mt List.map_eq_nil_iff.mp hsome) ≤ (samples.foldl update_ack origin.fresh).rtt.avg.toNat ∧
      (samples.foldl update_ack origin.fresh).rtt.avg.toNat ≤ (samples.map clamped).max (mt List.map_eq_nil_iff.mp hsome) ∧
      (samples.foldl update_ack origin.fresh).rtt.var.toNat ≤ (samples.map clamped).max (mt List.map_eq_nil_iff.mp hsome) ∧
      origin.fresh.rtt.min_rto.toNat ≤ (samples.foldl update_ack origin.fresh).rtt.rto.toNat ∧
      (samples.foldl update_ack origin.fresh).rtt.rto.toNat ≤ 60000 ∧
      (samples.foldl update_ack origin.fresh).rtt.avg.toNat ≤ (samples.foldl update_ack origin.fresh).rtt.rto.toNat := by
  have hmapped : samples.map clamped ≠ [] := mt List.map_eq_nil_iff.mp hsome
  obtain ⟨lo, hlo⟩ : ∃ lo, (samples.map clamped).min hmapped = lo := ⟨_, rfl⟩
  obtain ⟨hi, hhi⟩ : ∃ hi, (samples.map clamped).max hmapped = hi := ⟨_, rfl⟩
  have hbounds : ∀ sample ∈ samples, lo ≤ clamped sample ∧ clamped sample ≤ hi := by
    intro sample hsample
    have hmem := List.mem_map_of_mem (f := clamped) hsample
    exact ⟨hlo ▸ List.min_le_of_mem hmem, hhi ▸ List.le_max_of_mem hmem⟩
  have hlimit : hi ≤ 60000 := by
    obtain ⟨sample, _, heq⟩ := List.mem_map.mp (List.max_mem hmapped)
    rw [← hhi, ← heq]
    exact clamped_le sample
  rw [hlo, hhi]
  induction samples using List.reverseRecOn with
  | nil => exact absurd rfl hsome
  | append_singleton samples sample _ =>
    rw [List.foldl_concat]
    obtain ⟨hconfig, hmin⟩ := foldl_update_ack_frame origin.fresh samples
    have hbefore : Estimate lo hi (samples.foldl update_ack origin.fresh).rtt := by
      apply estimate_foldl _ hlimit fun s hs => hbounds s (List.mem_append_left _ hs)
      exact ⟨Nat.zero_le hi, Nat.zero_le hi, .inl rfl⟩
    obtain ⟨hlow, hhigh⟩ := hbounds sample (List.mem_append_right _ (List.mem_singleton_self sample))
    obtain ⟨hafter, hge⟩ := hbefore.update_ack hlimit hlow hhigh
    have hfloor : (samples.foldl update_ack origin.fresh).rtt.min_rto.toNat ≤ 60000 := by
      rw [hmin]
      unfold Origin.fresh KcpEngine.new
      dsimp only
      split <;> decide
    obtain ⟨hrto, hcap, hcover⟩ := update_ack_rto (by rw [hconfig]; exact hmode) hfloor sample
      (hafter.avg_le.trans hlimit) (hafter.var_le.trans hlimit)
    rw [hmin] at hrto
    exact ⟨hge, hafter.avg_le, hafter.var_le, hrto, hcap, hcover⟩

/-- A lost sample, one out of range, and one of zero. -/
theorem estimator_bounds_wild :
    ([-5, 100000, 0].foldl update_ack plain.origin.fresh).rtt.avg.toNat ≤
      ([-5, 100000, 0].map clamped).max (List.cons_ne_nil _ _) :=
  (estimator_bounds plain.origin (.inl rfl) [-5, 100000, 0] (by decide)).2.1

end kcp_core.engine
