import Kcp.Engine.Sleep
import Kcp.Engine.Wrap

open kcp_core.protocol kcp_core.config kcp_core.error

namespace kcp_core.engine

open Shift

namespace KcpEngine

/-! ### A flush that changes nothing -/

/-- There is nothing a flush could do: no ACK and no probe to send, a probe timer that is off
or still running, no segment due and none let in, nothing to close, and statistics that
are up to date. -/
structure Quiet (e : KcpEngine) (now : Timestamp) : Prop where
  acks : e.ack_list = []
  flags : e.probe.flags = 0
  off : e.wnd.rmt ≠ 0 → e.probe.wait = 0 ∧ e.probe.ts = 0
  running : e.wnd.rmt = 0 → e.probe.wait ≠ 0 ∧ time_diff now e.probe.ts < 0
  nothing : NothingDue e now
  open_wnd : ¬ e.wnd.cwnd < 1
  packed : e.out_buf = []
  reported : e.stats = e.reported

/-- A flush that has nothing to do does nothing. -/
theorem Quiet.flush {e : KcpEngine} {clk : Clock} (h : Quiet e clk.now) :
    e.emissions clk = [] ∧ e.flush clk = (e, .ok ()) := by
  have htimer := probe_timer_still h.off h.running
  obtain ⟨hemit, heq⟩ := flush_nothing h.acks h.flags htimer h.nothing h.open_wnd h.packed
  have hsame : e.with_stats e.reported = e := by
    rw [← h.reported]
    rfl
  exact ⟨hemit, by rw [heq, hsame]⟩

/-- A flush that goes through and changes at most the output, with nothing more to hand over,
had nothing to do. -/
theorem quiet_of_flush {e : KcpEngine} {clk : Clock} {out : List Bytes × Bytes} (hcut : SameCut (output e) out)
    (hok : (e.flush clk).2 = .ok ()) (hsame : (e.flush clk).1 = { e with output_queue := out.1, out_buf := out.2 }) :
    Quiet e clk.now := by
  have hlives : ¬ e.flush_dies clk.now = true := by
    intro hdies
    rw [flush_result, if_pos hdies] at hok
    cases hok
  have hdone : e.flush_done clk = { e with output_queue := out.1, out_buf := out.2 } := by
    rw [← hsame, flush_eq, if_neg hlives]
  have hsent := (e.flush_counters clk).packets_sent
  have hreported : (e.flush_done clk).stats = (e.flush_done clk).reported := by
    unfold flush_done
    exact (reported_update_congestion_control _).symm
  rw [hsame] at hsent
  rw [hdone] at hreported
  have hemit : e.emissions clk = [] := List.length_eq_zero_iff.mp (by dsimp only at hsent; omega)
  obtain ⟨queue, buf, stats, hshape⟩ := e.flush_shape clk
  rw [hsame] at hshape
  have hacks : e.ack_list = [] := congrArg KcpEngine.ack_list hshape
  have hprobe : e.probe = { e.probe_timer clk.now with flags := 0 } := congrArg KcpEngine.probe hshape
  have hwnd : e.wnd = e.flushed_wnd clk.now := congrArg KcpEngine.wnd hshape
  have hnone : NothingDue e clk.now := by
    have hdue := (List.append_eq_nil_iff.mp hemit).2
    exact (e.due_ready_eq_nil_iff clk.now).mp ((upto_dead_eq_nil_iff e.dead_link).mp hdue)
  have hsilent : (e.probe_timer clk.now).flags &&& constants.IKCP_ASK_SEND = 0 := by
    by_contra hask
    have hprobes := (List.append_eq_nil_iff.mp (List.append_eq_nil_iff.mp hemit).1).2
    unfold probes_out at hprobes
    dsimp only at hprobes
    rw [if_pos hask] at hprobes
    cases hprobes
  have hpacked : e.out_buf = [] := by
    have hclosed : (e.flush_done clk).out_buf = [] := out_buf_flush_out_buf _
    rw [hdone] at hclosed
    have hlen := hcut.buf
    dsimp only [output] at hclosed hlen
    rw [hclosed] at hlen
    exact List.length_eq_zero_iff.mp hlen.symm
  refine ⟨hacks, ?_, ?_, ?_, hnone, ?_, hpacked, hreported⟩
  · rw [hprobe]
  · intro hrmt
    rw [hprobe, probe_timer_open hrmt]
    exact ⟨rfl, rfl⟩
  · intro hrmt
    have hwait := congrArg ProbeState.wait hprobe
    unfold probe_timer at hwait hsilent
    rw [if_pos hrmt] at hwait hsilent
    by_cases hunarmed : e.probe.wait = 0
    · rw [if_pos hunarmed] at hwait
      exact ((by decide : (0 : U32) ≠ constants.IKCP_PROBE_INIT) (hunarmed.symm.trans hwait)).elim
    · refine ⟨hunarmed, ?_⟩
      by_contra hdue
      rw [if_neg hunarmed, if_pos (by omega)] at hsilent
      exact asked_self _ (by decide) hsilent
  · rw [hwnd]
    unfold flushed_wnd
    rw [if_neg hlives]
    apply floor_wnd_pos

end KcpEngine

/-! ### Shifting the clock -/

/-- Only the clock moves. -/
def ticks (k : U32) : Shift where
  clock := k
  snd := 0
  rcv := 0

theorem Shift.SameCut.symm {first second : List Bytes × Bytes} (h : SameCut first second) : SameCut second first :=
  ⟨h.queue.symm, h.buf.symm⟩

theorem Shift.SameCut.trans {first second third : List Bytes × Bytes} (h : SameCut first second) (h' : SameCut second third) :
    SameCut first third := ⟨h'.queue.trans h.queue, h'.buf.trans h.buf⟩

section

variable {k : U32} {e : KcpEngine} {now : Timestamp}

/-! #### `flush` -/

/-- A flush leaves the probe timer as it set it. -/
theorem probe_flush (e : KcpEngine) (clk : Clock) :
    (e.flush clk).1.probe = { e.probe_timer clk.now with flags := 0 } := by
  obtain ⟨queue, buf, stats, hshape⟩ := e.flush_shape clk
  rw [hshape]

/-- What an overgrown timer becomes when it expires. -/
theorem overgrown_timer (hrmt : e.wnd.rmt = 0) (hwait : e.probe.wait = 0xAAAAAAAB) (hdue : 0 ≤ time_diff now e.probe.ts) :
    (e.probe_timer now).wait = 0 ∧ (e.probe_timer now).ts = now := by
  have hunarmed : e.probe.wait ≠ 0 := by
    rw [hwait]
    decide
  have hover := (backoff_eq_zero_iff e.probe.wait).mpr hwait
  unfold KcpEngine.probe_timer
  rw [if_pos hrmt, if_neg hunarmed, if_pos hdue]
  exact ⟨hover, by change now + backoff e.probe.wait = now; rw [hover, add_zero]⟩

/-- A flush can tell the moved clock only where the probe timer is set to zero. -/
theorem commutes_flush_iff (clk : Clock) :
    Commutes (ticks k) e ((ticks k).moved e) (.flush clk) ↔ k = 0 ∨ ¬ Overgrown e clk.now := by
  constructor
  · intro h
    by_contra hnot
    rw [not_or, not_not] at hnot
    obtain ⟨hk, hnow, hrmt, hwait, hdue⟩ := hnot
    obtain ⟨hoff, hts⟩ := overgrown_timer hrmt hwait hdue
    -- the timer of the engine ends up unscheduled, the one of the moved engine at `k`
    obtain ⟨out, _, heq⟩ := h.state
    have hprobe : ((((ticks k).moved e).flush ((ticks k).clk clk)).1).probe = (ticks k).probe (e.flush clk).1.probe :=
      congrArg KcpEngine.probe heq
    rw [probe_flush, probe_flush, Shift.probe, if_pos ⟨hoff, hts.trans hnow⟩] at hprobe
    have hmoved : ((ticks k).moved e).probe.wait = 0xAAAAAAAB := (wait_probe _).trans hwait
    have hlater : 0 ≤ time_diff (clk.now + k) ((ticks k).moved e).probe.ts := by
      have hunarmed : e.probe.wait ≠ 0 := by
        rw [hwait]
        decide
      change 0 ≤ time_diff (clk.now + k) ((ticks k).probe e.probe).ts
      rw [probe_of_wait hunarmed]
      exact (time_diff_add clk.now e.probe.ts k).symm ▸ hdue
    obtain ⟨_, hts'⟩ := overgrown_timer (e := (ticks k).moved e) hrmt hmoved hlater
    have hzero : clk.now + k = clk.now := hts'.symm.trans ((congrArg ProbeState.ts hprobe).trans hts)
    exact hk (by simpa [hnow] using hzero)
  · intro h
    exact commutes_step (moved_refl e) h

/-! #### `idle_ms` -/

/-- The idle time survives a shift exactly if the shift wraps both clocks or neither. -/
theorem idle_ms_wrap_iff (now : Timestamp) :
    ((ticks k).moved e).idle_ms (now + k) = e.idle_ms now ↔ (e.last_activity + k ≤ now + k ↔ e.last_activity ≤ now) := by
  have hzero : now - e.last_activity = 0 → e.last_activity = now := fun h => (sub_eq_zero.mp h).symm
  unfold KcpEngine.idle_ms
  change (if e.last_activity + k ≤ now + k then now + k - (e.last_activity + k) else 0) = _ ↔ _
  rw [add_sub_add_right_eq_sub]
  by_cases hbefore : e.last_activity ≤ now
  · rw [if_pos hbefore]
    by_cases hafter : e.last_activity + k ≤ now + k
    · rw [if_pos hafter]
      exact iff_of_true rfl (iff_of_true hafter hbefore)
    · rw [if_neg hafter]
      refine iff_of_false ?_ fun hsame => hafter (hsame.mpr hbefore)
      intro heq
      rw [hzero heq.symm] at hafter
      exact hafter (BitVec.le_refl _)
  · rw [if_neg hbefore]
    by_cases hafter : e.last_activity + k ≤ now + k
    · rw [if_pos hafter]
      refine iff_of_false ?_ fun hsame => hbefore (hsame.mp hafter)
      intro heq
      rw [hzero heq] at hbefore
      exact hbefore (BitVec.le_refl _)
    · rw [if_neg hafter]
      exact iff_of_true rfl (iff_of_false hafter hbefore)

/-! #### `check` -/

/-- The soonest deadline over the send buffer. -/
def buf_deadline (e : KcpEngine) (now : Timestamp) : U32 :=
  (e.snd_buf.map fun s => KcpEngine.remaining now s.resendts).foldl (fun next d => min next d) 0xFFFFFFFF

/-- What `check` reports for the soonest deadline. -/
def reported_wait (next : U32) : U32 := if next = 0xFFFFFFFF then 30000 else next

/-- What `check` reports, by the two kinds of deadlines. -/
theorem check_eq (e : KcpEngine) (now : Timestamp) :
    e.check now = if e.ack_list ≠ [] ∨ e.probe.flags ≠ 0 then 0
      else reported_wait (if e.wnd.rmt = 0 ∧ e.probe.ts ≠ 0 then
        min (buf_deadline e now) (KcpEngine.remaining now e.probe.ts) else buf_deadline e now) := by
  unfold buf_deadline
  rw [List.foldl_map]
  rfl

theorem remaining_add (now d k : Timestamp) : KcpEngine.remaining (now + k) (d + k) = KcpEngine.remaining now d := by
  unfold KcpEngine.remaining
  rw [time_diff_add]

/-- The deadlines of the segments are compared modulo `2 ^ 32`. -/
theorem buf_deadline_moved (now : Timestamp) : buf_deadline ((ticks k).moved e) (now + k) = buf_deadline e now := by
  unfold buf_deadline
  change ((e.snd_buf.map (ticks k).sent).map _).foldl _ _ = _
  rw [List.map_map]
  refine congrArg (List.foldl (fun next d => min next d) 0xFFFFFFFF) (List.map_congr_left fun s _ => ?_)
  exact remaining_add now s.resendts k

theorem remaining_lt (now d : Timestamp) : (KcpEngine.remaining now d).toNat < 2 ^ 31 := by
  have hlt := KcpEngine.time_diff_lt d now
  rw [KcpEngine.toNat_remaining]
  omega

/-- Leaving a deadline out shows, unless the buffer has one at least as soon, or the buffer
is empty and the deadline lies where `check` puts the idle wait. -/
theorem reported_wait_min_iff (now d : Timestamp) :
    reported_wait (min (buf_deadline e now) (KcpEngine.remaining now d)) = reported_wait (buf_deadline e now) ↔
      (∃ s ∈ e.snd_buf, KcpEngine.remaining now s.resendts ≤ KcpEngine.remaining now d) ∨
        (e.snd_buf = [] ∧ KcpEngine.remaining now d = 30000) := by
  have hlate := remaining_lt now d
  have hbuf : ∀ n, n < (buf_deadline e now).toNat ↔ n < 2 ^ 32 - 1 ∧
      ∀ s ∈ e.snd_buf, n < (KcpEngine.remaining now s.resendts).toNat := by
    intro n
    unfold buf_deadline
    rw [KcpEngine.lt_foldl_min, List.forall_mem_map]
    rfl
  have hsome : ∀ x : U32, x.toNat < 2 ^ 31 → reported_wait x = x := by
    intro x hx
    refine if_neg fun hmax => ?_
    rw [hmax] at hx
    exact absurd hx (by decide)
  by_cases hsoon : ∃ s ∈ e.snd_buf, KcpEngine.remaining now s.resendts ≤ KcpEngine.remaining now d
  · obtain ⟨s, hs, hle⟩ := hsoon
    have hmin : min (buf_deadline e now) (KcpEngine.remaining now d) = buf_deadline e now := by
      apply BitVec.eq_of_toNat_eq
      rw [Word.toNat_min, Nat.min_eq_left]
      by_contra hlt
      have hall := ((hbuf _).mp (not_le.mp hlt)).2 s hs
      rw [BitVec.le_def] at hle
      omega
    rw [hmin]
    exact iff_of_true rfl (.inl ⟨s, hs, hle⟩)
  · have hall : ∀ s ∈ e.snd_buf, (KcpEngine.remaining now d).toNat < (KcpEngine.remaining now s.resendts).toNat := by
      intro s hs
      by_contra hle
      exact hsoon ⟨s, hs, by rw [BitVec.le_def]; omega⟩
    have hlt := (hbuf (KcpEngine.remaining now d).toNat).mpr ⟨by omega, hall⟩
    have hmin : min (buf_deadline e now) (KcpEngine.remaining now d) = KcpEngine.remaining now d := by
      apply BitVec.eq_of_toNat_eq
      rw [Word.toNat_min, Nat.min_eq_right hlt.le]
    rw [hmin, hsome _ hlate]
    simp only [hsoon, false_or]
    cases hempty : e.snd_buf with
    | nil =>
      have hidle : reported_wait (buf_deadline e now) = 30000 := by
        unfold buf_deadline
        rw [hempty]
        rfl
      rw [hidle]
      simp only [true_and]
    | cons s rest =>
      have hnear : (buf_deadline e now).toNat < 2 ^ 31 := by
        by_contra hfar
        have hmem : s ∈ e.snd_buf := by
          rw [hempty]
          exact List.mem_cons_self
        have hbig := ((hbuf (2 ^ 31 - 1)).mp (by omega)).2 s hmem
        have hsmall := remaining_lt now s.resendts
        omega
      rw [hsome _ hnear]
      refine iff_of_false ?_ ?_
      · intro heq
        rw [heq] at hlt
        exact Nat.lt_irrefl _ hlt
      · rintro ⟨hnil, _⟩
        cases hnil

/-- The cases in which `check` does not see the moved clock: something is to be sent at
once, the window is open, the deadline of the probe timer is zero neither before nor
after, or the deadline of the probe timer makes no difference. -/
def CheckKeeps (k : U32) (e : KcpEngine) (now : Timestamp) : Prop :=
  (e.ack_list ≠ [] ∨ e.probe.flags ≠ 0) ∨ e.wnd.rmt ≠ 0 ∨ (((ticks k).probe e.probe).ts = 0 ↔ e.probe.ts = 0) ∨
    (∃ s ∈ e.snd_buf, KcpEngine.remaining now s.resendts ≤ KcpEngine.remaining now e.probe.ts) ∨
    (e.snd_buf = [] ∧ KcpEngine.remaining now e.probe.ts = 30000)

/-- `check` survives a shift exactly if its last comparison does. -/
theorem check_wrap_iff (now : Timestamp) :
    ((ticks k).moved e).check (now + k) = e.check now ↔ CheckKeeps k e now := by
  have hpending : (((ticks k).moved e).ack_list ≠ [] ∨ ((ticks k).moved e).probe.flags ≠ 0) ↔
      (e.ack_list ≠ [] ∨ e.probe.flags ≠ 0) := by
    have hacks : ((ticks k).moved e).ack_list = [] ↔ e.ack_list = [] := List.map_eq_nil_iff
    have hflags : ((ticks k).moved e).probe.flags = e.probe.flags := flags_probe _
    rw [ne_eq, hacks, hflags]
  rw [check_eq, check_eq, buf_deadline_moved]
  unfold CheckKeeps
  by_cases hnow : e.ack_list ≠ [] ∨ e.probe.flags ≠ 0
  · rw [if_pos hnow, if_pos (hpending.mpr hnow)]
    exact iff_of_true rfl (.inl hnow)
  · rw [if_neg hnow, if_neg (mt hpending.mp hnow)]
    simp only [hnow, false_or]
    change reported_wait (if e.wnd.rmt = 0 ∧ ((ticks k).probe e.probe).ts ≠ 0 then
      min (buf_deadline e now) (KcpEngine.remaining (now + k) ((ticks k).probe e.probe).ts) else buf_deadline e now) = _ ↔ _
    by_cases hshut : e.wnd.rmt = 0
    · have hts : ((ticks k).probe e.probe).ts = e.probe.ts + k ∨ ((ticks k).probe e.probe).ts = 0 ∧ e.probe.ts = 0 := by
        unfold Shift.probe
        by_cases hoff : e.probe.wait = 0 ∧ e.probe.ts = 0
        · rw [if_pos hoff]
          exact .inr ⟨hoff.2, hoff.2⟩
        · rw [if_neg hoff]
          exact .inl rfl
      have hremaining : ((ticks k).probe e.probe).ts ≠ 0 ∨ e.probe.ts ≠ 0 →
          KcpEngine.remaining (now + k) ((ticks k).probe e.probe).ts = KcpEngine.remaining now e.probe.ts := by
        intro hset
        rw [hts.resolve_right fun hzero => hset.elim (· hzero.1) (· hzero.2), remaining_add]
      simp only [hshut, true_and, ne_eq, not_true_eq_false, false_or]
      by_cases hbefore : e.probe.ts = 0
      · by_cases hafter : ((ticks k).probe e.probe).ts = 0
        · simp only [hbefore, hafter, not_true_eq_false, if_false, true_or]
        · have hsame := hremaining (.inl hafter)
          rw [if_pos hafter, if_neg (not_not.mpr hbefore), hsame, reported_wait_min_iff]
          simp only [hbefore, hafter, iff_true, false_or]
      · have hsame := hremaining (.inr hbefore)
        by_cases hafter : ((ticks k).probe e.probe).ts = 0
        · rw [if_neg (not_not.mpr hafter), if_pos hbefore, eq_comm, reported_wait_min_iff]
          simp only [hbefore, hafter, iff_false, not_true_eq_false, false_or]
        · rw [if_pos hafter, if_pos hbefore, hsame]
          exact iff_of_true rfl (.inl (iff_of_false hafter hbefore))
    · simp only [hshut, false_and, if_false, ne_eq, not_false_eq_true, true_or]

/-! #### `update` -/

/-- The engine as the flush of an `update` finds it. -/
def updated (e : KcpEngine) (now : Timestamp) : KcpEngine := { e with last_update := now }

/-- Where both engines flush, `update` commutes as the flush does. -/
theorem commutes_update_of_flush {clk : Clock} (h : (e.flush_of (.update now clk)).isSome)
    (h' : (((ticks k).moved e).flush_of ((ticks k).op (.update now clk))).isSome) :
    Commutes (ticks k) e ((ticks k).moved e) (.update now clk) ↔
      Commutes (ticks k) (updated e now) ((ticks k).moved (updated e now)) (.flush clk) := by
  obtain ⟨c, hsome⟩ := Option.isSome_iff_exists.mp h
  obtain ⟨c', hsome'⟩ := Option.isSome_iff_exists.mp h'
  have hrun : e.update now clk = (updated e now).flush clk := KcpEngine.update_of_flush hsome
  have hrun' : ((ticks k).moved e).update (now + k) ((ticks k).clk clk) =
      ((ticks k).moved (updated e now)).flush ((ticks k).clk clk) := KcpEngine.update_of_flush hsome'
  have hstate : e.step (.update now clk) = (updated e now).step (.flush clk) := congrArg Prod.fst hrun
  have hstate' : ((ticks k).moved e).step ((ticks k).op (.update now clk)) =
      ((ticks k).moved (updated e now)).step ((ticks k).op (.flush clk)) := congrArg Prod.fst hrun'
  have hanswer : e.answer (.update now clk) = (updated e now).answer (.flush clk) := by
    simp only [KcpEngine.answer, hrun]
  have hanswer' : ((ticks k).moved e).answer ((ticks k).op (.update now clk)) =
      ((ticks k).moved (updated e now)).answer ((ticks k).op (.flush clk)) := by
    simp only [KcpEngine.answer, Shift.op]
    exact congrArg (fun r : KcpEngine × KcpCoreResult Unit => r.2.map fun _ => (none : Option Bytes)) hrun'
  have hencoded : e.numbered_encoded (.update now clk) = (updated e now).numbered_encoded (.flush clk) := if_pos h
  have hencoded' : ((ticks k).moved e).numbered_encoded ((ticks k).op (.update now clk)) =
      ((ticks k).moved (updated e now)).numbered_encoded ((ticks k).op (.flush clk)) := if_pos h'
  constructor
  · rintro ⟨hs, ha, he⟩
    rw [hstate, hstate'] at hs
    rw [hanswer, hanswer'] at ha
    rw [hencoded, hencoded'] at he
    exact ⟨hs, ha, he⟩
  · rintro ⟨hs, ha, he⟩
    rw [← hstate, ← hstate'] at hs
    rw [← hanswer, ← hanswer'] at ha
    rw [← hencoded, ← hencoded'] at he
    exact ⟨hs, ha, he⟩

/-- The cases in which `update` does not see the moved clock. Both engines take the reading
for a later one than the last, or both for an earlier one, or the interval is zero; and
the probe timer, if there is a flush, is not set to zero. Otherwise one of them flushes and
the other does not, and that flush has nothing to do. -/
def UpdateKeeps (k : U32) (e : KcpEngine) (now : Timestamp) (clk : Clock) : Prop :=
  if now + k < e.last_update + k ↔ now < e.last_update then
    e.flush_of (.update now clk) = none ∨ k = 0 ∨ ¬ Overgrown e clk.now
  else if e.config.nodelay.interval = 0 then ¬ Overgrown e clk.now
  else e.config.nodelay.interval ≤ now - e.last_update ∧
    KcpEngine.Quiet ((ticks k).moved (updated e now)) (clk.now + k)

/-- A flush that has nothing to do, on the moved engine, commutes with doing nothing. -/
theorem moved_of_quiet {clk : Clock} (h : KcpEngine.Quiet ((ticks k).moved e) (clk.now + k)) :
    Moved (ticks k) (e.flush clk).1 ((ticks k).moved e) ∧ (e.flush clk).2 = .ok () ∧ e.numbered_emissions clk = [] := by
  have hquiet : KcpEngine.Quiet ((ticks k).moved e) ((ticks k).clk clk).now := h
  obtain ⟨hemit, hflush⟩ := hquiet.flush
  have hrunning : k = 0 ∨ ¬ Overgrown e clk.now := by
    right
    rintro ⟨_, hrmt, hwait, hdue⟩
    have hunarmed : e.probe.wait ≠ 0 := by
      rw [hwait]
      decide
    have hearly : time_diff (clk.now + k) ((ticks k).probe e.probe).ts < 0 := (h.running hrmt).2
    rw [probe_of_wait hunarmed] at hearly
    have hsame : time_diff (clk.now + k) (e.probe.ts + k) = time_diff clk.now e.probe.ts := time_diff_add ..
    have hearly' : time_diff (clk.now + k) (e.probe.ts + k) < 0 := hearly
    omega
  obtain ⟨out, hcut, heq⟩ := flush_image (σ := ticks k) hrunning (.refl (output e))
  have heq' : ((ticks k).moved e).flush ((ticks k).clk clk) = ((ticks k).image out (e.flush clk).1, (e.flush clk).2) := heq
  rw [hflush] at heq'
  refine ⟨⟨out, hcut, congrArg Prod.fst heq'⟩, (congrArg Prod.snd heq').symm, ?_⟩
  have hnumbered : ((ticks k).moved e).numbered_emissions ((ticks k).clk clk) = _ := numbered_emissions_image hrunning
  rw [← KcpEngine.numbered_emissions_snd, List.map_eq_nil_iff] at hemit
  exact List.map_eq_nil_iff.mp (hnumbered.symm.trans hemit)

theorem answer_map {r : KcpCoreResult Unit} (h : (r.map fun _ => (none : Option Bytes)) = .ok none) : r = .ok () := by
  cases r with
  | ok value => rfl
  | error err => cases h

/-- An `update` with a clock set back does not flush. -/
theorem flush_of_update_back {clk : Clock} (hback : now < e.last_update) (hpos : e.config.nodelay.interval ≠ 0) :
    e.flush_of (.update now clk) = none := by
  refine if_neg fun hdue => hpos ?_
  rw [if_pos hback, sub_self] at hdue
  exact BitVec.le_zero_iff.mp hdue

theorem update_back {clk : Clock} (hback : now < e.last_update) (hpos : e.config.nodelay.interval ≠ 0) :
    e.update now clk = (updated e now, .ok ()) := by
  rw [KcpEngine.update_idle (flush_of_update_back hback hpos), if_pos hback]
  rfl

/-- With an interval gone by it does. -/
theorem flush_of_update_due {clk : Clock} (hback : ¬ now < e.last_update)
    (hdue : e.config.nodelay.interval ≤ now - e.last_update) : e.flush_of (.update now clk) = some clk := by
  refine if_pos ?_
  rw [if_neg hback]
  exact hdue

/-- An `update` before the interval has gone by does not flush. -/
theorem flush_of_update_early {clk : Clock} (hback : ¬ now < e.last_update)
    (hearly : ¬ e.config.nodelay.interval ≤ now - e.last_update) : e.flush_of (.update now clk) = none := by
  refine if_neg ?_
  rw [if_neg hback]
  exact hearly

theorem update_early {clk : Clock} (hback : ¬ now < e.last_update)
    (hearly : ¬ e.config.nodelay.interval ≤ now - e.last_update) : e.update now clk = (e, .ok ()) := by
  rw [KcpEngine.update_idle (flush_of_update_early hback hearly), if_neg hback]

/-- The clocks of two engines of which one is the other one moved. -/
theorem last_update_of_moved {e' : KcpEngine} (h : Moved (ticks k) e e') : e'.last_update = e.last_update + k := by
  obtain ⟨out, _, rfl⟩ := h
  rfl

/-- `update` with an earlier reading than the last does nothing; the moved engine flushes. -/
theorem commutes_idle_flush {clk : Clock} (hback : now < e.last_update) (hlater : ¬ now + k < e.last_update + k)
    (hpos : e.config.nodelay.interval ≠ 0) :
    Commutes (ticks k) e ((ticks k).moved e) (.update now clk) ↔ e.config.nodelay.interval ≤ now - e.last_update ∧
      KcpEngine.Quiet ((ticks k).moved (updated e now)) (clk.now + k) := by
  have hnone : e.flush_of (.update now clk) = none := flush_of_update_back hback hpos
  have hidle : e.update now clk = (updated e now, .ok ()) := update_back hback hpos
  have hstep : e.step (.update now clk) = updated e now := congrArg Prod.fst hidle
  have hapart : now + k - (e.last_update + k) = now - e.last_update := add_sub_add_right_eq_sub ..
  by_cases hdue : e.config.nodelay.interval ≤ now - e.last_update
  · have hsome : ((ticks k).moved e).flush_of (.update (now + k) ((ticks k).clk clk)) = some ((ticks k).clk clk) :=
      flush_of_update_due hlater (by change _ ≤ now + k - (e.last_update + k); rw [hapart]; exact hdue)
    have hrun : ((ticks k).moved e).update (now + k) ((ticks k).clk clk) =
        ((ticks k).moved (updated e now)).flush ((ticks k).clk clk) := KcpEngine.update_of_flush hsome
    have hstep' : ((ticks k).moved e).step ((ticks k).op (.update now clk)) =
        (((ticks k).moved (updated e now)).flush ((ticks k).clk clk)).1 := congrArg Prod.fst hrun
    have hanswer : e.answer (.update now clk) = .ok none := by
      simp only [KcpEngine.answer, hidle]
      rfl
    have hanswer' : ((ticks k).moved e).answer ((ticks k).op (.update now clk)) =
        (((ticks k).moved (updated e now)).flush ((ticks k).clk clk)).2.map fun _ => none :=
      congrArg (fun r : KcpEngine × KcpCoreResult Unit => r.2.map fun _ => (none : Option Bytes)) hrun
    simp only [hdue, true_and]
    constructor
    · intro h
      obtain ⟨out, hcut, heq⟩ := h.state
      rw [hstep] at hcut heq
      rw [hstep'] at heq
      have hok := h.answer
      rw [hanswer, hanswer'] at hok
      have hquiet : KcpEngine.Quiet ((ticks k).moved (updated e now)) ((ticks k).clk clk).now :=
        KcpEngine.quiet_of_flush hcut (answer_map hok) heq
      exact hquiet
    · intro h
      have hquiet : KcpEngine.Quiet ((ticks k).moved (updated e now)) ((ticks k).clk clk).now := h
      obtain ⟨hemit, hflush⟩ := hquiet.flush
      rw [hflush] at hstep' hanswer'
      refine ⟨?_, ?_, ?_⟩
      · rw [hstep, hstep']
        exact moved_refl _
      · rw [hanswer, hanswer']
        rfl
      · have hnothing : e.numbered_encoded (.update now clk) = [] := by
          simp only [KcpEngine.numbered_encoded, hnone, Option.isSome_none, Bool.false_eq_true, if_false]
        have hencoded : ((ticks k).moved e).numbered_encoded ((ticks k).op (.update now clk)) =
            ((ticks k).moved (updated e now)).numbered_emissions ((ticks k).clk clk) :=
          if_pos (Option.isSome_iff_exists.mpr ⟨_, hsome⟩)
        rw [hencoded, hnothing]
        exact List.map_eq_nil_iff.mp ((KcpEngine.numbered_emissions_snd ..).trans hemit)
  · simp only [hdue, false_and, iff_false]
    intro h
    have hrun : ((ticks k).moved e).update (now + k) ((ticks k).clk clk) = ((ticks k).moved e, .ok ()) :=
      update_early hlater (by change ¬ _ ≤ now + k - (e.last_update + k); rw [hapart]; exact hdue)
    have hlast := last_update_of_moved h.state
    rw [hstep] at hlast
    have hstep' : (((ticks k).moved e).step ((ticks k).op (.update now clk))).last_update = e.last_update + k :=
      congrArg (fun r : KcpEngine × KcpCoreResult Unit => r.1.last_update) hrun
    have hsame : e.last_update = now := add_right_cancel (hstep'.symm.trans hlast)
    rw [hsame] at hback
    exact BitVec.lt_irrefl _ hback

/-- `update` flushes; the moved engine takes the reading for an earlier one and does nothing. -/
theorem commutes_flush_idle {clk : Clock} (hlater : ¬ now < e.last_update) (hback : now + k < e.last_update + k)
    (hpos : e.config.nodelay.interval ≠ 0) :
    Commutes (ticks k) e ((ticks k).moved e) (.update now clk) ↔ e.config.nodelay.interval ≤ now - e.last_update ∧
      KcpEngine.Quiet ((ticks k).moved (updated e now)) (clk.now + k) := by
  have hnone : ((ticks k).moved e).flush_of (.update (now + k) ((ticks k).clk clk)) = none :=
    flush_of_update_back hback hpos
  have hidle : ((ticks k).moved e).update (now + k) ((ticks k).clk clk) = ((ticks k).moved (updated e now), .ok ()) :=
    update_back hback hpos
  have hstep' : ((ticks k).moved e).step ((ticks k).op (.update now clk)) = (ticks k).moved (updated e now) :=
    congrArg Prod.fst hidle
  by_cases hdue : e.config.nodelay.interval ≤ now - e.last_update
  · have hsome : e.flush_of (.update now clk) = some clk := flush_of_update_due hlater hdue
    have hrun : e.update now clk = (updated e now).flush clk := KcpEngine.update_of_flush hsome
    have hstep : e.step (.update now clk) = ((updated e now).flush clk).1 := congrArg Prod.fst hrun
    have hanswer : e.answer (.update now clk) = ((updated e now).flush clk).2.map fun _ => none := by
      simp only [KcpEngine.answer, hrun]
    have hanswer' : ((ticks k).moved e).answer ((ticks k).op (.update now clk)) = .ok none :=
      congrArg (fun r : KcpEngine × KcpCoreResult Unit => r.2.map fun _ => (none : Option Bytes)) hidle
    simp only [hdue, true_and]
    constructor
    · intro h
      obtain ⟨out, hcut, heq⟩ := h.state
      rw [hstep] at hcut heq
      rw [hstep'] at heq
      have hok := h.answer
      rw [hanswer, hanswer'] at hok
      have hrunning : k = 0 ∨ ¬ Overgrown (updated e now) clk.now := by
        right
        rintro ⟨_, hrmt, hwait, hexpired⟩
        have hprobe := congrArg (fun e : KcpEngine => e.probe.wait) heq
        change ((ticks k).probe e.probe).wait = ((ticks k).probe ((updated e now).flush clk).1.probe).wait at hprobe
        rw [wait_probe, wait_probe, probe_flush] at hprobe
        have hzero := (overgrown_timer hrmt hwait hexpired).1
        exact absurd (hwait.symm.trans (hprobe.trans hzero)) (by decide)
      obtain ⟨out', hcut', heq'⟩ := flush_image (σ := ticks k) hrunning (.refl (output (updated e now)))
      have hmoved : ((ticks k).moved (updated e now)).flush ((ticks k).clk clk) =
          ((ticks k).image out' ((updated e now).flush clk).1, ((updated e now).flush clk).2) := heq'
      have hout : output ((ticks k).moved (updated e now)) = out := by
        rw [heq]
        rfl
      have hsame : SameCut (output ((ticks k).moved (updated e now))) out' := by
        rw [hout]
        exact hcut.symm.trans hcut'
      have hquiet : KcpEngine.Quiet ((ticks k).moved (updated e now)) ((ticks k).clk clk).now := by
        refine KcpEngine.quiet_of_flush hsame ?_ ?_
        · rw [hmoved]
          exact answer_map hok.symm
        · rw [hmoved, heq]
          rfl
      exact hquiet
    · intro h
      obtain ⟨hstate, hok, hnothing⟩ := moved_of_quiet h
      refine ⟨?_, ?_, ?_⟩
      · rw [hstep, hstep']
        exact hstate
      · rw [hanswer, hanswer', hok]
        rfl
      · have hencoded : e.numbered_encoded (.update now clk) = (updated e now).numbered_emissions clk :=
          if_pos (Option.isSome_iff_exists.mpr ⟨_, hsome⟩)
        have hencoded' : ((ticks k).moved e).numbered_encoded ((ticks k).op (.update now clk)) = [] := by
          change (if (((ticks k).moved e).flush_of (.update (now + k) ((ticks k).clk clk))).isSome then _ else _) = _
          rw [hnone]
          rfl
        rw [hencoded, hencoded', hnothing]
        rfl
  · simp only [hdue, false_and, iff_false]
    intro h
    have hrun : e.update now clk = (e, .ok ()) := update_early hlater hdue
    have hlast := last_update_of_moved h.state
    rw [hstep'] at hlast
    have hstep : (e.step (.update now clk)).last_update = e.last_update :=
      congrArg (fun r : KcpEngine × KcpCoreResult Unit => r.1.last_update) hrun
    rw [hstep] at hlast
    have hsame : now + k = e.last_update + k := hlast
    rw [hsame] at hback
    exact BitVec.lt_irrefl _ hback

/-- An `update` survives a shift exactly if its two comparisons do. -/
theorem commutes_update_iff (now : Timestamp) (clk : Clock) :
    Commutes (ticks k) e ((ticks k).moved e) (.update now clk) ↔ UpdateKeeps k e now clk := by
  unfold UpdateKeeps
  by_cases hsame : now + k < e.last_update + k ↔ now < e.last_update
  · rw [if_pos hsame]
    cases hflush : e.flush_of (.update now clk) with
    | none =>
      simp only [true_or, iff_true]
      exact commutes_update_idle (.refl (output e)) hsame hflush
    | some c =>
      have hgate : ((ticks k).moved e).flush_of (.update (now + k) ((ticks k).clk clk)) = _ := flush_of_update_image hsame
      rw [hflush] at hgate
      have hfirst : (e.flush_of (.update now clk)).isSome := Option.isSome_iff_exists.mpr ⟨_, hflush⟩
      have hsecond : (((ticks k).moved e).flush_of ((ticks k).op (.update now clk))).isSome :=
        Option.isSome_iff_exists.mpr ⟨_, hgate⟩
      rw [commutes_update_of_flush hfirst hsecond, commutes_flush_iff]
      simp only [reduceCtorEq, false_or]
      exact Iff.rfl
  · rw [if_neg hsame]
    by_cases hzero : e.config.nodelay.interval = 0
    · have hgate : ∀ {e : KcpEngine} {now : Timestamp} {clk : Clock}, e.config.nodelay.interval = 0 →
          (e.flush_of (.update now clk)).isSome := by
        intro e now clk hzero
        refine Option.isSome_iff_exists.mpr ⟨clk, if_pos ?_⟩
        rw [hzero, BitVec.le_def]
        exact Nat.zero_le _
      have hmoves : k ≠ 0 := by
        rintro rfl
        exact hsame (by rw [add_zero, add_zero])
      have hfirst : (e.flush_of (.update now clk)).isSome := hgate hzero
      have hsecond : (((ticks k).moved e).flush_of ((ticks k).op (.update now clk))).isSome := hgate hzero
      rw [if_pos hzero, commutes_update_of_flush hfirst hsecond, commutes_flush_iff]
      simp only [hmoves, false_or]
      exact Iff.rfl
    · rw [if_neg hzero]
      by_cases hback : now < e.last_update
      · exact commutes_idle_flush hback (fun h => hsame (iff_of_true h hback)) hzero
      · exact commutes_flush_idle hback (not_not.mp fun h => hsame (iff_of_false h hback)) hzero

end

/-- What of an engine sees the clock move. `send` and `input` never do, `flush` only where it
sets the probe timer to zero, and `update`, `check` and `idle_ms` where a raw comparison of
two readings, or a reading of zero, tells the moved clock from the other one. -/
theorem clock_wrap_iff (k : U32) (e : KcpEngine) :
    (∀ clk data, Commutes (ticks k) e ((ticks k).moved e) (.send clk data)) ∧
      (∀ now data, Commutes (ticks k) e ((ticks k).moved e) (.input now data)) ∧
      (∀ clk : Clock, Commutes (ticks k) e ((ticks k).moved e) (.flush clk) ↔ k = 0 ∨ ¬ Overgrown e clk.now) ∧
      (∀ now clk, Commutes (ticks k) e ((ticks k).moved e) (.update now clk) ↔ UpdateKeeps k e now clk) ∧
      (∀ now, ((ticks k).moved e).check (now + k) = e.check now ↔ CheckKeeps k e now) ∧
      (∀ now, ((ticks k).moved e).idle_ms (now + k) = e.idle_ms now ↔
        (e.last_activity + k ≤ now + k ↔ e.last_activity ≤ now)) :=
  ⟨fun _ _ => commutes_step (moved_refl e) trivial, fun _ _ => commutes_step (moved_refl e) trivial,
    commutes_flush_iff, commutes_update_iff, check_wrap_iff, idle_ms_wrap_iff⟩

/-- The readings of the clock an engine holds. -/
def readings (e : KcpEngine) : List Timestamp :=
  e.last_update :: e.last_activity :: (if e.probe.wait = 0 ∧ e.probe.ts = 0 then [] else [e.probe.ts]) ++
    (e.snd_queue ++ e.snd_buf ++ e.rcv_queue ++ e.rcv_buf.entries.map Sigma.snd).map (fun s => s.header.ts) ++
    e.snd_buf.map (fun s => s.resendts) ++ e.ack_list.map Prod.snd

/-- The peer closes its window. -/
def shut_run : List Op := [.input 0 (KcpEngine.ack_segment 7 0 0 0 (0, 0)).bytes, .flush (.at 0)]

/-- Within a few seconds of each other, and with the clock wrapping around in between: five
milliseconds of silence read as none, a queued segment is not sent, and a probe timer that
is due when the clock shows zero is not waited for. -/
theorem wrap_seen :
    (readings fast.fresh = [0, 0] ∧
      fast.fresh.idle_ms 5 = 5 ∧ ((ticks 0xFFFFFFFE).moved fast.fresh).idle_ms (5 + 0xFFFFFFFE) = 0) ∧
    (readings (fast.reached [.send (.at 0) [1]]) = [0, 0, 0] ∧
      ((fast.reached [.send (.at 0) [1]]).numbered_encoded (.update 20 (.at 20))).length = 1 ∧
      ((ticks 0xFFFFFFF6).moved (fast.reached [.send (.at 0) [1]])).numbered_encoded
        ((ticks 0xFFFFFFF6).op (.update 20 (.at 20))) = []) ∧
    readings (fast.reached shut_run) = [0, 0, 7000] ∧
      ((fast.reached shut_run).check 10).toNat = 6990 ∧
      (((ticks (0 - 7000)).moved (fast.reached shut_run)).check (10 + (0 - 7000))).toNat = 30000 := by
  decide +kernel

end kcp_core.engine
