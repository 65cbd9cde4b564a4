import Kcp.Engine.ProbeTimer

open kcp_core.protocol kcp_core.config kcp_core.error

namespace kcp_core.engine

namespace KcpEngine

/-! ### Deadlines -/

/-- The timestamps that `check` looks at. -/
def deadlines (self : KcpEngine) : List Timestamp :=
  self.snd_buf.map KcpSegment.resendts ++
    if self.wnd.rmt = 0 ∧ self.probe.ts ≠ 0 then [self.probe.ts] else []

/-- How long until a deadline, not less than zero. -/
def remaining (current deadline : Timestamp) : U32 := BitVec.ofInt 32 (max (time_diff deadline current) 0)

/-- Two timestamps are less than half a turn apart. -/
theorem time_diff_lt (later earlier : Timestamp) : time_diff later earlier < 2 ^ 31 := by
  have hlt := BitVec.toInt_lt (x := later - earlier)
  exact hlt

/-- What remains is the time to the deadline, or nothing once that has passed. -/
theorem toNat_remaining (current deadline : Timestamp) :
    (remaining current deadline).toNat = (time_diff deadline current).toNat := by
  have hlt := time_diff_lt deadline current
  rw [remaining, Word.toNat_ofInt (by omega) (by omega)]
  omega

/-- The next deadline is the nearest. -/
theorem next_deadline_eq (self : KcpEngine) (current : Timestamp) :
    self.next_deadline current =
      (self.deadlines.map (remaining current)).foldl (fun next d => min next d) 0xFFFFFFFF := by
  have hbuf : (self.snd_buf.map fun s => remaining current s.resendts).foldl (fun next d => min next d) 0xFFFFFFFF =
      self.snd_buf.foldl
        (fun next seg => min next (BitVec.ofInt 32 (max (time_diff seg.resendts current) 0))) 0xFFFFFFFF :=
    List.foldl_map
  unfold next_deadline deadlines
  rw [List.map_append, List.foldl_append, List.map_map]
  dsimp only
  rw [← hbuf]
  split
  · rfl
  · rfl

theorem lt_foldl_min {n : Nat} (waits : List U32) (init : U32) :
    n < (waits.foldl (fun next d => min next d) init).toNat ↔ n < init.toNat ∧ ∀ d ∈ waits, n < d.toNat := by
  induction waits generalizing init with
  | nil => simp
  | cons d waits ih =>
    rw [List.foldl_cons, ih, Word.toNat_min, Nat.lt_min, List.forall_mem_cons, and_assoc]

/-- The wait is longer than `n` exactly if every deadline is further away. -/
theorem lt_next_deadline_iff {self : KcpEngine} {current : Timestamp} {n : Nat} :
    n < (self.next_deadline current).toNat ↔
      n < 2 ^ 32 - 1 ∧ ∀ d ∈ self.deadlines, (n : Int) < time_diff d current := by
  rw [next_deadline_eq, lt_foldl_min, List.forall_mem_map]
  simp only [toNat_remaining, Int.lt_toNat]
  rfl

/-- The largest word stands for no deadline. -/
theorem next_deadline_eq_max_iff {self : KcpEngine} {current : Timestamp} :
    self.next_deadline current = 0xFFFFFFFF ↔ self.deadlines = [] := by
  have hlt : 2 ^ 32 - 2 < (self.next_deadline current).toNat ↔ _ := lt_next_deadline_iff
  have hbound := (self.next_deadline current).isLt
  constructor
  · intro hmax
    have hbig : 2 ^ 32 - 2 < (self.next_deadline current).toNat := by
      rw [hmax]
      decide
    by_contra hsome
    obtain ⟨d, hd⟩ := List.exists_mem_of_ne_nil _ hsome
    have hfar := (hlt.mp hbig).2 d hd
    have hnear := time_diff_lt d current
    omega
  · intro hnone
    have hbig := hlt.mpr ⟨by omega, fun d hd => by rw [hnone] at hd; cases hd⟩
    apply BitVec.eq_of_toNat_eq
    change _ = 2 ^ 32 - 1
    omega

/-- `check` reports at most `n` milliseconds: something waits to be sent, a timer expires by
then, or no timer runs and `n` reaches the wait of an idle engine. -/
theorem check_le_iff (self : KcpEngine) (current : Timestamp) {n : Nat} :
    (self.check current).toNat ≤ n ↔ (self.ack_list ≠ [] ∨ self.probe.flags ≠ 0) ∨
      (∃ d ∈ self.deadlines, time_diff d current ≤ n) ∨ (self.deadlines = [] ∧ 30000 ≤ n) := by
  unfold check
  by_cases hpending : self.ack_list ≠ [] ∨ self.probe.flags ≠ 0
  · rw [if_pos hpending]
    exact iff_of_true (Nat.zero_le _) (.inl hpending)
  · rw [if_neg hpending]
    dsimp only
    simp only [hpending, false_or]
    by_cases hidle : self.deadlines = []
    · rw [if_pos (next_deadline_eq_max_iff.mpr hidle), hidle]
      simp
    · rw [if_neg (mt next_deadline_eq_max_iff.mp hidle), ← not_lt, lt_next_deadline_iff]
      simp only [hidle, false_and, or_false, not_and, not_forall, not_lt, exists_prop]
      constructor
      · intro h
        by_cases hsmall : n < 2 ^ 32 - 1
        · exact h hsmall
        · obtain ⟨d, hd⟩ := List.exists_mem_of_ne_nil _ hidle
          have hnear := time_diff_lt d current
          exact ⟨d, hd, by omega⟩
      · exact fun h _ => h

/-- Whatever lies within the time that `check` reports lies before every deadline. -/
theorem lt_of_lt_check {self : KcpEngine} {current : Timestamp} {n : Nat} (h : n < (self.check current).toNat) :
    ∀ d ∈ self.deadlines, (n : Int) < time_diff d current := by
  intro d hd
  by_contra hnear
  have hle := (self.check_le_iff current).mpr (.inr (.inl ⟨d, hd, not_lt.mp hnear⟩))
  omega

/-- `check` reports at most one millisecond when a deadline is that close. -/
theorem one_lt_check_iff {self : KcpEngine} (current : Timestamp) (hacks : self.ack_list = [])
    (hflags : self.probe.flags = 0) :
    1 < (self.check current).toNat ↔ ∀ d ∈ self.deadlines, 1 < time_diff d current := by
  rw [← not_le, check_le_iff]
  simp [hacks, hflags]

/-! ### Between two flushes -/

/-- The engine has nothing more to send at this reading: no segment of the buffer is due,
and the window lets nothing in from the queue. -/
def NothingDue (e : KcpEngine) (now : Timestamp) : Prop :=
  (∀ segment ∈ e.snd_buf, mark_of now e.resend_threshold segment = .hold) ∧ e.admitted = 0

/-- Only a timer can make the engine send: every segment of the buffer has been sent, none
is at the fast-retransmit threshold with retransmissions left, and the window lets nothing
in from the queue. -/
structure Waiting (e : KcpEngine) : Prop where
  sent : ∀ segment ∈ e.snd_buf, segment.xmit ≠ 0
  not_skipped : ∀ segment ∈ e.snd_buf,
    segment.fastack < e.resend_threshold ∨ constants.IKCP_FASTACK_LIMIT < segment.xmit
  held_back : e.snd_queue = [] ∨ 0 ≤ time_diff e.snd_nxt e.window_end

/-- Some deadline is at most one millisecond away, or past. -/
def DeadlineNear (e : KcpEngine) (now : Timestamp) : Prop := ∃ d ∈ e.deadlines, time_diff d now ≤ 1

/-- A later reading that lies closer than a deadline lies before it. -/
theorem time_diff_neg_of_lt {now later d : Timestamp} (h : (Serial.offset now later : Int) < time_diff d now) :
    time_diff later d < 0 := by
  have hlt := time_diff_lt d now
  obtain ⟨hoff, hhalf⟩ := Serial.offset_of_diff_nonneg (a := d) (b := now) (by unfold time_diff at h; omega)
  unfold time_diff at *
  rw [Serial.diff_eq_offset_sub now (by omega) hhalf]
  omega

/-- A flush sends no probe unless one is asked for or due. -/
theorem probes_out_eq_nil {e : KcpEngine} (h : Flushed e) {clk : Clock}
    (hprobe : e.wnd.rmt = 0 → time_diff clk.now e.probe.ts < 0) : e.probes_out clk = [] := by
  have hflags : (e.probe_timer clk.now).flags = 0 := by
    unfold probe_timer
    by_cases hrmt : e.wnd.rmt = 0
    · have hwait := (h.armed hrmt).1
      have hearly := hprobe hrmt
      rw [if_pos hrmt, if_neg hwait, if_neg (by omega)]
      exact h.flags
    · rw [if_neg hrmt]
      exact h.flags
  unfold probes_out
  rw [hflags]
  rfl

/-- Before its probe timer expires, a flushed engine emits something only if data is due. -/
theorem emits_nothing_iff {e : KcpEngine} (h : Flushed e) {clk : Clock}
    (hprobe : e.wnd.rmt = 0 → time_diff clk.now e.probe.ts < 0) :
    (e.flush clk).1.emitted = e.emitted ↔ NothingDue e clk.now := by
  have hacks : e.acks_out clk = [] := by rw [acks_out, h.acks]; rfl
  rw [emitted_flush, List.append_right_eq_self, emissions, hacks, probes_out_eq_nil h hprobe, NothingDue,
    ← e.due_ready_eq_nil_iff, ← upto_dead_eq_nil_iff e.dead_link, List.flatMap_eq_nil_iff]
  simp only [List.nil_append]
  constructor
  · intro hempty
    rw [List.eq_nil_iff_forall_not_mem]
    intro segment hmem
    have hlen := congrArg List.length (hempty segment hmem)
    rw [KcpSegment.length_bytes] at hlen
    simp [KcpSegment.size, KcpHeader.SIZE] at hlen
  · intro hnone segment hmem
    rw [hnone] at hmem
    cases hmem

/-- Nothing is admitted without data, or without room in the window. -/
theorem admitted_eq_zero_iff {e : KcpEngine} :
    e.admitted = 0 ↔ e.snd_queue = [] ∨ 0 ≤ time_diff e.snd_nxt e.window_end := by
  unfold admitted
  cases e.snd_queue with
  | nil => simp [admit_count]
  | cons segment queue =>
    unfold admit_count
    by_cases hroom : time_diff e.snd_nxt e.window_end < 0
    · rw [if_pos hroom]
      constructor
      · intro h
        omega
      · rintro (h | h)
        · cases h
        · omega
    · rw [if_neg hroom]
      exact ⟨fun _ => .inr (by omega), fun _ => rfl⟩

/-- A segment before its deadline is sent for the first time, by a fast retransmission, or not at
all. -/
theorem mark_eq_hold_iff {now : Timestamp} {resend : U32} {segment : KcpSegment}
    (hearly : time_diff now segment.resendts < 0) :
    mark_of now resend segment = .hold ↔
      segment.xmit ≠ 0 ∧ (segment.fastack < resend ∨ constants.IKCP_FASTACK_LIMIT < segment.xmit) := by
  have hlimit : constants.IKCP_FASTACK_LIMIT ≠ 0 := by decide
  unfold mark_of
  rw [if_neg (by omega : ¬ 0 ≤ time_diff now segment.resendts)]
  simp only [hlimit, or_false]
  by_cases hsent : segment.xmit = 0
  · simp [hsent]
  · rw [if_neg hsent]
    by_cases hskip : resend ≤ segment.fastack ∧ segment.xmit ≤ constants.IKCP_FASTACK_LIMIT
    · rw [if_pos hskip]
      simp only [reduceCtorEq, false_iff, not_and, not_or, BitVec.not_lt]
      exact fun _ => hskip
    · rw [if_neg hskip]
      simp only [true_iff]
      refine ⟨hsent, ?_⟩
      rw [not_and_or, BitVec.not_le, BitVec.not_le] at hskip
      exact hskip

/-- Before every deadline, nothing is due exactly when only timers are left. -/
theorem nothingDue_iff_waiting {e : KcpEngine} {now : Timestamp}
    (hearly : ∀ segment ∈ e.snd_buf, time_diff now segment.resendts < 0) : NothingDue e now ↔ Waiting e := by
  unfold NothingDue
  rw [admitted_eq_zero_iff]
  constructor
  · rintro ⟨hbuf, hqueue⟩
    have hmark := fun segment hmem => (mark_eq_hold_iff (hearly segment hmem)).mp (hbuf segment hmem)
    exact ⟨fun segment hmem => (hmark segment hmem).1, fun segment hmem => (hmark segment hmem).2, hqueue⟩
  · rintro ⟨hsent, hskip, hqueue⟩
    exact ⟨fun segment hmem => (mark_eq_hold_iff (hearly segment hmem)).mpr
      ⟨hsent segment hmem, hskip segment hmem⟩, hqueue⟩

/-- Before the time that `check` reports is over, a flushed engine emits something only
if it is not waiting for timers alone. -/
theorem emits_nothing_iff_waiting {e : KcpEngine} (h : Flushed e) (now : Timestamp) {clk : Clock}
    (hlater : Serial.offset now clk.now < (e.check now).toNat) :
    (e.flush clk).1.emitted = e.emitted ↔ Waiting e := by
  have hearly : ∀ d ∈ e.deadlines, time_diff clk.now d < 0 := fun d hd =>
    time_diff_neg_of_lt (lt_of_lt_check hlater d hd)
  rw [emits_nothing_iff h, nothingDue_iff_waiting]
  · intro segment hmem
    exact hearly _ (List.mem_append_left _ (List.mem_map_of_mem hmem))
  · intro hrmt
    apply hearly
    unfold deadlines
    rw [if_pos ⟨hrmt, (h.armed hrmt).2⟩]
    exact List.mem_append_right _ (List.mem_singleton_self _)

/-- One millisecond on. -/
theorem offset_next (now : Timestamp) : Serial.offset now (Clock.at (now + 1)).now = 1 := by
  rw [Clock.at_now, show now + 1 = now + BitVec.ofNat 32 1 from rfl,
    Serial.offset_add (by rw [Serial.offset_self]; decide), Serial.offset_self]

/-- After a flush, sleeping for the time that `check` reports misses nothing exactly when
that time is at most a millisecond or the engine waits for timers alone. -/
theorem sleep_sound_iff {e : KcpEngine} (h : Flushed e) (now : Timestamp) :
    (∀ clk, 0 < Serial.offset now clk.now → Serial.offset now clk.now < (e.check now).toNat →
      (e.flush clk).1.emitted = e.emitted) ↔ DeadlineNear e now ∨ Waiting e := by
  have hnear := one_lt_check_iff now h.acks h.flags
  by_cases hlong : 1 < (e.check now).toNat
  · have hfar : ¬ DeadlineNear e now := by
      rintro ⟨d, hd, hle⟩
      have := hnear.mp hlong d hd
      omega
    constructor
    · intro hquiet
      right
      have hone := offset_next now
      rw [← emits_nothing_iff_waiting h now (by rw [hone]; exact hlong)]
      exact hquiet _ (by rw [hone]; decide) (by rw [hone]; exact hlong)
    · rintro (hnow | hwaiting) clk _ hlater
      · exact absurd hnow hfar
      · exact (emits_nothing_iff_waiting h now hlater).mpr hwaiting
  · constructor
    · intro _
      left
      by_contra hfar
      apply hlong
      rw [hnear]
      intro d hd
      by_contra hle
      exact hfar ⟨d, hd, by omega⟩
    · intro _ clk hpos hlater
      omega

end KcpEngine

end kcp_core.engine
