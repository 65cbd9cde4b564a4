import Kcp.Engine.DeadLink
import Kcp.Actor.Turn

/-! What the task does about an error that is fatal. -/

open Mpsc kcp_core.protocol kcp_core.error kcp_core.engine

namespace kcp_core.engine.KcpEngine

/-- A flush at this reading gives up on some segment: one that is due and has been sent
`max_retries` times with this one, or, where one transmission is the limit, a new one. -/
def Doomed (e : KcpEngine) (now : Timestamp) : Prop :=
  (∃ segment ∈ e.snd_buf, mark_of now e.resend_threshold segment ≠ .hold ∧ e.dead_link ≤ segment.xmit + 1) ∨
    e.dead_link ≤ 1 ∧ 0 < e.admitted

instance decidableDoomed (e : KcpEngine) (now : Timestamp) : Decidable (e.Doomed now) := inferInstanceAs (Decidable (_ ∨ _))

/-- A flush that admits a segment numbers one. -/
theorem exists_numbered {e : KcpEngine} (h : 0 < e.admitted) (now : Timestamp) :
    ∃ segment, segment ∈ e.numbered now e.snd_nxt (e.snd_queue.take e.admitted) := by
  apply List.exists_mem_of_ne_nil
  rw [ne_eq, numbered_eq_nil_iff]
  omega

/-- A flush meets a dead segment exactly if a due one is at its last try. -/
theorem flush_dies_iff_doomed {e : KcpEngine} {now : Timestamp} : e.flush_dies now = true ↔ e.Doomed now := by
  rw [flush_dies_iff]
  constructor
  · rintro ⟨segment, hmem, hmark, hdead⟩
    rcases mem_ready.mp hmem with hold | hnew
    · exact .inl ⟨segment, hold, hmark, hdead⟩
    · rw [xmit_numbered e _ _ _ segment hnew] at hdead
      refine .inr ⟨hdead, ?_⟩
      have hsome := List.ne_nil_of_mem hnew
      rw [ne_eq, numbered_eq_nil_iff] at hsome
      omega
  · rintro (⟨segment, hmem, hmark, hdead⟩ | ⟨hone, hadmitted⟩)
    · exact ⟨segment, mem_ready.mpr (.inl hmem), hmark, hdead⟩
    · obtain ⟨segment, hmem⟩ := exists_numbered hadmitted now
      refine ⟨segment, mem_ready.mpr (.inr hmem), ?_, ?_⟩
      · rw [mark_numbered e now now _ _ _ segment hmem]
        decide
      · rw [xmit_numbered e _ _ _ segment hmem]
        exact hone

/-- A flush that gives up leaves something to be acknowledged. -/
theorem Doomed.has_unsent_data {e : KcpEngine} {clk : Clock} (h : e.Doomed clk.now) :
    (e.flush clk).1.has_unsent_data = true := by
  obtain ⟨queue, buf, stats, heq⟩ := e.flush_shape clk
  obtain ⟨segment, hmem, _⟩ := flush_dies_iff.mp (flush_dies_iff_doomed.mpr h)
  have hbuf : (e.flush clk).1.snd_buf ≠ [] := by
    rw [heq, ← List.length_pos_iff]
    rw [ready_eq] at hmem
    exact List.length_pos_of_mem (List.mem_map_of_mem hmem)
  unfold KcpEngine.has_unsent_data
  simp [hbuf]

end kcp_core.engine.KcpEngine

namespace kcp_tokio.actor

/-- The call does not report an error that should stop the engine. -/
def Sound (e : KcpEngine) (op : Op) : Prop := fatal (e.outcome op) = false

instance decidableSound (e : KcpEngine) (op : Op) : Decidable (Sound e op) := inferInstanceAs (Decidable (_ = _))

/-- The call runs a flush that gives up on a segment. -/
def GivesUp (e : KcpEngine) (op : Op) : Prop := ∃ clk ∈ e.flush_of op, e.Doomed clk.now

/-- The only fatal error is a lost connection. -/
theorem fatal_iff {result : KcpCoreResult Unit} : fatal result = true ↔ result = .error .ConnectionLost := by
  cases result with
  | ok value => simp [fatal]
  | error err => cases err <;> simp [fatal, KcpCoreError.is_fatal]

/-- The flush fails exactly if it is doomed. -/
theorem fatal_flush_iff {e : KcpEngine} {clk : Clock} : fatal (e.flush clk).2 = true ↔ e.Doomed clk.now := by
  rw [fatal_iff, KcpEngine.flush_result, ← KcpEngine.flush_dies_iff_doomed]
  split <;> simp_all

/-- A call without a flush gives up on nothing. -/
theorem sound_of_no_flush {e : KcpEngine} {op : Op} (h : e.flush_of op = none) : Sound e op := by
  unfold Sound
  rw [← Bool.not_eq_true, fatal_iff]
  exact (KcpEngine.step_of_no_flush h).1

theorem sound_iff {e : KcpEngine} {op : Op} : Sound e op ↔ ¬ GivesUp e op := by
  cases hflush : e.flush_of op with
  | none =>
    refine iff_of_true (sound_of_no_flush hflush) ?_
    rintro ⟨clk, hclk, _⟩
    rw [hflush] at hclk
    cases hclk
  | some clk =>
    obtain ⟨last, flags, _, houtcome⟩ := KcpEngine.step_of_flush_of hflush
    have hgives : GivesUp e op ↔ e.Doomed clk.now := by
      unfold GivesUp
      rw [hflush]
      simp
    unfold Sound
    rw [hgives, houtcome, ← Bool.not_eq_true]
    exact not_congr fatal_flush_iff

/-- Calls other than `flush`, `update` and `keep_alive_probe`. -/
def Quiet : Op → Prop
  | .flush _ | .update _ _ | .keep_alive_probe _ => False
  | _ => True

theorem Quiet.sound {op : Op} (h : Quiet op) (e : KcpEngine) : Sound e op := by
  cases op with
  | flush clk => exact h.elim
  | update now clk => exact h.elim
  | keep_alive_probe clk => exact h.elim
  | _ => exact sound_of_no_flush rfl

/-- Calls of which none flushes give up on nothing. -/
theorem always_sound_of_quiet {e : KcpEngine} {ops : List Op} (h : ∀ op ∈ ops, Quiet op) :
    Trace.Always KcpEngine.step Sound e ops := Trace.always_of_forall fun s op hop => (h op hop).sound s

namespace Actor

/-- To forward messages flushes nothing. -/
theorem quiet_forward_calls {self : Actor} {r : Readings} : ∀ op ∈ self.forward_calls r, Quiet op := by
  intro op hmem
  rcases mem_forward_calls hmem with rfl | rfl <;> trivial

/-! ### Turn by turn -/

/-- If the task goes on after this turn, no call of the turn has reported a fatal error. -/
def Heeds (self : Actor) (event : Event) : Prop :=
  (self.step event).exited = none → Trace.Always KcpEngine.step Sound self.engine (self.calls event)

instance decidableHeeds (self : Actor) (event : Event) : Decidable (self.Heeds event) := inferInstanceAs (Decidable (_ → _))

/-- The turn takes a `Flush` command, or begins to close, at a moment at which the flush gives
up on a segment. When it begins to close, the deadline has not passed before the turn ends. -/
def Swallows (self : Actor) : Event → Prop
  | .command (some .Flush) _ r => self.exited = none ∧ self.closing = false ∧ self.engine.Doomed r.flush.now
  | .command (some .Close) buffered r | .command none buffered r =>
    self.exited = none ∧ self.closing = false ∧
      (buffered.foldl (fun engine write => (engine.send write.1 write.2).1) self.engine).Doomed r.flush.now ∧
      r.closing < r.linger + 10000
  | _ => False

/-- A keep-alive after which the task goes on gave up on nothing. -/
theorem sound_keep_alive {self : Actor} {r : Readings} (hopen : (self.keep_alive r).exited = none) :
    Trace.Always KcpEngine.step Sound self.engine (self.keep_alive_calls r) := by
  unfold keep_alive at hopen
  unfold keep_alive_calls
  cases hka : self.settings.keep_alive_ms with
  | none => exact Trace.always_nil ..
  | some ka =>
    simp only [hka] at hopen
    dsimp only
    split_ifs at hopen ⊢ with hsilent hidle hfatal
    · exact Trace.always_nil ..
    · cases hopen
    · exact ⟨Bool.eq_false_iff.mpr hfatal, trivial⟩
    · exact Trace.always_nil ..

/-- A timer branch after which the task goes on gave up on nothing. -/
theorem sound_timer {self : Actor} {r : Readings} (hopen : (self.on_timer r).exited = none) :
    Trace.Always KcpEngine.step Sound self.engine (self.timer_calls r) := by
  unfold on_timer at hopen
  unfold timer_calls
  dsimp only at hopen ⊢
  split_ifs at hopen ⊢ with hfatal hexited
  · cases hopen
  · rw [hopen] at hexited
    cases hexited
  · refine ⟨Bool.eq_false_iff.mpr hfatal, Trace.always_append.mpr ⟨?_, always_sound_of_quiet quiet_forward_calls⟩⟩
    exact sound_keep_alive (Option.not_isSome_iff_eq_none.mp hexited)

/-- A packet branch after which the task goes on gave up on nothing. -/
theorem sound_packet {self : Actor} {packet : Option Bytes} {r : Readings}
    (hopen : (self.on_packet packet r).exited = none) :
    Trace.Always KcpEngine.step Sound self.engine (self.packet_calls packet r) := by
  cases packet with
  | none => cases hopen
  | some data =>
    unfold on_packet at hopen
    unfold packet_calls
    dsimp only at hopen ⊢
    split_ifs at hopen ⊢ with hfatal
    · cases hopen
    · exact ⟨sound_of_no_flush rfl, Bool.eq_false_iff.mpr hfatal, always_sound_of_quiet quiet_forward_calls⟩

/-- A send branch after which the task goes on gave up on nothing. -/
theorem sound_write {self : Actor} {data : Option (Clock × Bytes)} {more : List (Clock × Bytes)} {r : Readings}
    (hopen : (self.on_write data more r).exited = none) :
    Trace.Always KcpEngine.step Sound self.engine (self.write_calls data more r) := by
  cases data with
  | none => exact Trace.always_nil ..
  | some write =>
    unfold on_write at hopen
    unfold write_calls
    dsimp only at hopen ⊢
    split_ifs at hopen ⊢ with hfatal
    · cases hopen
    · have hsends : ∀ op ∈ .send write.1 write.2 :: absorb_calls self.settings.send_high_water
          (self.engine.send write.1 write.2).1 more, Quiet op := by
        intro op hmem
        rcases List.mem_cons.mp hmem with rfl | hmem
        · trivial
        · obtain ⟨_, _, rfl⟩ := mem_absorb_calls hmem
          trivial
      refine Trace.always_append.mpr ⟨always_sound_of_quiet hsends, ?_, always_sound_of_quiet fun op hop => ?_⟩
      · rw [Trace.run_cons, show self.engine.step (.send write.1 write.2) = (self.engine.send write.1 write.2).1 from rfl,
          run_absorb_calls]
        exact Bool.eq_false_iff.mpr hfatal
      · rw [List.mem_singleton.mp hop]
        trivial

/-- With an open branch and an open end of the turn, the turn makes the calls of its branch. -/
theorem turn_open {self : Actor} {event : Event} {r : Readings} (hexited : self.exited = none) (henabled : self.Enabled event)
    (hopen : (self.turn event r).exited = none) :
    (self.branch event).exited = none ∧ self.turn_calls event r = self.branch_calls event := by
  have hgo : ¬ (self.exited.isSome = true ∨ ¬ self.Enabled event) := by
    rintro (hsome | hnot)
    · rw [hexited] at hsome
      cases hsome
    · exact hnot henabled
  unfold turn at hopen
  rw [if_neg hgo] at hopen
  dsimp only at hopen
  unfold turn_calls
  rw [if_neg hgo]
  split_ifs at hopen ⊢ with hbranch
  · rw [hopen] at hbranch
    cases hbranch
  · refine ⟨Option.not_isSome_iff_eq_none.mp hbranch, ?_⟩
    unfold finish_closing at hopen
    unfold finish_calls
    split_ifs at hopen ⊢
    · cases hopen
    · exact List.append_nil _

/-- A turn that may not be taken makes no call. -/
theorem turn_calls_of_idle {self : Actor} {event : Event} (h : self.exited.isSome = true ∨ ¬ self.Enabled event)
    (r : Readings) : self.turn_calls event r = [] := by
  unfold turn_calls
  exact if_pos h

/-- A turn is sound if its branch is, in case both leave the task in its loop. -/
theorem sound_turn {self : Actor} {event : Event} {r : Readings}
    (hbranch : (self.branch event).exited = none → Trace.Always KcpEngine.step Sound self.engine (self.branch_calls event))
    (hopen : (self.turn event r).exited = none) :
    Trace.Always KcpEngine.step Sound self.engine (self.turn_calls event r) := by
  by_cases hidle : self.exited.isSome = true ∨ ¬ self.Enabled event
  · rw [turn_calls_of_idle hidle]
    exact Trace.always_nil ..
  · obtain ⟨hexited, henabled⟩ := not_or.mp hidle
    obtain ⟨hin, hcalls⟩ := turn_open (Option.not_isSome_iff_eq_none.mp hexited) (not_not.mp henabled) hopen
    rw [hcalls]
    exact hbranch hin

/-- A flush command heeds the error exactly if its flush has none. -/
theorem heeds_flush_iff {self : Actor} {buffered : List (Clock × Bytes)} {r : Readings} (hexited : self.exited = none)
    (hserving : self.closing = false) :
    self.Heeds (.command (some .Flush) buffered r) ↔ ¬ self.engine.Doomed r.flush.now := by
  have henabled : self.Enabled (.command (some .Flush) buffered r) := hserving
  have hgo : ¬ (self.exited.isSome = true ∨ ¬ self.Enabled (.command (some .Flush) buffered r)) := by
    simp [hexited, henabled]
  have hopen : (self.turn (.command (some .Flush) buffered r) r).exited = none := by
    unfold turn
    rw [if_neg hgo]
    simp [branch, on_command, finish_closing, hexited, hserving]
  obtain ⟨_, hcalls⟩ := turn_open hexited henabled hopen
  have hstep : self.Heeds (.command (some .Flush) buffered r) ↔
      Trace.Always KcpEngine.step Sound self.engine [.flush r.flush, .drain_output] := by
    unfold Heeds
    rw [show self.calls (.command (some .Flush) buffered r) = [.flush r.flush, .drain_output] from hcalls]
    exact ⟨fun h => h hopen, fun h _ => h⟩
  rw [hstep, ← fatal_flush_iff, Bool.not_eq_true]
  exact ⟨fun h => h.1, fun h => ⟨h, sound_of_no_flush rfl, trivial⟩⟩

/-- The task stays in its loop after it has begun to close if there is something left to be acknowledged, and
time. -/
theorem close_open_iff {self : Actor} {buffered : List (Clock × Bytes)} {r : Readings} (hexited : self.exited = none)
    (hserving : self.closing = false) :
    (self.turn (.command none buffered r) r).exited = none ↔
      ((buffered.foldl (fun engine write => (engine.send write.1 write.2).1) self.engine).flush
        r.flush).1.has_unsent_data = true ∧ r.closing < r.linger + 10000 := by
  have henabled : self.Enabled (.command none buffered r) := hserving
  have hgo : ¬ (self.exited.isSome = true ∨ ¬ self.Enabled (.command none buffered r)) := by
    simp [hexited, henabled]
  unfold turn
  rw [if_neg hgo]
  simp only [branch, on_command, hexited, Option.isSome_none, Bool.false_eq_true, if_false, finish_closing]
  simp only [true_and, Option.mem_def, Option.some.injEq, exists_eq_left', has_unsent_data_flush_output]
  split
  · next hleave =>
    simp only [exit, reduceCtorEq, false_iff, not_and, not_lt]
    intro hdata
    rcases hleave with hnone | hlate
    · exact absurd (hdata.symm.trans hnone) (by decide)
    · exact hlate
  · next hstay =>
    obtain ⟨hdata, hearly⟩ := not_or.mp hstay
    simp only [true_iff]
    exact ⟨(Bool.not_eq_false _).mp hdata, not_le.mp hearly⟩

/-- Of the calls of that turn only the flush can fail for good. -/
theorem sound_close_iff {e : KcpEngine} {buffered : List (Clock × Bytes)} {r : Readings} :
    Trace.Always KcpEngine.step Sound e (command_calls none buffered r) ↔
      ¬ (buffered.foldl (fun engine write => (engine.send write.1 write.2).1) e).Doomed r.flush.now := by
  have hsends : ∀ op ∈ buffered.map fun write => Op.send write.1 write.2, Quiet op := by
    intro op hmem
    obtain ⟨write, _, rfl⟩ := List.mem_map.mp hmem
    trivial
  rw [command_calls, Trace.always_append, run_sends, ← fatal_flush_iff, Bool.not_eq_true]
  exact ⟨fun h => h.2.1, fun h => ⟨always_sound_of_quiet hsends, h, sound_of_no_flush rfl, trivial⟩⟩

/-- A close heeds it unless its flush fails before the deadline. -/
theorem heeds_close_iff {self : Actor} {buffered : List (Clock × Bytes)} {r : Readings} (hexited : self.exited = none)
    (hserving : self.closing = false) :
    self.Heeds (.command none buffered r) ↔
      ¬ ((buffered.foldl (fun engine write => (engine.send write.1 write.2).1) self.engine).Doomed r.flush.now ∧
        r.closing < r.linger + 10000) := by
  have henabled : self.Enabled (.command none buffered r) := hserving
  have hcalls : (self.turn (.command none buffered r) r).exited = none →
      self.calls (.command none buffered r) = command_calls none buffered r := fun hturn =>
    (turn_open hexited henabled hturn).2
  have hheeds : self.Heeds (.command none buffered r) ↔ ((self.turn (.command none buffered r) r).exited = none →
      Trace.Always KcpEngine.step Sound self.engine (command_calls none buffered r)) :=
    forall_congr' fun hturn => by rw [hcalls hturn]
  rw [hheeds, sound_close_iff, close_open_iff hexited hserving]
  constructor
  · rintro h ⟨hdoomed, hearly⟩
    exact h ⟨hdoomed.has_unsent_data, hearly⟩ hdoomed
  · intro h hturn hdoomed
    exact h ⟨hdoomed, hturn.2⟩

/-- A turn does what a fatal error asks for exactly if it does not swallow it. -/
theorem heeds_iff (self : Actor) (event : Event) : self.Heeds event ↔ ¬ self.Swallows event := by
  have hidle : ∀ cmd buffered r, ¬ (self.exited = none ∧ self.closing = false) → self.Heeds (.command cmd buffered r) := by
    intro cmd buffered r hnot _
    have hcalls : self.calls (.command cmd buffered r) = [] := by
      apply turn_calls_of_idle
      by_contra hgo
      obtain ⟨hexited, henabled⟩ := not_or.mp hgo
      exact hnot ⟨Option.not_isSome_iff_eq_none.mp hexited, not_not.mp henabled⟩
    rw [hcalls]
    exact Trace.always_nil ..
  have hclose : ∀ buffered r, self.Heeds (.command none buffered r) ↔ ¬ self.Swallows (.command none buffered r) := by
    intro buffered r
    by_cases hgo : self.exited = none ∧ self.closing = false
    · rw [heeds_close_iff hgo.1 hgo.2]
      exact not_congr ⟨fun h => ⟨hgo.1, hgo.2, h⟩, fun h => h.2.2⟩
    · exact iff_of_true (hidle _ _ _ hgo) fun h => hgo ⟨h.1, h.2.1⟩
  cases event with
  | timer r => exact iff_of_true (sound_turn fun hopen => sound_timer hopen) id
  | packet packet r => exact iff_of_true (sound_turn fun hopen => sound_packet hopen) id
  | write data more r => exact iff_of_true (sound_turn fun hopen => sound_write hopen) id
  | read n => exact iff_of_true (fun _ => Trace.always_nil ..) id
  | release => exact iff_of_true (fun _ => Trace.always_nil ..) id
  | command cmd buffered r =>
    cases cmd with
    | none => exact hclose buffered r
    | some cmd =>
      cases cmd with
      | Flush =>
        by_cases hgo : self.exited = none ∧ self.closing = false
        · rw [heeds_flush_iff hgo.1 hgo.2]
          exact not_congr ⟨fun h => ⟨hgo.1, hgo.2, h⟩, fun h => h.2.2⟩
        · exact iff_of_true (hidle _ _ _ hgo) fun h => hgo ⟨h.1, h.2.1⟩
      | Stats => exact iff_of_true (sound_turn fun _ => Trace.always_nil ..) id
      | IsAlive => exact iff_of_true (sound_turn fun _ => Trace.always_nil ..) id
      | Close => exact hclose buffered r

end Actor

/-- The task does what a fatal error of its engine asks for, in every turn and before its loop,
exactly if the `update` before the loop does not give up on a segment and no turn swallows
the error. -/
theorem fatal_stops_iff (settings : Settings) (engine : KcpEngine) (data_tx : Channel Bytes) (last_probe : Nat)
    (now : Timestamp) (clk : Clock) (pace : Nat → Nat) (events : List Event) :
    Trace.Always KcpEngine.step Sound engine (start_calls engine data_tx now clk pace) ∧
        Trace.Always Actor.step Actor.Heeds (Actor.start settings engine data_tx last_probe now clk pace) events ↔
      ¬ GivesUp engine (.update now clk) ∧
        Trace.Always Actor.step (fun self event => ¬ self.Swallows event)
          (Actor.start settings engine data_tx last_probe now clk pace) events := by
  have hheeds : Actor.Heeds = fun self event => ¬ self.Swallows event :=
    funext fun self => funext fun event => propext (self.heeds_iff event)
  have hstart : Trace.Always KcpEngine.step Sound engine (start_calls engine data_tx now clk pace) ↔
      ¬ GivesUp engine (.update now clk) := by
    rw [← sound_iff]
    refine ⟨fun h => h.1, fun h => ⟨h, sound_of_no_flush rfl, always_sound_of_quiet fun op hop => ?_⟩⟩
    rw [mem_drain_calls hop]
    trivial
  rw [hheeds, hstart]

/-- An engine that allows two transmissions. -/
def two_tries : Start where
  conv := 7
  config := { kcp_tokio.config.KcpConfig.default with max_retries := 2, accepted := rfl }
  updated := 0
  active := 0

/-- A segment is sent once, and its deadline passes. A `Flush` command sends it for the last
time and replies that the connection is lost; the next command is served all the same. -/
theorem flush_command_survives :
    let first := Actor.start (.new two_tries.config.toKcpConfig none) two_tries.fresh (.new Bytes 256) 0 0 (.at 0) fun _ => 0
    let events := [.write (some (.at 0, [1])) [] (.at 0), .command (some .Flush) [] (.at 1000), .command (some .Stats) [] (.at 1000)]
    ¬ Trace.Always Actor.step Actor.Heeds first events ∧ (Trace.run Actor.step first events).replies.length = 2 := by
  decide +kernel

end kcp_tokio.actor
