import Kcp.Engine.HeadMessage
import Kcp.Engine.ProbeTimer
import Kcp.Actor.Fatal

/-! What the engine still holds when the task leaves its loop. -/

open Mpsc kcp_core.protocol kcp_core.error kcp_core.engine kcp_core.network

namespace kcp_tokio.actor

/-! ### Received segments -/

/-- The segments of the reorder buffer with the numbers from `sn` on, up to the first gap. -/
def contiguous (buf : RecvBuf) : Nat → SeqNum → List KcpSegment
  | 0, _ => []
  | fuel + 1, sn =>
    match buf.lookup sn with
    | none => []
    | some segment => segment :: contiguous buf fuel (sn + 1)

/-- A complete message waits in the engine: its segments come first of all that is received
and acknowledged in order. -/
def Holds (e : KcpEngine) : Prop :=
  KcpEngine.CompleteHead (e.rcv_queue ++ contiguous e.rcv_buf e.rcv_buf.entries.length e.rcv_nxt)

/-- The second engine holds the received segments of the first. -/
structure SameHeld (e e' : KcpEngine) : Prop where
  queue : e'.rcv_queue = e.rcv_queue
  buf : e'.rcv_buf = e.rcv_buf
  next : e'.rcv_nxt = e.rcv_nxt

theorem SameHeld.refl (e : KcpEngine) : SameHeld e e := ⟨rfl, rfl, rfl⟩

theorem SameHeld.trans {first second third : KcpEngine} (h : SameHeld first second) (h' : SameHeld second third) :
    SameHeld first third := ⟨h'.queue.trans h.queue, h'.buf.trans h.buf, h'.next.trans h.next⟩

/-- Whether the engine holds a complete message depends on what it has received. -/
theorem SameHeld.holds_iff {e e' : KcpEngine} (h : SameHeld e e') : Holds e' ↔ Holds e := by
  unfold Holds
  rw [h.queue, h.buf, h.next]

/-- A flush touches nothing that was received. -/
theorem sameHeld_flush (e : KcpEngine) (clk : Clock) : SameHeld e (e.flush clk).1 := by
  obtain ⟨queue, buf, stats, heq⟩ := e.flush_shape clk
  rw [heq]
  exact ⟨rfl, rfl, rfl⟩

/-- A probe touches nothing that was received. -/
theorem sameHeld_keep_alive_probe (e : KcpEngine) (clk : Clock) : SameHeld e (e.keep_alive_probe clk).1 := by
  have hsame := sameHeld_flush { e with probe := { e.probe with flags := e.probe.flags ||| constants.IKCP_ASK_SEND } } clk
  exact ⟨hsame.queue, hsame.buf, hsame.next⟩

/-- `send` touches nothing that was received. -/
theorem sameHeld_send (e : KcpEngine) (clk : Clock) (data : Bytes) : SameHeld e (e.send clk data).1 := by
  obtain ⟨queue, sent, heq⟩ := e.send_shape clk data
  rw [heq]
  exact ⟨rfl, rfl, rfl⟩

/-- The loop that takes up messages touches nothing that was received. -/
theorem sameHeld_absorb (high_water : Nat) (e : KcpEngine) (writes : List (Clock × Bytes)) :
    SameHeld e (absorb high_water e writes) := by
  induction writes generalizing e with
  | nil => exact .refl e
  | cons write writes ih =>
    unfold absorb
    split
    · exact (sameHeld_send e write.1 write.2).trans (ih _)
    · exact .refl e

/-! ### What `drain_recv` leaves -/

/-- The message at the head is one that `recv` returns. -/
def Deliverable (e : KcpEngine) : Prop :=
  KcpEngine.HeadReady e.rcv_queue ∧ 0 < KcpEngine.message_length e.rcv_queue ∧
    KcpEngine.message_length e.rcv_queue < 2 ^ 31

/-- How many received segments wait. -/
def held (e : KcpEngine) : Nat := e.rcv_queue.length + e.rcv_buf.entries.length

/-- A `recv` that returns a message holds less. -/
theorem held_recv {e : KcpEngine} {msg : Bytes} (h : e.recv.2 = .ok (some msg)) : held e.recv.1 < held e := by
  obtain ⟨_, heq⟩ | ⟨⟨segment, rest, hqueue, _⟩, _, k, _, heq⟩ := e.recv_cases
  · rw [heq] at h
    cases h
  · rw [heq] at h ⊢
    by_cases hnil : KcpEngine.payload (e.rcv_queue.take k) = []
    · rw [if_pos hnil] at h
      cases h
    · rw [if_neg hnil]
      obtain ⟨flags, hflags⟩ := KcpEngine.tell_window_shape e (e.popped k).move_to_recv_queue
      obtain ⟨moved, hmoved, hcount⟩ := KcpEngine.takes_move_to_recv_queue (e.popped k)
      rw [hflags]
      have hlen : (e.popped k).move_to_recv_queue.rcv_queue.length = e.rcv_queue.length - k + moved.length := by
        rw [hmoved]
        simp [KcpEngine.popped]
      have hbuf : moved.length + (e.popped k).move_to_recv_queue.rcv_buf.entries.length = e.rcv_buf.entries.length := hcount
      have hpos : 0 < k := by
        by_contra hzero
        rw [Nat.eq_zero_of_not_pos hzero] at hnil
        exact hnil rfl
      have hqueued : 0 < e.rcv_queue.length := by
        rw [hqueue]
        exact Nat.succ_pos _
      change (e.popped k).move_to_recv_queue.rcv_queue.length +
        (e.popped k).move_to_recv_queue.rcv_buf.entries.length < held e
      unfold held
      omega

/-- Leading fragments without data do not count towards the length of their message. -/
theorem message_length_drop {queue : List KcpSegment} {k : Nat} (hk : k < KcpEngine.head_len queue)
    (hempty : KcpEngine.payload (queue.take k) = []) :
    KcpEngine.message_length (queue.drop k) = KcpEngine.message_length queue := by
  induction queue generalizing k with
  | nil => rw [List.drop_nil]
  | cons segment rest ih =>
    cases k with
    | zero => rfl
    | succ k =>
      simp only [List.take_succ_cons, KcpEngine.payload_cons, List.append_eq_nil_iff] at hempty
      unfold KcpEngine.head_len at hk
      by_cases hlast : segment.header.frg = 0
      · rw [if_pos hlast] at hk
        omega
      · rw [if_neg hlast] at hk
        have hwhole : KcpEngine.message_length (segment :: rest) =
            segment.data.length + KcpEngine.message_length rest := if_neg hlast
        rw [List.drop_succ_cons, ih (by omega) hempty.2, hwhole, hempty.1, List.length_nil, Nat.zero_add]

/-- A call that returns no message leaves none that can be returned. -/
theorem not_deliverable_recv {e : KcpEngine} (h : ∀ msg, e.recv.2 ≠ .ok (some msg)) : ¬ Deliverable e.recv.1 := by
  rintro ⟨hready, hpos, hlen⟩
  obtain ⟨hnone, heq⟩ | ⟨_, hsize, k, hloop, heq⟩ := e.recv_cases
  · rw [heq] at hready hpos hlen
    have hsame : Word.as_i32 (KcpEngine.message_length e.rcv_queue) = KcpEngine.message_length e.rcv_queue :=
      Word.as_i32_eq_of_lt hlen
    rcases hnone with hnone | hnone
    · exact hnone hready
    · have hsome : 0 < KcpEngine.message_length e.rcv_queue := hpos
      omega
  · by_cases hnil : KcpEngine.payload (e.rcv_queue.take k) = []
    · -- the loop stopped inside a message too long for its size
      rw [heq, if_pos hnil] at hlen
      by_cases hfits : KcpEngine.message_length e.rcv_queue < 2 ^ 31
      · have hexact := Word.as_i32_eq_of_lt hfits
        have hall := KcpEngine.recv_loop_fits (Word.as_i32 (KcpEngine.message_length e.rcv_queue)).toNat e.rcv_queue []
          (by rw [hexact]; simp)
        rw [hloop, hnil, List.nil_append] at hall
        have hlength := KcpEngine.length_payload_head e.rcv_queue
        have hnone : [] = KcpEngine.payload (e.rcv_queue.take (KcpEngine.head_len e.rcv_queue)) := congrArg Prod.fst hall
        rw [← hnone, List.length_nil] at hlength
        omega
      · have hshort := Word.as_i32_lt_of_le (n := KcpEngine.message_length e.rcv_queue) (by omega)
        obtain ⟨j, hagain, hj⟩ := KcpEngine.recv_loop_short (Word.as_i32 (KcpEngine.message_length e.rcv_queue)).toNat
          e.rcv_queue [] (Nat.zero_le _) (by simp only [List.length_nil]; omega)
        rw [hloop, List.nil_append, Prod.mk.injEq] at hagain
        obtain ⟨hdata, hrest⟩ := hagain
        have hsame := message_length_drop hj (hdata.symm.trans hnil)
        change KcpEngine.message_length (e.rcv_queue.drop k) < 2 ^ 31 at hlen
        rw [hrest, hsame] at hlen
        exact hfits hlen
    · rw [heq, if_neg hnil] at h
      exact h _ rfl

/-- `drain_recv` leaves a message that can be returned only where no slot is left for it. -/
theorem drain_recv_left (pace : Nat → Nat) (e : KcpEngine) (data_tx : Channel Bytes)
    (h : Deliverable (drain_recv pace e data_tx).1) : ¬ (drain_recv pace e data_tx).2.HasRoom := by
  have hloop : ∀ fuel i e data_tx, held e < fuel → Deliverable (drain_recv_loop pace fuel i e data_tx).1 →
      ¬ (drain_recv_loop pace fuel i e data_tx).2.HasRoom := by
    intro fuel
    induction fuel with
    | zero => exact fun _ _ _ hfuel => absurd hfuel (Nat.not_lt_zero _)
    | succ fuel ih =>
      intro i e data_tx hfuel
      unfold drain_recv_loop
      dsimp only
      by_cases hroom : (data_tx.take (pace i)).HasRoom
      · rw [Channel.try_reserve_of_room hroom]
        dsimp only
        cases hrecv : e.recv with
        | mk engine result =>
          have hengine : e.recv.1 = engine := congrArg Prod.fst hrecv
          have hresult : e.recv.2 = result := congrArg Prod.snd hrecv
          cases result with
          | error err =>
            intro hleft
            rw [← hengine] at hleft
            exact absurd hleft (not_deliverable_recv fun msg hmsg => by rw [hresult] at hmsg; cases hmsg)
          | ok message =>
            cases message with
            | none =>
              intro hleft
              rw [← hengine] at hleft
              exact absurd hleft (not_deliverable_recv fun msg hmsg => by rw [hresult] at hmsg; cases hmsg)
            | some msg =>
              have hshrinks := held_recv hresult
              rw [hengine] at hshrinks
              exact ih (i + 1) engine _ (by omega)
      · rw [Channel.try_reserve_of_full hroom]
        exact fun _ => hroom
  exact hloop _ 0 e data_tx (Nat.lt_succ_self _) h

namespace Actor

/-- The engine once the packet of the turn, if it takes one, has arrived. -/
def arrived (self : Actor) : Event → KcpEngine
  | .packet (some data) r => (self.engine.input r.input data).1
  | _ => self.engine

/-- What is left as it is on the way out. -/
structure Left (e : KcpEngine) (self self' : Actor) : Prop where
  held : SameHeld e self'.engine
  reader : self'.data_tx.receiver_open = self.data_tx.receiver_open

/-- The branch either goes on, or leaves the loop with what it was told of. -/
def GoesOn (e : KcpEngine) (self self' : Actor) : Prop := self'.exited = none ∨ (self'.exited ≠ some .drained ∧ Left e self self')

theorem exit_early (self : Actor) {reason : Exit} (h : reason ≠ .drained) : (self.exit reason).exited ≠ some .drained :=
  fun heq => h (Option.some.inj heq)

/-- A keep-alive goes on, or leaves the loop with what the engine has. -/
theorem goesOn_keep_alive {self : Actor} (h : self.exited = none) (r : Readings) :
    GoesOn self.engine self (self.keep_alive r) := by
  have hprobe := sameHeld_keep_alive_probe self.engine r.probe
  unfold keep_alive
  cases self.settings.keep_alive_ms with
  | none => exact .inl h
  | some ka =>
    dsimp only
    split_ifs
    · exact .inr ⟨exit_early _ (by decide), .refl _, rfl⟩
    · exact .inr ⟨exit_early _ (by decide), hprobe, rfl⟩
    · exact .inl h
    · exact .inl h

/-- Every branch goes on, or leaves the loop with what the engine has once its packet is in. -/
theorem goesOn_branch {self : Actor} (h : self.exited = none) (event : Event) :
    GoesOn (self.arrived event) self (self.branch event) := by
  cases event with
  | timer r =>
    have hflush := sameHeld_flush self.engine r.flush
    simp only [branch, on_timer, arrived]
    split_ifs with hfatal hleft
    · exact .inr ⟨exit_early _ (by decide), hflush, rfl⟩
    · have hrunning : ({ self with engine := (self.engine.flush r.flush).1 } : Actor).exited = none := h
      have hgoes := goesOn_keep_alive hrunning r
      rcases hgoes with hnone | ⟨hexit, hheld, hreader⟩
      · rw [hnone] at hleft
        cases hleft
      · exact .inr ⟨hexit, hflush.trans hheld, hreader⟩
    · left
      exact Option.not_isSome_iff_eq_none.mp hleft
  | command cmd buffered r =>
    left
    simp only [branch, on_command]
    split <;> exact h
  | packet packet r =>
    cases packet with
    | none => exact .inr ⟨exit_early self (by decide), .refl _, rfl⟩
    | some data =>
      simp only [branch, on_packet, arrived]
      split_ifs
      · exact .inr ⟨exit_early _ (by decide), sameHeld_flush .., rfl⟩
      · exact .inl h
  | write data more r =>
    cases data with
    | none => exact .inl h
    | some write =>
      simp only [branch, on_write, arrived]
      split_ifs
      · refine .inr ⟨exit_early _ (by decide), ?_, rfl⟩
        exact ((sameHeld_send ..).trans (sameHeld_absorb ..)).trans (sameHeld_flush ..)
      · exact .inl h
  | read n => exact .inl h
  | release => exact .inl h

/-- A turn that leaves the loop early leaves behind what the engine had. -/
theorem turn_exit {self : Actor} {event : Event} {r : Readings} {reason : Exit} (h : self.exited = none)
    (hexit : (self.turn event r).exited = some reason) (hearly : reason ≠ .drained) :
    Left (self.arrived event) self (self.turn event r) := by
  unfold turn at hexit ⊢
  dsimp only at hexit ⊢
  split_ifs at hexit ⊢ with hskip hleft
  · rw [h] at hexit
    cases hexit
  · rcases goesOn_branch h event with hnone | ⟨_, hkept⟩
    · rw [hnone] at hleft
      cases hleft
    · exact hkept
  · unfold finish_closing at hexit
    split_ifs at hexit
    · exact absurd (Option.some.inj hexit).symm hearly
    · rw [hexit] at hleft
      exact absurd rfl hleft

/-- A turn that leaves the loop early leaves what was received as the packet, if there was
one, made it. -/
theorem step_exit {self : Actor} {event : Event} {reason : Exit} (h : self.exited = none)
    (hexit : (self.step event).exited = some reason) (hearly : reason ≠ .drained) :
    Left (self.arrived event) self (self.step event) := by
  cases event with
  | timer r => exact turn_exit h hexit hearly
  | command cmd buffered r => exact turn_exit h hexit hearly
  | packet packet r => exact turn_exit h hexit hearly
  | write data more r => exact turn_exit h hexit hearly
  | read n => exact absurd (h.symm.trans hexit) (by simp)
  | release => exact absurd (h.symm.trans hexit) (by simp)

/-- Once it has left, the task changes nothing. -/
theorem step_of_exited {self : Actor} {reason : Exit} (h : self.exited = some reason) (event : Event) :
    (self.step event).engine = self.engine ∧ (self.step event).exited = some reason ∧
      ((self.step event).data_tx.receiver_open = true → self.data_tx.receiver_open = true) := by
  have hturn : ∀ event r, self.turn event r = self := by
    intro event r
    unfold turn
    rw [if_pos (.inl (by rw [h]; rfl))]
  cases event with
  | timer r => rw [step, hturn]; exact ⟨rfl, h, id⟩
  | command cmd buffered r => rw [step, hturn]; exact ⟨rfl, h, id⟩
  | packet packet r => rw [step, hturn]; exact ⟨rfl, h, id⟩
  | write data more r => rw [step, hturn]; exact ⟨rfl, h, id⟩
  | read n => exact ⟨rfl, h, id⟩
  | release => exact ⟨rfl, h, fun hopen => absurd hopen Bool.false_ne_true⟩

end Actor

namespace Actor

/-- Having left the loop for any reason but its own close, while the channel may still be read,
the task leaves no complete message behind. -/
def Complete (self : Actor) : Prop :=
  ∀ reason, self.exited = some reason → reason ≠ .drained → self.data_tx.receiver_open = true → ¬ Holds self.engine

/-- The turn breaks off: its flush or its probe gives up on a segment, the peer has been silent for three
keep-alive intervals, or the input has ended. -/
def BreaksOff (self : Actor) : Event → Prop
  | .timer r => self.engine.Doomed r.flush.now ∨ ∃ ka ∈ self.settings.keep_alive_ms,
      ka * 3 ≤ (self.engine.idle_ms r.silent).toNat ∨ ka ≤ (self.engine.idle_ms r.idle).toNat ∧
        ka ≤ r.elapsed - self.last_probe ∧ (self.engine.flush r.flush).1.Doomed r.probe.now
  | .packet none _ => True
  | .packet (some data) r => (self.engine.input r.input data).1.Doomed r.flush.now
  | .write (some (clk, data)) more r => self.Enabled (.write (some (clk, data)) more r) ∧
      (absorb self.settings.send_high_water (self.engine.send clk data).1 more).Doomed r.flush.now
  | _ => False

/-- A keep-alive leaves the loop for a silent peer or a doomed probe. -/
theorem keep_alive_exits_iff {self : Actor} (h : self.exited = none) (r : Readings) :
    (self.keep_alive r).exited.isSome = true ↔ ∃ ka ∈ self.settings.keep_alive_ms,
      ka * 3 ≤ (self.engine.idle_ms r.silent).toNat ∨ ka ≤ (self.engine.idle_ms r.idle).toNat ∧
        ka ≤ r.elapsed - self.last_probe ∧ self.engine.Doomed r.probe.now := by
  have hprobe : fatal (self.engine.keep_alive_probe r.probe).2 = true ↔ self.engine.Doomed r.probe.now :=
    fatal_flush_iff (e := { self.engine with
      probe := { self.engine.probe with flags := self.engine.probe.flags ||| constants.IKCP_ASK_SEND } })
  unfold keep_alive
  cases hka : self.settings.keep_alive_ms with
  | none => simp [h]
  | some ka =>
    simp only [Option.mem_def, Option.some.injEq, exists_eq_left']
    split_ifs with hsilent hidle hfatal
    · exact iff_of_true rfl (.inl hsilent)
    · exact iff_of_true rfl (.inr ⟨hidle.1, hidle.2, hprobe.mp hfatal⟩)
    · refine iff_of_false (by rw [h]; decide) ?_
      rintro (hlong | ⟨_, _, hdoomed⟩)
      · exact hsilent hlong
      · exact hfatal (hprobe.mpr hdoomed)
    · refine iff_of_false (by rw [h]; decide) ?_
      rintro (hlong | ⟨hlong, helapsed, _⟩)
      · exact hsilent hlong
      · exact hidle ⟨hlong, helapsed⟩

/-- A flush does not touch the reading of the last activity. -/
theorem idle_ms_flush (e : KcpEngine) (clk : Clock) (now : Timestamp) : (e.flush clk).1.idle_ms now = e.idle_ms now := by
  obtain ⟨queue, buf, stats, heq⟩ := e.flush_shape clk
  rw [heq]
  rfl

/-- A branch that may be taken exits exactly where the turn breaks off. -/
theorem branch_exits_iff {self : Actor} (h : self.exited = none) {event : Event} (henabled : self.Enabled event) :
    (self.branch event).exited.isSome = true ↔ self.BreaksOff event := by
  cases event with
  | timer r =>
    simp only [branch, on_timer, BreaksOff]
    by_cases hdoomed : self.engine.Doomed r.flush.now
    · rw [if_pos (fatal_flush_iff.mpr hdoomed)]
      exact iff_of_true rfl (.inl hdoomed)
    · rw [if_neg (mt fatal_flush_iff.mp hdoomed), or_iff_right hdoomed]
      have hrunning : ({ self with engine := (self.engine.flush r.flush).1 } : Actor).exited = none := h
      have hkeep := keep_alive_exits_iff hrunning r
      rw [idle_ms_flush, idle_ms_flush] at hkeep
      rw [← hkeep]
      split
      · rfl
      · exact Iff.rfl
  | command cmd buffered r =>
    refine iff_of_false ?_ id
    simp only [branch, on_command]
    split <;> simp [h]
  | packet packet r =>
    cases packet with
    | none => exact iff_of_true rfl trivial
    | some data =>
      simp only [branch, on_packet, BreaksOff]
      rw [← fatal_flush_iff]
      split_ifs with hfatal
      · exact iff_of_true rfl hfatal
      · exact iff_of_false (by simp [forward, h]) hfatal
  | write data more r =>
    cases data with
    | none => exact iff_of_false (by simp [branch, on_write, h]) id
    | some write =>
      simp only [branch, on_write, BreaksOff]
      rw [and_iff_right henabled, ← fatal_flush_iff]
      split_ifs with hfatal
      · exact iff_of_true rfl hfatal
      · exact iff_of_false (by simp [h]) hfatal
  | read n => exact iff_of_false (by simp [branch, h]) id
  | release => exact iff_of_false (by simp [branch, h]) id

/-- What a turn breaks off for cannot happen in a branch that is not taken. -/
theorem BreaksOff.enabled {self : Actor} {event : Event} (h : self.BreaksOff event) : self.Enabled event := by
  cases event with
  | timer r => trivial
  | packet packet r => trivial
  | write data more r =>
    cases data with
    | none => exact h.elim
    | some write => exact h.1
  | command cmd buffered r => exact h.elim
  | read n => exact h.elim
  | release => exact h.elim

/-- A turn leaves the loop early exactly if it breaks off. -/
theorem turn_exits_iff {self : Actor} (h : self.exited = none) (event : Event) (r : Readings) :
    (∃ reason, (self.turn event r).exited = some reason ∧ reason ≠ .drained) ↔ self.BreaksOff event := by
  by_cases henabled : self.Enabled event
  · rw [← branch_exits_iff h henabled]
    have hgoes : ¬ (self.exited.isSome = true ∨ ¬ self.Enabled event) := by
      rw [h]
      simp [henabled]
    unfold turn
    rw [if_neg hgoes]
    dsimp only
    rcases goesOn_branch h event with hnone | ⟨hearly, _⟩
    · rw [if_neg (by rw [hnone]; decide)]
      refine iff_of_false ?_ (by rw [hnone]; decide)
      rintro ⟨reason, hexit, hother⟩
      unfold finish_closing at hexit
      split_ifs at hexit
      · exact hother (Option.some.inj hexit).symm
      · rw [hnone] at hexit
        cases hexit
    · by_cases hexited : (self.branch event).exited.isSome = true
      · obtain ⟨reason, hexit⟩ := Option.isSome_iff_exists.mp hexited
        rw [if_pos hexited]
        exact iff_of_true ⟨reason, hexit, fun heq => hearly (hexit.trans (congrArg some heq))⟩ hexited
      · rw [if_neg hexited]
        refine iff_of_false ?_ hexited
        rintro ⟨reason, hexit, hother⟩
        unfold finish_closing at hexit
        split_ifs at hexit
        · exact hother (Option.some.inj hexit).symm
        · rw [hexit] at hexited
          exact hexited rfl
  · refine iff_of_false ?_ fun hbreaks => henabled hbreaks.enabled
    rintro ⟨reason, hexit, _⟩
    unfold turn at hexit
    rw [if_pos (.inr henabled), h] at hexit
    cases hexit

/-- A turn with the readings of its event leaves the loop early exactly if it breaks off. -/
theorem step_exits_iff {self : Actor} (h : self.exited = none) (event : Event) :
    (∃ reason, (self.step event).exited = some reason ∧ reason ≠ .drained) ↔ self.BreaksOff event := by
  have hquiet : ∀ after : Actor, after.exited = self.exited → ¬ ∃ reason, after.exited = some reason ∧ reason ≠ .drained := by
    rintro after hsame ⟨reason, hexit, _⟩
    rw [hsame, h] at hexit
    cases hexit
  cases event with
  | timer r => exact turn_exits_iff h _ r
  | command cmd buffered r => exact turn_exits_iff h _ r
  | packet packet r => exact turn_exits_iff h _ r
  | write data more r => exact turn_exits_iff h _ r
  | read n => exact iff_of_false (hquiet _ rfl) id
  | release => exact iff_of_false (hquiet _ rfl) id

/-- A turn that breaks off while the channel may still be read is taken with no complete message in the
engine, nor one that its packet completes. -/
def Delivers (self : Actor) (event : Event) : Prop :=
  self.exited = none → self.data_tx.receiver_open = true → self.BreaksOff event → ¬ Holds (self.arrived event)

theorem complete_step_iff {self : Actor} (h : self.Complete) (event : Event) :
    (self.step event).Complete ↔ self.Delivers event := by
  cases hin : self.exited with
  | none =>
    have hexits := step_exits_iff hin event
    constructor
    · intro hafter _ hopen hbreaks
      obtain ⟨reason, hexit, hearly⟩ := hexits.mpr hbreaks
      obtain ⟨hheld, hreader⟩ := step_exit hin hexit hearly
      have hnone := hafter reason hexit hearly (hreader.trans hopen)
      rwa [hheld.holds_iff] at hnone
    · intro hbefore reason hexit hearly hopen
      obtain ⟨hheld, hreader⟩ := step_exit hin hexit hearly
      rw [hheld.holds_iff]
      exact hbefore hin (hreader.symm.trans hopen) (hexits.mp ⟨reason, hexit, hearly⟩)
  | some first =>
    obtain ⟨hengine, hexited, hreader⟩ := step_of_exited hin event
    refine iff_of_true ?_ fun hnone => absurd (hin.symm.trans hnone) (by simp)
    intro reason hexit hearly hopen
    rw [hengine]
    exact h reason (hin.trans (hexited.symm.trans hexit)) hearly (hreader hopen)

/-- No state of a run leaves a message behind exactly if every turn delivers. -/
theorem complete_run_iff {self : Actor} (h : self.Complete) (events : List Event) :
    (∀ n, (Trace.run step self (events.take n)).Complete) ↔ Trace.Always step Delivers self events :=
  Trace.states_iff (I := Complete) (fun _ h => h) (fun _ event h => (complete_step_iff h event).mpr)
    (fun _ event h => (complete_step_iff h event).mp) h events

end Actor

open Actor

/-- In every run of the task, the messages placed in the channel are those that its engine
returned, in order and each of them once. No complete message is left behind in any state
of the run, exactly if no turn breaks off, for a doomed flush or probe, a silent peer or the end of the input,
while the engine holds one. A turn that forwards messages leaves one for want of a slot alone. -/
theorem leftover_iff (settings : Settings) (engine : KcpEngine) (data_tx : Channel Bytes) (last_probe : Nat)
    (now : Timestamp) (clk : Clock) (pace : Nat → Nat) (events : List Event) :
    (∃ messages, Ran engine (Trace.run step (start settings engine data_tx last_probe now clk pace) events).engine messages ∧
        (Trace.run step (start settings engine data_tx last_probe now clk pace) events).data_tx.sent =
          data_tx.sent ++ messages) ∧
      ((∀ n, (Trace.run step (start settings engine data_tx last_probe now clk pace) (events.take n)).Complete) ↔
        Trace.Always step Delivers (start settings engine data_tx last_probe now clk pace) events) ∧
      ∀ (self : Actor) (r : Readings), Deliverable (self.forward r).engine → ¬ (self.forward r).data_tx.HasRoom := by
  refine ⟨?_, ?_, fun self r hleft => drain_recv_left _ _ _ hleft⟩
  · obtain ⟨messages, hran, hsent⟩ := ran_start settings engine data_tx last_probe now clk pace
    obtain ⟨_, more, hmore, hsent'⟩ := advances_run (start settings engine data_tx last_probe now clk pace) events
    exact ⟨messages ++ more, hran.trans hmore, by rw [hsent', hsent, List.append_assoc]⟩
  · exact complete_run_iff (fun reason hexit => by cases hexit) events

/-! ### More messages than slots -/

/-- A message of its own. -/
def Single (segment : KcpSegment) : Prop :=
  segment.header.frg = 0 ∧ segment.data ≠ [] ∧ segment.data.length < 2 ^ 31

/-- A message of one segment is returned whole, and its segment is removed. -/
theorem recv_single {e : KcpEngine} {segment : KcpSegment} {rest : List KcpSegment} (hqueue : e.rcv_queue = segment :: rest)
    (hsingle : Single segment) (hbuf : e.rcv_buf = ∅) (hroom : e.rcv_queue.length < e.wnd.rcv.toNat) :
    ∃ stats, e.recv = ({ e with rcv_queue := rest, stats }, .ok (some segment.data)) := by
  obtain ⟨hlast, hsome, hshort⟩ := hsingle
  have hlength : KcpEngine.message_length e.rcv_queue = segment.data.length := by
    rw [hqueue]
    exact if_pos hlast
  have hhead : KcpEngine.head_len e.rcv_queue = 1 := by
    rw [hqueue]
    exact if_pos hlast
  have hrecv : e.recv = _ := KcpEngine.recv_of_ready ⟨segment, rest, hqueue, .inl hlast⟩
    (by rw [hlength]; exact List.length_pos_iff.mpr hsome) (by rw [hlength]; exact hshort)
  have hmove : (e.popped 1).move_to_recv_queue = e.popped 1 := by
    unfold KcpEngine.move_to_recv_queue
    have hnone : (e.popped 1).rcv_buf.entries.length = 0 := by
      change e.rcv_buf.entries.length = 0
      rw [hbuf]
      rfl
    rw [hnone]
    rfl
  have htell : KcpEngine.tell_window e (e.popped 1) = e.popped 1 := if_neg fun h => by omega
  rw [hhead, hmove, htell] at hrecv
  refine ⟨(e.popped 1).stats, ?_⟩
  rw [hrecv, hqueue]
  simp [KcpEngine.popped, hqueue]

/-- As many of the messages as there are free slots have gone to the channel. -/
structure Forwarded (segments : List KcpSegment) (e : KcpEngine) (data_tx : Channel Bytes) (after : KcpEngine × Channel Bytes) :
    Prop where
  engine : ∃ stats, after.1 = { e with rcv_queue := segments.drop (data_tx.capacity - data_tx.queue.length), stats }
  queue : after.2.queue =
    data_tx.queue ++ (segments.take (data_tx.capacity - data_tx.queue.length)).map (fun s => s.data)
  capacity : after.2.capacity = data_tx.capacity
  receiver : after.2.receiver_open = true

/-- With nothing to forward, or no slot for it. -/
theorem Forwarded.stop {segments : List KcpSegment} {e : KcpEngine} {data_tx : Channel Bytes} (hqueue : e.rcv_queue = segments)
    (hopen : data_tx.receiver_open = true) (h : segments = [] ∨ data_tx.capacity - data_tx.queue.length = 0) :
    Forwarded segments e data_tx (e, data_tx) := by
  rcases h with rfl | hnone
  · exact ⟨⟨e.stats, by rw [List.drop_nil, ← hqueue]⟩, by rw [List.take_nil, List.map_nil, List.append_nil], rfl, hopen⟩
  · exact ⟨⟨e.stats, by rw [hnone, List.drop_zero, ← hqueue]⟩,
      by rw [hnone, List.take_zero, List.map_nil, List.append_nil], rfl, hopen⟩

/-- One message, and then the others. -/
theorem Forwarded.cons {segment : KcpSegment} {rest : List KcpSegment} {e : KcpEngine} {data_tx : Channel Bytes}
    {stats : KcpStats} (hfree : data_tx.HasRoom) {after : KcpEngine × Channel Bytes}
    (h : Forwarded rest { e with rcv_queue := rest, stats } (data_tx.push hfree segment.data) after) :
    Forwarded (segment :: rest) e data_tx after := by
  obtain ⟨⟨stats', hengine⟩, hqueue, hcapacity, hreceiver⟩ := h
  have hfewer : data_tx.capacity - data_tx.queue.length =
      (data_tx.capacity - (data_tx.push hfree segment.data).queue.length) + 1 := by
    have hlt := hfree.2
    rw [Channel.push_queue, List.length_append, List.length_singleton]
    omega
  refine ⟨⟨stats', ?_⟩, ?_, hcapacity, hreceiver⟩
  · rw [hengine, hfewer]
    rfl
  · rw [hqueue, hfewer, Channel.push_queue, List.append_assoc]
    rfl

/-- Without a message or a slot, the loop stops. -/
theorem drain_recv_loop_stop {e : KcpEngine} {data_tx : Channel Bytes} (h : e.rcv_queue = [] ∨ ¬ data_tx.HasRoom) (fuel i : Nat) :
    drain_recv_loop (fun _ => 0) (fuel + 1) i e data_tx = (e, data_tx) := by
  unfold drain_recv_loop
  dsimp only
  rw [Channel.take_zero]
  by_cases hfree : data_tx.HasRoom
  · have hrecv : e.recv = (e, .ok none) := by
      apply KcpEngine.recv_of_none
      left
      rintro ⟨segment, rest, hsome, _⟩
      rw [h.resolve_right (not_not.mpr hfree)] at hsome
      cases hsome
    rw [Channel.try_reserve_of_room hfree]
    dsimp only
    rw [hrecv]
  · rw [Channel.try_reserve_of_full hfree]

/-- With both, the first message moves. -/
theorem drain_recv_loop_single {e : KcpEngine} {segment : KcpSegment} {rest : List KcpSegment} (hqueue : e.rcv_queue = segment :: rest)
    (hsingle : Single segment) (hbuf : e.rcv_buf = ∅) (hroom : e.rcv_queue.length < e.wnd.rcv.toNat) {data_tx : Channel Bytes}
    (hfree : data_tx.HasRoom) (fuel i : Nat) :
    ∃ stats, drain_recv_loop (fun _ => 0) (fuel + 1) i e data_tx =
      drain_recv_loop (fun _ => 0) fuel (i + 1) { e with rcv_queue := rest, stats } (data_tx.push hfree segment.data) := by
  obtain ⟨stats, hrecv⟩ := recv_single hqueue hsingle hbuf hroom
  refine ⟨stats, ?_⟩
  conv_lhs => unfold drain_recv_loop
  dsimp only
  rw [Channel.take_zero, Channel.try_reserve_of_room hfree]
  dsimp only
  rw [hrecv]

/-- Of such messages, `drain_recv` forwards as many as there are free slots. -/
theorem drain_recv_singles {segments : List KcpSegment} (hsingle : ∀ s ∈ segments, Single s) {e : KcpEngine}
    {data_tx : Channel Bytes} (hqueue : e.rcv_queue = segments) (hbuf : e.rcv_buf = ∅)
    (hroom : segments.length < e.wnd.rcv.toNat) (hopen : data_tx.receiver_open = true) :
    Forwarded segments e data_tx (drain_recv (fun _ => 0) e data_tx) := by
  have hloop : ∀ fuel i, segments.length < fuel → Forwarded segments e data_tx (drain_recv_loop (fun _ => 0) fuel i e data_tx) := by
    induction segments generalizing e data_tx with
    | nil =>
      intro fuel i hfuel
      obtain ⟨fuel, rfl⟩ := Nat.exists_eq_succ_of_ne_zero (Nat.pos_iff_ne_zero.mp hfuel)
      rw [drain_recv_loop_stop (.inl hqueue)]
      exact .stop hqueue hopen (.inl rfl)
    | cons segment rest ih =>
      intro fuel i hfuel
      obtain ⟨fuel, rfl⟩ := Nat.exists_eq_succ_of_ne_zero (Nat.ne_zero_of_lt hfuel)
      rw [List.length_cons] at hfuel hroom
      by_cases hfree : data_tx.HasRoom
      · obtain ⟨stats, hstep⟩ := drain_recv_loop_single hqueue (hsingle segment List.mem_cons_self) hbuf
          (by rw [hqueue]; exact hroom) hfree fuel i
        rw [hstep]
        have hrest : ∀ s ∈ rest, Single s := fun s hs => hsingle s (List.mem_cons_of_mem _ hs)
        exact .cons hfree (ih (e := { e with rcv_queue := rest, stats }) hrest rfl hbuf (Nat.lt_of_succ_lt hroom)
          (by exact hopen) fuel (i + 1) (by omega))
      · rw [drain_recv_loop_stop (.inr hfree)]
        exact .stop hqueue hopen (.inr (by
          by_contra hsome
          exact hfree ⟨hopen, by omega⟩))
  exact hloop _ 0 (by rw [hqueue]; omega)

/-- An engine with a receive window of 512 segments. -/
def wide : Start where
  conv := 7
  config := { kcp_tokio.config.KcpConfig.default with rcv_wnd := 512, accepted := rfl }
  updated := 0
  active := 0

/-- One-byte messages, one segment each. -/
def small (i : Nat) : KcpSegment :=
  let segment := KcpSegment.push 7 (BitVec.ofNat 32 i) [0] 0
  { segment with header := { segment.header with wnd := 128 } }

def smalls (n : Nat) : List KcpSegment := (List.range n).map small

/-- Each of them is a message of its own. -/
theorem single_smalls (n : Nat) : ∀ s ∈ smalls n, Single s := by
  intro s hs
  obtain ⟨i, _, rfl⟩ := List.mem_map.mp hs
  exact ⟨rfl, List.cons_ne_nil _ _, (by decide : 1 < 2 ^ 31)⟩

theorem split_smalls (n : Nat) : KcpEngine.split_segments ((smalls n).flatMap KcpSegment.bytes) = smalls n := by
  have hsized : ∀ s ∈ smalls n, KcpEngine.Sized s := by
    intro s hs
    obtain ⟨i, _, rfl⟩ := List.mem_map.mp hs
    rfl
  rw [KcpEngine.split_segments_bytes hsized]
  unfold smalls
  rw [List.map_map]
  rfl

/-- One message more than the data channel holds, in one datagram. -/
def burst : Bytes := (smalls 257).flatMap KcpSegment.bytes

/-- All of them are accepted, and wait in order. -/
theorem input_burst :
    (wide.fresh.input 0 burst).1.rcv_queue = smalls 257 ∧ (wide.fresh.input 0 burst).1.rcv_buf.entries = [] ∧
      (wide.fresh.input 0 burst).1.snd_queue = [] ∧ (wide.fresh.input 0 burst).1.snd_buf = [] ∧
      (wide.fresh.input 0 burst).1.wnd.rmt = 128 ∧ (wide.fresh.input 0 burst).1.wnd.rcv = 512 ∧
      (wide.fresh.input 0 burst).1.last_activity = 0 := by
  have hlong : ¬ burst.length < KcpHeader.SIZE := by
    have hfirst : burst = (small 0).bytes ++ (smalls 257).tail.flatMap KcpSegment.bytes := rfl
    rw [hfirst, List.length_append, KcpSegment.length_bytes]
    unfold KcpSegment.size
    omega
  rw [KcpEngine.input_eq hlong, KcpEngine.input_loop, burst, split_smalls]
  decide +kernel

/-- With no data to send, and an open window at the peer, a flush goes through and stops the
timers of the engine. -/
theorem flush_without_data {e : KcpEngine} (hqueue : e.snd_queue = []) (hbuf : e.snd_buf = []) (hrmt : e.wnd.rmt ≠ 0)
    (clk : Clock) :
    (e.flush clk).2 = .ok () ∧ (e.flush clk).1.snd_queue = [] ∧ (e.flush clk).1.snd_buf = [] ∧
      (e.flush clk).1.ack_list = [] ∧ (e.flush clk).1.probe = { flags := 0, wait := 0, ts := 0 } ∧
      (e.flush clk).1.wnd.rmt = e.wnd.rmt ∧ (e.flush clk).1.wnd.rcv = e.wnd.rcv ∧
      (e.flush clk).1.last_activity = e.last_activity := by
  have hadmitted : e.admitted = 0 := by
    unfold KcpEngine.admitted
    rw [hqueue]
    rfl
  have hdue : (e.ready clk.now).due clk.now = [] := by
    rw [KcpEngine.due_ready_eq_nil_iff]
    refine ⟨fun segment hs => ?_, hadmitted⟩
    rw [hbuf] at hs
    cases hs
  have hlives : ¬ e.flush_dies clk.now = true := by
    rw [KcpEngine.flush_dies, hdue]
    exact Bool.false_ne_true
  have hempty : e.flushed_buf clk.now = [] := by
    unfold KcpEngine.flushed_buf
    rw [hbuf, hqueue, List.take_nil]
    rfl
  obtain ⟨_, hrcv, hrmt'⟩ := e.flushed_wnd_frame clk.now
  obtain ⟨queue, buf, stats, heq⟩ := e.flush_shape clk
  rw [KcpEngine.flush_result, if_neg hlives, heq]
  dsimp only
  rw [hqueue, List.drop_nil, hempty, KcpEngine.probe_timer_open hrmt, hrmt', hrcv]
  exact ⟨rfl, rfl, rfl, rfl, rfl, rfl, rfl, rfl⟩

namespace Actor

/-- The turn of a packet, when its flush goes through. -/
theorem step_packet {self : Actor} (hrunning : self.exited = none) (hopen : self.closing = false) {data : Bytes}
    {r : Readings} (hok : ((self.engine.input r.input data).1.flush r.flush).2 = .ok ()) :
    self.step (.packet (some data) r) =
      forward { self with engine := ((self.engine.input r.input data).1.flush r.flush).1 } r := by
  have hbranch : self.branch (.packet (some data) r) =
      forward { self with engine := ((self.engine.input r.input data).1.flush r.flush).1 } r := by
    simp only [branch, on_packet, hok, fatal, Bool.false_eq_true, if_false]
  have hgoes : ¬ (self.exited.isSome = true ∨ ¬ self.Enabled (.packet (some data) r)) := by
    rintro (hsome | hnot)
    · rw [hrunning] at hsome
      cases hsome
    · exact hnot trivial
  rw [step, turn, if_neg hgoes, hbranch]
  dsimp only
  rw [if_neg (by change ¬ self.exited.isSome = true; rw [hrunning]; exact Bool.false_ne_true), finish_closing, if_neg]
  rintro ⟨hclosing, _⟩
  exact Bool.false_ne_true (hopen.symm.trans hclosing)

/-- The turn of the timer, when its flush goes through and the peer has been silent. -/
theorem step_timer_silent {self : Actor} (hrunning : self.exited = none) {r : Readings} {ka : Nat}
    (hok : (self.engine.flush r.flush).2 = .ok ()) (hka : self.settings.keep_alive_ms = some ka)
    (hsilent : ka * 3 ≤ ((self.engine.flush r.flush).1.idle_ms r.silent).toNat) :
    self.step (.timer r) = exit { self with engine := (self.engine.flush r.flush).1 } .peer_silent := by
  have hkeep : keep_alive { self with engine := (self.engine.flush r.flush).1 } r =
      exit { self with engine := (self.engine.flush r.flush).1 } .peer_silent := by
    simp only [keep_alive, hka, hsilent, if_true]
  have hbranch : self.branch (.timer r) = exit { self with engine := (self.engine.flush r.flush).1 } .peer_silent := by
    simp only [branch, on_timer, hok, fatal, Bool.false_eq_true, if_false, hkeep]
    rfl
  have hgoes : ¬ (self.exited.isSome = true ∨ ¬ self.Enabled (.timer r)) := by
    rintro (hsome | hnot)
    · rw [hrunning] at hsome
      cases hsome
    · exact hnot trivial
  rw [step, turn, if_neg hgoes, hbranch]
  rfl

end Actor

/-- The task of that engine, which takes three seconds of silence for the loss of the peer. -/
def slow_reader : Actor :=
  .start (.new wide.config.toKcpConfig (some 1000)) wide.fresh (.new Bytes 256) 0 0 (.at 0) fun _ => 0

/-- Nobody reads, and the datagram arrives. -/
def backlog : Actor := slow_reader.step (.packet (some burst) (.at 0))

/-- One message stays in the engine, and no timer of the engine runs. -/
structure Backlogged (a : Actor) : Prop where
  running : a.exited = none
  open_yet : a.closing = false
  settings : a.settings = slow_reader.settings
  reader : a.data_tx.receiver_open = true
  full : ¬ a.data_tx.HasRoom
  queue : a.engine.rcv_queue = [small 256]
  buf : a.engine.rcv_buf = ∅
  snd_queue : a.engine.snd_queue = []
  snd_buf : a.engine.snd_buf = []
  acks : a.engine.ack_list = []
  probe : a.engine.probe = { flags := 0, wait := 0, ts := 0 }
  rmt : a.engine.wnd.rmt = 128
  last_activity : a.engine.last_activity = 0

/-- The one message that is left is complete. -/
theorem Backlogged.holds {a : Actor} (h : Backlogged a) : Holds a.engine := by
  unfold Holds
  rw [h.queue, h.buf]
  exact ⟨small 256, [], rfl, .inl rfl⟩

/-- The channel is open and empty, and has 256 slots. -/
theorem start_slow_reader : slow_reader.data_tx.receiver_open = true ∧ slow_reader.data_tx.queue = [] ∧
    slow_reader.data_tx.capacity = 256 ∧ slow_reader.exited = none ∧ slow_reader.closing = false := by
  decide +kernel

/-- Nothing has reached the engine before the loop. -/
theorem engine_slow_reader : slow_reader.engine = wide.fresh := by
  rfl

/-- The channel takes 256 messages, and one stays in the engine. -/
theorem forward_smalls {e : KcpEngine} {a : Actor} (hqueue : e.rcv_queue = smalls 257) (hbuf : e.rcv_buf = ∅)
    (hroom : e.wnd.rcv = 512) (hopen : a.data_tx.receiver_open = true) (hnone : a.data_tx.queue = [])
    (hslots : a.data_tx.capacity = 256) :
    ∃ stats, (Actor.forward { a with engine := e } (.at 0)).engine =
        { flush_output e with rcv_queue := [small 256], stats } ∧
      (Actor.forward { a with engine := e } (.at 0)).data_tx.receiver_open = true ∧
      ¬ (Actor.forward { a with engine := e } (.at 0)).data_tx.HasRoom := by
  have hfits : (smalls 257).length < e.wnd.rcv.toNat := by
    rw [hroom, smalls, List.length_map, List.length_range]
    decide
  obtain ⟨⟨stats, hengine⟩, hforwarded, hcapacity, hreader⟩ :=
    drain_recv_singles (single_smalls 257) (e := flush_output e) hqueue hbuf hfits hopen
  rw [hnone, hslots] at hengine hforwarded
  refine ⟨stats, hengine, hreader, fun hfree => ?_⟩
  have hlt : (drain_recv (fun _ => 0) (flush_output e) a.data_tx).2.queue.length <
      (drain_recv (fun _ => 0) (flush_output e) a.data_tx).2.capacity := hfree.2
  rw [hforwarded, hcapacity, hslots] at hlt
  simp [smalls] at hlt

theorem backlogged_forward {e : KcpEngine} {a : Actor} (hqueue : e.rcv_queue = smalls 257) (hbuf : e.rcv_buf = ∅)
    (hroom : e.wnd.rcv = 512) (hopen : a.data_tx.receiver_open = true) (hnone : a.data_tx.queue = [])
    (hslots : a.data_tx.capacity = 256) (hrunning : a.exited = none) (hclosing : a.closing = false)
    (hsettings : a.settings = slow_reader.settings) (hsnd : e.snd_queue = []) (hsent : e.snd_buf = [])
    (hacks : e.ack_list = []) (hprobe : e.probe = { flags := 0, wait := 0, ts := 0 }) (hrmt : e.wnd.rmt = 128)
    (hactive : e.last_activity = 0) : Backlogged (Actor.forward { a with engine := e } (.at 0)) := by
  obtain ⟨stats, hengine, hreader, hfull⟩ := forward_smalls hqueue hbuf hroom hopen hnone hslots
  refine ⟨hrunning, hclosing, hsettings, hreader, hfull, ?_, ?_, ?_, ?_, ?_, ?_, ?_, ?_⟩
  · rw [hengine]
  · rw [hengine]
    exact hbuf
  · rw [hengine]
    exact hsnd
  · rw [hengine]
    exact hsent
  · rw [hengine]
    exact hacks
  · rw [hengine]
    exact hprobe
  · rw [hengine]
    exact hrmt
  · rw [hengine]
    exact hactive

/-- One packet fills the channel, and one message waits behind it. -/
theorem backlogged_backlog : Backlogged backlog := by
  obtain ⟨hopen, hnone, hslots, hrunning, hclosing⟩ := start_slow_reader
  obtain ⟨hqueue, hentries, hsnd, hbuf, hrmt, hrcv, hactive⟩ := input_burst
  rw [← engine_slow_reader] at hqueue hentries hsnd hbuf hrmt hrcv hactive
  have hwindow : (slow_reader.engine.input 0 burst).1.wnd.rmt ≠ 0 := by
    rw [hrmt]
    decide
  obtain ⟨hok, hsnd', hbuf', hacks, hprobe, hrmt', hrcv', hactive'⟩ := flush_without_data hsnd hbuf hwindow (.at 0)
  have hsame := sameHeld_flush (slow_reader.engine.input 0 burst).1 (.at 0)
  have hmap := hsame.buf.trans (AList.ext hentries : _ = ∅)
  have hstep : backlog = Actor.forward { slow_reader with
      engine := ((slow_reader.engine.input 0 burst).1.flush (.at 0)).1 } (.at 0) := Actor.step_packet hrunning hclosing hok
  rw [hstep]
  exact backlogged_forward (hsame.queue.trans hqueue) hmap (hrcv'.trans hrcv) hopen hnone hslots hrunning hclosing rfl hsnd'
    hbuf' hacks hprobe (hrmt'.trans hrmt) (hactive'.trans hactive)

/-- Three seconds later the task takes the peer for lost. -/
theorem Backlogged.left_behind {a : Actor} (h : Backlogged a) :
    (a.step (.timer (.at 3000))).exited = some .peer_silent ∧ (a.step (.timer (.at 3000))).data_tx.receiver_open = true ∧
      Holds (a.step (.timer (.at 3000))).engine := by
  have hwindow : a.engine.wnd.rmt ≠ 0 := by
    rw [h.rmt]
    decide
  obtain ⟨hok, _, _, _, _, _, _, hactive⟩ := flush_without_data h.snd_queue h.snd_buf hwindow (.at 3000)
  have hka : a.settings.keep_alive_ms = some 1000 := by
    rw [h.settings]
    rfl
  have hsilent : 1000 * 3 ≤ ((a.engine.flush (.at 3000)).1.idle_ms 3000).toNat := by
    unfold KcpEngine.idle_ms
    rw [hactive, h.last_activity]
    decide
  have hstep : a.step (.timer (.at 3000)) = Actor.exit { a with engine := (a.engine.flush (.at 3000)).1 } .peer_silent :=
    Actor.step_timer_silent h.running hok hka hsilent
  rw [hstep]
  exact ⟨rfl, h.reader, (sameHeld_flush ..).holds_iff.mpr h.holds⟩

/-- It leaves a message behind that was acknowledged three seconds before. -/
theorem acknowledged_left_behind :
    (Trace.run step slow_reader [.packet (some burst) (.at 0), .timer (.at 3000)]).exited = some .peer_silent ∧
      (Trace.run step slow_reader [.packet (some burst) (.at 0), .timer (.at 3000)]).data_tx.receiver_open = true ∧
      Holds (Trace.run step slow_reader [.packet (some burst) (.at 0), .timer (.at 3000)]).engine := by
  have harrived : slow_reader.step (.packet (some burst) (.at 0)) = backlog := by rw [backlog]
  rw [Trace.run_cons, Trace.run_cons, Trace.run_nil, harrived]
  exact backlogged_backlog.left_behind

end kcp_tokio.actor
