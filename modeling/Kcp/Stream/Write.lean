import Kcp.Trace
import Kcp.Stream.State

open Mpsc kcp_core.protocol

namespace kcp_tokio.stream

/-! ### What a write hands over -/

/-- The poll of a parked write goes through. -/
def Completes (send_tx : Channel Bytes) (spent : Bool) : Prop := spent = false ∧ send_tx.HasRoom

namespace KcpStream

/-- A write that waits completes when there is room. -/
theorem poll_pending_write_completes (self : KcpStream) (write : PendingWrite) {spent : Bool}
    (h : Completes self.send_tx spent) :
    self.poll_pending_write write spent =
      ({ self with send_tx := self.send_tx.push h.2 write.data, pending_write := none }, .ready (.ok write.len)) := by
  unfold poll_pending_write
  rw [if_neg (by rw [h.1]; decide), Channel.try_send_of_room h.2]

/-- Otherwise nothing is placed in the channel and no bytes are reported. -/
theorem poll_pending_write_fails (self : KcpStream) (write : PendingWrite) {spent : Bool}
    (h : ¬ Completes self.send_tx spent) :
    (self.poll_pending_write write spent).1.send_tx = self.send_tx ∧
      ∀ n, (self.poll_pending_write write spent).2 ≠ .ready (.ok n) := by
  unfold poll_pending_write
  cases hspent : spent with
  | true => exact ⟨rfl, fun n hn => by cases hn⟩
  | false =>
    have hfull : ¬ self.send_tx.HasRoom := fun hroom => h ⟨hspent, hroom⟩
    rw [if_neg Bool.false_ne_true, Channel.try_send_of_full hfull]
    by_cases hclosed : self.send_tx.receiver_open = false
    · rw [if_pos hclosed]
      exact ⟨rfl, fun n hn => by cases hn⟩
    · rw [if_neg hclosed]
      exact ⟨rfl, fun n hn => by cases hn⟩

/-- The call finds a write parked by an earlier one, and completes it. -/
def Resumes (self : KcpStream) (write : PendingWrite) (spent : Bool) : Prop :=
  self.closed = false ∧ self.pending_write = some write ∧ Completes self.send_tx spent

/-- What a call of `poll_write` does. With no parked write that it completes, it hands over
nothing and reports nothing, or the beginning of the buffer and as much as it reports.
Otherwise it hands over that write, whatever the buffer is. -/
theorem poll_write_cases (self : KcpStream) (buf : Bytes) (taken : Option Nat) (spent : Bool) :
    (∀ write, ¬ self.Resumes write spent) ∧
        ((self.poll_write buf taken spent).1.send_tx.sent = self.send_tx.sent ∧
            (∀ n, (self.poll_write buf taken spent).2 ≠ .ready (.ok n)) ∨
          ∃ n ≤ buf.length, (self.poll_write buf taken spent).1.send_tx.sent = self.send_tx.sent ++ [buf.take n] ∧
            (self.poll_write buf taken spent).2 = .ready (.ok n)) ∨
      ∃ write, self.Resumes write spent ∧
        (self.poll_write buf taken spent).1.send_tx.sent = self.send_tx.sent ++ [write.data] ∧
        (self.poll_write buf taken spent).2 = .ready (.ok write.data.length) := by
  unfold poll_write
  by_cases hclosed : self.closed = true
  · rw [if_pos hclosed]
    refine .inl ⟨fun write h => ?_, .inl ⟨rfl, fun n hn => by cases hn⟩⟩
    exact Bool.false_ne_true (h.1.symm.trans hclosed)
  rw [if_neg hclosed]
  cases hpending : self.pending_write with
  | some write =>
    dsimp only
    by_cases hcompletes : Completes self.send_tx spent
    · rw [poll_pending_write_completes self write hcompletes]
      exact .inr ⟨write, ⟨Bool.eq_false_iff.mpr hclosed, hpending, hcompletes⟩, rfl, by rw [write.whole]⟩
    · obtain ⟨hsame, hnot⟩ := poll_pending_write_fails self write hcompletes
      exact .inl ⟨fun _ h => hcompletes h.2.2, .inl ⟨by rw [hsame], hnot⟩⟩
  | none =>
    have hnone : ∀ write, ¬ self.Resumes write spent := fun write h => by
      have hsome := h.2.1
      rw [hpending] at hsome
      cases hsome
    have hlen : min buf.length self.mss ≤ buf.length := min_le_left ..
    refine .inl ⟨hnone, ?_⟩
    dsimp only
    by_cases hroom : self.send_tx.HasRoom
    · rw [Channel.try_send_of_room hroom]
      exact .inr ⟨_, hlen, rfl, rfl⟩
    · rw [Channel.try_send_of_full hroom]
      by_cases hshut : self.send_tx.receiver_open = false
      · rw [if_pos hshut]
        exact .inl ⟨rfl, fun n hn => by cases hn⟩
      · rw [if_neg hshut]
        dsimp only
        have hsent : (meanwhile self.send_tx taken).sent = self.send_tx.sent := by
          cases taken <;> rfl
        by_cases hcompletes : Completes (meanwhile self.send_tx taken) spent
        · rw [poll_pending_write_completes _ _ hcompletes]
          exact .inr ⟨_, hlen, by rw [Channel.push_sent, hsent], rfl⟩
        · obtain ⟨hsame, hnot⟩ := poll_pending_write_fails { self with send_tx := meanwhile self.send_tx taken, pending_write := none }
            ⟨buf.take (min buf.length self.mss), min buf.length self.mss, by simp⟩ hcompletes
          exact .inl ⟨by rw [hsame, hsent], hnot⟩

/-! ### Runs -/

/-- The bytes of `buf` that a call reports as written. -/
def reported (buf : Bytes) : Poll (Except IoError Nat) → List Bytes
  | .ready (.ok n) => [buf.take n]
  | _ => []

/-- Nothing is reported of a write that does not succeed. -/
theorem reported_of_not_ok {buf : Bytes} {result : Poll (Except IoError Nat)} (h : ∀ n, result ≠ .ready (.ok n)) :
    reported buf result = [] := by
  unfold reported
  split
  · next n => exact absurd rfl (h n)
  · rfl

def written (self : KcpStream) : Event → List Bytes
  | .poll_write buf taken spent => reported buf (self.poll_write buf taken spent).2
  | _ => []

/-- A call reports at most the bytes it was offered. -/
def Bounded (self : KcpStream) : Event → Prop
  | .poll_write buf taken spent => ∀ n, (self.poll_write buf taken spent).2 = .ready (.ok n) → n ≤ buf.length
  | _ => True

/-- A call that completes a write parked by an earlier one offers those bytes again. -/
def Continues (self : KcpStream) : Event → Prop
  | .poll_write buf _ spent => ∀ write, self.Resumes write spent → write.data <+: buf
  | _ => True

theorem poll_read_send_tx (self : KcpStream) (remaining : Nat) (spent : Bool) :
    (self.poll_read remaining spent).1.send_tx = self.send_tx := by
  unfold poll_read
  split_ifs
  · rfl
  · rfl
  · rfl
  · split <;> rfl

theorem place_send_tx (self : KcpStream) (message : Bytes) : (self.place message).send_tx = self.send_tx := by
  unfold place
  split <;> rfl

/-- Only `poll_write` places messages in the send channel. -/
theorem step_sent_of_quiet (self : KcpStream) {event : Event} (h : ∀ buf taken spent, event ≠ .poll_write buf taken spent) :
    (self.step event).send_tx.sent = self.send_tx.sent ∧ self.written event = [] ∧ self.Bounded event ∧
      self.Continues event := by
  cases event with
  | poll_write buf taken spent => exact absurd rfl (h buf taken spent)
  | poll_read remaining spent => exact ⟨by rw [step, poll_read_send_tx], rfl, trivial, trivial⟩
  | placed message => exact ⟨by rw [step, place_send_tx], rfl, trivial, trivial⟩
  | poll_shutdown finished =>
    refine ⟨?_, rfl, trivial, trivial⟩
    simp only [step, poll_shutdown]
    split_ifs <;> rfl
  | close =>
    refine ⟨?_, rfl, trivial, trivial⟩
    simp only [step, close]
    split_ifs <;> rfl
  | taken => exact ⟨rfl, rfl, trivial, trivial⟩
  | exited => exact ⟨rfl, rfl, trivial, trivial⟩

/-- One event reports what it places in the channel exactly if it meets the condition. -/
theorem step_sent (self : KcpStream) (event : Event) :
    ∃ handed, (self.step event).send_tx.sent = self.send_tx.sent ++ handed ∧
      (self.Bounded event → handed.flatten.length = (self.written event).flatten.length) ∧
      (self.Bounded event ∧ handed.flatten = (self.written event).flatten ↔ self.Continues event) := by
  by_cases hwrite : ∃ buf taken spent, event = .poll_write buf taken spent
  · obtain ⟨buf, taken, spent, rfl⟩ := hwrite
    rcases self.poll_write_cases buf taken spent with ⟨hnone, ⟨hsent, hnot⟩ | ⟨n, hn, hsent, hok⟩⟩ | ⟨write, hresumes, hsent, hok⟩
    · have hwritten : self.written (.poll_write buf taken spent) = [] := reported_of_not_ok hnot
      refine ⟨[], by rw [List.append_nil]; exact hsent, fun _ => by rw [hwritten], ?_⟩
      exact iff_of_true ⟨fun n hn => absurd hn (hnot n), by rw [hwritten]⟩ fun write h => absurd h (hnone write)
    · have hwritten : self.written (.poll_write buf taken spent) = [buf.take n] := by rw [written, hok, reported]
      refine ⟨[buf.take n], hsent, fun _ => by rw [hwritten], ?_⟩
      refine iff_of_true ⟨fun m hm => ?_, by rw [hwritten]⟩ fun write h => absurd h (hnone write)
      rw [hok] at hm
      cases hm
      exact hn
    · have hwritten : self.written (.poll_write buf taken spent) = [buf.take write.data.length] := by
        rw [written, hok, reported]
      refine ⟨[write.data], hsent, fun hbounded => ?_, ?_⟩
      · have hle := hbounded _ hok
        simp only [hwritten, List.flatten_singleton, List.length_take]
        omega
      · simp only [hwritten, List.flatten_singleton]
        constructor
        · rintro ⟨_, hsame⟩ other hother
          have heq : some other = some write := hother.2.1.symm.trans hresumes.2.1
          cases heq
          exact List.prefix_iff_eq_take.mpr hsame
        · intro h
          have hprefix := h write hresumes
          refine ⟨fun m hm => ?_, List.prefix_iff_eq_take.mp hprefix⟩
          rw [hok] at hm
          cases hm
          exact hprefix.length_le
  · obtain ⟨hsent, hwritten, hbounded, hcontinues⟩ := self.step_sent_of_quiet fun buf taken spent h => hwrite ⟨buf, taken, spent, h⟩
    refine ⟨[], by rw [hsent, List.append_nil], fun _ => by rw [hwritten], ?_⟩
    exact iff_of_true ⟨hbounded, by rw [hwritten]⟩ hcontinues

/-- What has been placed in the channel is not taken back. -/
theorem run_sent_prefix (self : KcpStream) (events : List Event) :
    self.send_tx.sent <+: (Trace.run step self events).send_tx.sent := by
  induction events generalizing self with
  | nil => exact List.prefix_rfl
  | cons event events ih =>
    obtain ⟨handed, hsent, _⟩ := self.step_sent event
    exact (hsent ▸ List.prefix_append ..).trans (ih (self.step event))

end KcpStream

open KcpStream

/-- Every call reports no more than it was offered, and the messages placed in the send
channel are the bytes reported, exactly if every call that completes a write parked by an
earlier one offers those bytes again. -/
theorem write_reported_iff (s : KcpStream) (events : List Event) :
    (Trace.Always step Bounded s events ∧
      (Trace.run step s events).send_tx.sent.flatten = s.send_tx.sent.flatten ++ (Trace.log step written s events).flatten) ↔
      Trace.Always step Continues s events := by
  induction events generalizing s with
  | nil => simp
  | cons event events ih =>
    obtain ⟨handed, hsent, hlength, hiff⟩ := s.step_sent event
    obtain ⟨more, hmore⟩ := run_sent_prefix (s.step event) events
    have hrest := ih (s.step event)
    simp only [Trace.Always, Trace.run_cons, Trace.log, List.flatten_append] at hrest ⊢
    rw [← hmore, hsent] at hrest ⊢
    simp only [List.flatten_append, List.append_assoc, List.append_cancel_left_eq] at hrest ⊢
    constructor
    · rintro ⟨⟨hbounded, hall⟩, hsame⟩
      obtain ⟨hfirst, hlater⟩ := List.append_inj hsame (hlength hbounded)
      exact ⟨hiff.mp ⟨hbounded, hfirst⟩, hrest.mp ⟨hall, hlater⟩⟩
    · rintro ⟨hfirst, hlater⟩
      obtain ⟨hbounded, hsame⟩ := hiff.mpr hfirst
      obtain ⟨hall, hmoresame⟩ := hrest.mpr hlater
      exact ⟨⟨hbounded, hall⟩, by rw [hsame, hmoresame]⟩

/-- A stream with the default settings. -/
def plain : KcpStream := .new .default

/-- Sixteen one-byte writes fill the channel. The next one, of three bytes, is parked and
abandoned; a message is taken. -/
def abandoned_run : List Event :=
  List.replicate 16 (.poll_write [0] (some 0) false) ++ [.poll_write [1, 2, 3] (some 0) false, .taken]

/-- A call that offers one byte is told that three were written, and hands over those of the
abandoned call. -/
theorem stale_write_reported :
    ((Trace.run step plain abandoned_run).poll_write [9] (some 0) false).2 = .ready (.ok 3) ∧
      (Trace.run step plain (abandoned_run ++ [.poll_write [9] (some 0) false])).send_tx.sent =
        List.replicate 16 [0] ++ [[1, 2, 3]] ∧
      (Trace.log step written plain (abandoned_run ++ [.poll_write [9] (some 0) false])).flatten =
        List.replicate 16 0 ++ [9] := by
  decide +kernel

end kcp_tokio.stream
