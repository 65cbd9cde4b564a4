import Kcp.Stream.Read

open Mpsc kcp_core.protocol

/-! The two ways to read from a stream: `poll_read`, which keeps what a buffer has no room
for, and `recv`, which returns the next message as it is. -/

namespace kcp_tokio.stream

namespace KcpStream

/-- One poll of the future of `recv`. A future that is dropped before it is ready has taken
nothing. -/
def recv (self : KcpStream) (spent : Bool) : KcpStream × Poll (Option Bytes) :=
  if self.closed then (self, .ready none)
  else if spent then (self, .pending)
  else
    match self.data_rx.poll_recv with
    | (data_rx, result) => ({ self with data_rx }, result)

end KcpStream

/-- What happens to a stream that is read in both ways. -/
inductive Call where
  | event (event : Event)
  | recv (spent : Bool)

namespace KcpStream

def call (self : KcpStream) : Call → KcpStream
  | .event event => self.step event
  | .recv spent => (self.recv spent).1

/-- The bytes that a call of either interface returns. -/
def received (self : KcpStream) : Call → List Bytes
  | .event event => self.returned event
  | .recv spent =>
    match (self.recv spent).2 with
    | .ready (some message) => [message]
    | _ => []

/-- The message that `recv` finds at the head of the channel of an open stream. -/
def Next (self : KcpStream) (spent : Bool) (message : Bytes) : Prop :=
  self.closed = false ∧ spent = false ∧ self.data_rx.queue.head? = some message

/-- `recv` returns the next message, or nothing and leaves the stream as it is. -/
theorem recv_cases (self : KcpStream) (spent : Bool) :
    (∃ message rest, self.data_rx.queue = message :: rest ∧ self.Next spent message ∧
        self.recv spent = ({ self with data_rx := self.data_rx.take 1 }, .ready (some message))) ∨
      (∀ message, ¬ self.Next spent message) ∧ (self.recv spent).1 = self ∧
        ∀ message, (self.recv spent).2 ≠ .ready (some message) := by
  unfold recv
  by_cases hclosed : self.closed = true
  · rw [if_pos hclosed]
    exact .inr ⟨fun _ h => Bool.false_ne_true (h.1.symm.trans hclosed), rfl, fun _ h => by cases h⟩
  rw [if_neg hclosed]
  by_cases hspent : spent = true
  · rw [if_pos hspent]
    exact .inr ⟨fun _ h => Bool.false_ne_true (h.2.1.symm.trans hspent), rfl, fun _ h => by cases h⟩
  rw [if_neg hspent]
  cases hqueue : self.data_rx.queue with
  | cons message rest =>
    rw [Channel.poll_recv_cons hqueue]
    exact .inl ⟨message, rest, rfl, ⟨Bool.eq_false_iff.mpr hclosed, Bool.eq_false_iff.mpr hspent, by rw [hqueue]; rfl⟩, rfl⟩
  | nil =>
    rw [Channel.poll_recv_nil hqueue]
    refine .inr ⟨fun message h => ?_, rfl, fun _ h => ?_⟩
    · have hhead := h.2.2
      rw [hqueue] at hhead
      cases hhead
    · cases hopen : self.data_rx.sender_open <;> rw [hopen] at h <;> cases h

/-- It changes nothing but the channel. -/
theorem recv_shape (self : KcpStream) (spent : Bool) : ∃ data_rx,
    (self.recv spent).1 = { self with data_rx } ∧ data_rx.sent = self.data_rx.sent ∧
      data_rx.sender_open = self.data_rx.sender_open := by
  rcases self.recv_cases spent with ⟨_, _, _, _, heq⟩ | ⟨_, hsame, _⟩
  · rw [heq]
    exact ⟨_, rfl, rfl, rfl⟩
  · rw [hsame]
    exact ⟨_, rfl, rfl, rfl⟩

/-- A message that `recv` can take finds nothing left of the message before it, or bytes that
make no difference to the order of the two. -/
def InTurn (self : KcpStream) : Call → Prop
  | .event _ => True
  | .recv spent => ∀ message, self.Next spent message → message ++ self.read_buf = self.read_buf ++ message

/-- `recv` conserves the bytes not returned yet exactly when its message is in turn. -/
theorem recv_unread_iff (self : KcpStream) (spent : Bool) :
    (self.received (.recv spent)).flatten ++ (self.recv spent).1.unread = self.unread ↔ self.InTurn (.recv spent) := by
  simp only [InTurn]
  rcases self.recv_cases spent with ⟨message, rest, hqueue, hnext, heq⟩ | ⟨hnone, hsame, hnot⟩
  · have honly : ∀ other, self.Next spent other → other = message := fun other h =>
      Option.some.inj (h.2.2.symm.trans hnext.2.2)
    simp only [received, heq, unread, hqueue, Channel.take_queue, List.drop_one, List.tail_cons, List.flatten_cons,
      List.flatten_nil, List.append_nil]
    rw [← List.append_assoc, ← List.append_assoc, List.append_left_inj]
    constructor
    · intro h other hother
      rw [honly other hother]
      exact h
    · exact fun h => h message hnext
  · have hempty : self.received (.recv spent) = [] := by
      simp only [received]
    rw [hsame, hempty]
    exact iff_of_true rfl fun message hmessage => absurd hmessage (hnone message)

/-- The messages forwarded are the bytes returned and those not returned yet. -/
theorem call_unread (self : KcpStream) (c : Call) (h : self.InTurn c) :
    ∃ forwarded, (self.call c).data_rx.sent = self.data_rx.sent ++ forwarded ∧
      (self.received c).flatten ++ (self.call c).unread = self.unread ++ forwarded.flatten := by
  cases c with
  | event event =>
    obtain ⟨forwarded, hsent, hunread, _⟩ := self.step_unread event
    exact ⟨forwarded, hsent, hunread⟩
  | recv spent =>
    have hunread := (self.recv_unread_iff spent).mpr h
    refine ⟨[], ?_, by rw [List.flatten_nil, List.append_nil]; exact hunread⟩
    rw [List.append_nil]
    rcases self.recv_cases spent with ⟨message, rest, _, _, heq⟩ | ⟨_, hsame, _⟩
    · rw [call, heq]
      rfl
    · rw [call, hsame]

/-- In a run of calls in turn no byte is lost, whichever way it is read. -/
theorem run_call_unread (config : config.KcpConfig) (calls : List Call) (h : Trace.Always call InTurn (new config) calls) :
    (Trace.log call received (new config) calls).flatten ++ (Trace.run call (new config) calls).unread =
      (Trace.run call (new config) calls).data_rx.sent.flatten := by
  induction calls using List.reverseRecOn with
  | nil => rfl
  | append_singleton calls c ih =>
    obtain ⟨hbefore, hlast⟩ := Trace.always_concat.mp h
    obtain ⟨forwarded, hsent, hunread⟩ := (Trace.run call (new config) calls).call_unread c hlast
    rw [Trace.run_concat, Trace.log_concat, hsent, List.flatten_append, List.flatten_append, List.append_assoc, hunread,
      ← List.append_assoc, ih hbefore]

end KcpStream

open KcpStream

/-- While every `recv` finds nothing left of an earlier message, what the two interfaces
return is the data forwarded by the actor, from its first byte on and in its order. -/
theorem reads_agree (config : config.KcpConfig) (calls : List Call)
    (h : Trace.Always call InTurn (new config) calls) :
    (Trace.log call received (new config) calls).flatten <+:
      (Trace.run call (new config) calls).data_rx.sent.flatten :=
  ⟨_, run_call_unread config calls h⟩

/-- A message is read up, in two parts, before the next one is received. -/
theorem reads_agree_alternating :
    (Trace.log call received (new .default) [.event (.placed [1, 2]), .event (.placed [3]), .event (.poll_read 1 false),
        .event (.poll_read 1 false), .recv false]).flatten <+:
      (Trace.run call (new .default) [.event (.placed [1, 2]), .event (.placed [3]), .event (.poll_read 1 false),
        .event (.poll_read 1 false), .recv false]).data_rx.sent.flatten := by
  refine reads_agree .default _ ⟨trivial, trivial, trivial, trivial, fun message _ => ?_, trivial⟩
  have hbuf : (Trace.run call (new .default) [.event (.placed [1, 2]), .event (.placed [3]),
      .event (.poll_read 1 false), .event (.poll_read 1 false)]).read_buf = [] := by decide +kernel
  exact (congrArg (message ++ ·) hbuf).trans ((List.append_nil message).trans (congrArg (· ++ message) hbuf).symm)

/-- A message received while half of the one before it waits overtakes that half. -/
theorem recv_overtakes :
    (Trace.log call received (new .default) [.event (.placed [1, 2]), .event (.placed [3]), .event (.poll_read 1 false),
        .recv false, .event (.poll_read 1 false)]).flatten = [1, 3, 2] ∧
      (Trace.run call (new .default) [.event (.placed [1, 2]), .event (.placed [3]), .event (.poll_read 1 false),
        .recv false, .event (.poll_read 1 false)]).data_rx.sent.flatten = [1, 2, 3] := by
  decide +kernel

end kcp_tokio.stream
