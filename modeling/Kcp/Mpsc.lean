import Mathlib.Data.List.Infix

/-! A bounded first-in first-out channel between one sender and one receiver. -/

namespace Mpsc

/-- What polling a task reports. -/
inductive Poll (α : Type) where
  | ready (value : α)
  | pending
  deriving DecidableEq, Repr

inductive TrySendError where
  | full
  | closed
  deriving DecidableEq, Repr

/-- A channel, with every message ever placed in it. -/
structure Channel (α : Type) where
  capacity : Nat
  sent : List α
  queue : List α
  sender_open : Bool
  receiver_open : Bool
  fits : queue.length ≤ capacity
  fifo : queue <:+ sent

namespace Channel

variable {α : Type}

def new (α : Type) (capacity : Nat) : Channel α where
  capacity
  sent := []
  queue := []
  sender_open := true
  receiver_open := true
  fits := Nat.zero_le capacity
  fifo := List.suffix_rfl

/-- A slot is free and somebody may still take the message. -/
def HasRoom (self : Channel α) : Prop := self.receiver_open = true ∧ self.queue.length < self.capacity

instance decidableHasRoom (self : Channel α) : Decidable self.HasRoom := inferInstanceAs (Decidable (_ ∧ _))

/-- Fill a reserved slot. -/
def push (self : Channel α) (h : self.HasRoom) (value : α) : Channel α :=
  { self with
    sent := self.sent ++ [value]
    queue := self.queue ++ [value]
    fits := by
      rw [List.length_append, List.length_singleton]
      exact h.2
    fifo := by
      obtain ⟨taken, heq⟩ := self.fifo
      exact ⟨taken, by rw [← List.append_assoc, heq]⟩ }

/-- Reserve a slot. What is returned fills it. -/
def try_reserve (self : Channel α) : Except TrySendError (α → Channel α) :=
  if self.receiver_open = false then .error .closed
  else if h : self.HasRoom then .ok (self.push h)
  else .error .full

def try_send (self : Channel α) (value : α) : Except TrySendError (Channel α) :=
  self.try_reserve.map fun send => send value

/-- The receiver takes the next `n` messages, as far as there are any. -/
def take (self : Channel α) (n : Nat) : Channel α :=
  { self with
    queue := self.queue.drop n
    fits := (List.drop_sublist n self.queue).length_le.trans self.fits
    fifo := (List.drop_suffix n self.queue).trans self.fifo }

def poll_recv (self : Channel α) : Channel α × Poll (Option α) :=
  match self.queue with
  | value :: _ => (self.take 1, .ready (some value))
  | [] => (self, if self.sender_open then .pending else .ready none)

def drop_sender (self : Channel α) : Channel α := { self with sender_open := false }

/-- With the receiver go the messages it has not taken. -/
def drop_receiver (self : Channel α) : Channel α :=
  { self with
    queue := []
    receiver_open := false
    fits := Nat.zero_le _
    fifo := List.nil_suffix }

/-- What the receiver has taken, of a channel it has not dropped. -/
def Taken (self : Channel α) (taken : List α) : Prop := self.sent = taken ++ self.queue

variable {self : Channel α}

@[simp] theorem push_sent (h : self.HasRoom) (value : α) : (self.push h value).sent = self.sent ++ [value] := rfl

@[simp] theorem push_queue (h : self.HasRoom) (value : α) : (self.push h value).queue = self.queue ++ [value] := rfl

@[simp] theorem take_sent (n : Nat) : (self.take n).sent = self.sent := rfl

@[simp] theorem take_queue (n : Nat) : (self.take n).queue = self.queue.drop n := rfl

@[simp] theorem take_zero : self.take 0 = self := rfl

/-- What is placed in a channel has not been taken from it. -/
theorem Taken.push {taken : List α} (h : self.Taken taken) (hroom : self.HasRoom) (value : α) :
    (self.push hroom value).Taken taken := by
  unfold Taken at h ⊢
  rw [push_sent, push_queue, h, List.append_assoc]

/-- A channel with room can be reserved. -/
theorem try_reserve_of_room (h : self.HasRoom) : self.try_reserve = .ok (self.push h) := by
  unfold try_reserve
  rw [if_neg (by rw [h.1]; decide), dif_pos h]

/-- Without room it says why not. -/
theorem try_reserve_of_full (h : ¬ self.HasRoom) :
    self.try_reserve = .error (if self.receiver_open = false then .closed else .full) := by
  unfold try_reserve
  by_cases hclosed : self.receiver_open = false
  · rw [if_pos hclosed, if_pos hclosed]
  · rw [if_neg hclosed, dif_neg h, if_neg hclosed]

/-- A channel with room takes a value. -/
theorem try_send_of_room (h : self.HasRoom) (value : α) : self.try_send value = .ok (self.push h value) := by
  rw [try_send, try_reserve_of_room h]
  rfl

/-- Without room it says why not. -/
theorem try_send_of_full (h : ¬ self.HasRoom) (value : α) :
    self.try_send value = .error (if self.receiver_open = false then .closed else .full) := by
  rw [try_send, try_reserve_of_full h]
  rfl

/-- The receiver is given the first value. -/
theorem poll_recv_cons {value : α} {rest : List α} (h : self.queue = value :: rest) :
    self.poll_recv = (self.take 1, .ready (some value)) := by
  unfold poll_recv
  rw [h]

/-- An empty channel keeps its receiver waiting as long as a sender is left. -/
theorem poll_recv_nil (h : self.queue = []) :
    self.poll_recv = (self, if self.sender_open then .pending else .ready none) := by
  unfold poll_recv
  rw [h]

end Channel

end Mpsc
