import Mathlib.Data.List.Basic

/-! # Buffered channels

A channel holds up to its capacity of values and can be closed once. Sending on a closed
channel and closing it a second time are errors of the sender; what was queued before the
close is still received.
-/

namespace Adsbus

/-- What a goroutine panics with when it misuses a channel. -/
inductive ChannelPanic
  | sendOnClosed
  | closeOfClosed
deriving DecidableEq, Repr

/-- A buffered channel, the oldest value first. -/
structure Channel (α : Type) where
  capacity : Nat
  queue : List α
  closed : Bool
deriving DecidableEq, Repr

/-- What a receive finds: a value, the end of a closed channel, or nothing yet. -/
inductive Received (α : Type)
  | value (value : α) (rest : Channel α)
  | ended
  | empty
deriving DecidableEq, Repr

namespace Channel

variable {α : Type} {channel sent : Channel α} {value : α}

/-- A new channel. -/
def make (capacity : Nat) : Channel α := { capacity := capacity, queue := [], closed := false }

/-- A send that does not wait: `none` when the channel is full. -/
def send (channel : Channel α) (value : α) : Except ChannelPanic (Option (Channel α)) :=
  if channel.closed then .error .sendOnClosed
  else if channel.queue.length < channel.capacity then
    .ok (some { channel with queue := channel.queue ++ [value] })
  else .ok none

/-- Close a channel. -/
def close (channel : Channel α) : Except ChannelPanic (Channel α) :=
  if channel.closed then .error .closeOfClosed else .ok { channel with closed := true }

/-- Receive from a channel. -/
def receive (channel : Channel α) : Received α :=
  match channel.queue with
  | value :: rest => .value value { channel with queue := rest }
  | [] => if channel.closed then .ended else .empty

theorem send_of_open (isOpen : channel.closed = false) (room : channel.queue.length < channel.capacity) :
    channel.send value = .ok (some { channel with queue := channel.queue ++ [value] }) := by
  simp only [send, isOpen, Bool.false_eq_true, ↓reduceIte, room]

/-- A send that is no error leaves an open channel: full, or with the value queued last. -/
theorem send_cases (isOpen : channel.closed = false) (value : α) :
    channel.send value = .ok none ∨
      channel.send value = .ok (some { channel with queue := channel.queue ++ [value] }) := by
  by_cases room : channel.queue.length < channel.capacity
  · exact .inr (send_of_open isOpen room)
  · refine .inl ?_
    simp only [send, isOpen, Bool.false_eq_true, ↓reduceIte, room]

theorem close_of_open (isOpen : channel.closed = false) :
    channel.close = .ok { channel with closed := true } := by
  simp only [close, isOpen, Bool.false_eq_true, ↓reduceIte]

/-- A receive takes the oldest value. -/
theorem receive_value {rest : Channel α} (received : channel.receive = .value value rest) :
    channel.queue = value :: rest.queue ∧ rest.closed = channel.closed := by
  cases held : channel.queue with
  | nil =>
      simp only [receive, held] at received
      split at received <;> exact nomatch received
  | cons first queue =>
      simp only [receive, held, Received.value.injEq] at received
      obtain ⟨rfl, rfl⟩ := received
      exact ⟨rfl, rfl⟩

end Channel
end Adsbus
