import Mathlib.Data.Option.Basic

/-!
# The oneshot

`sync/mpmc/oneshot/mt.rs`: a cell that is written once and read any number of times. Senders and
receivers are cloned and counted; without receivers nothing is written, and without senders an empty
cell is closed.

`close` and `error` are what the halves of a stream or datagram channel make of it. As long as a half
is alive it owns a sender and a receiver, so the fallbacks for a closed oneshot are never taken.
-/

namespace Aquic.Sync

inductive TryRecvError where
  | empty
  /-- No sender exists, no message available. -/
  | closed
  deriving DecidableEq, Repr

structure Oneshot (α : Type) where
  container : Option α
  senderCount : Nat
  receiverCount : Nat
  deriving DecidableEq, Repr

namespace Oneshot

variable {α : Type}

inductive SendError (α : Type) where
  /-- There is already a message. -/
  | full (value : α)
  /-- The channel is empty and closed. -/
  | closed
  deriving DecidableEq, Repr

/-- `Sender::send`. -/
def send (o : Oneshot α) (value : α) : Oneshot α × Except (SendError α) Unit :=
  if o.receiverCount = 0 then
    (o, .error .closed)
  else
    match o.container with
    | none => ({ o with container := some value }, .ok ())
    | some result => (o, .error (.full result))

/-- `Receiver::try_recv`. -/
def tryRecv (o : Oneshot α) : Except TryRecvError α :=
  match o.container with
  | some value => .ok value
  | none => .error (if o.senderCount = 0 then .closed else .empty)

/-- `close(error)` of a half, with its error for an unavailable receiver. -/
def close (o : Oneshot α) (fallback error : α) : Oneshot α × α :=
  match o.send error with
  | (o, .ok _) => (o, error)
  | (o, .error .closed) => (o, fallback)
  | (o, .error (.full actual)) => (o, actual)

/-- `error()` of a half. -/
def error (o : Oneshot α) (fallback : α) : Option α :=
  match o.tryRecv with
  | .ok e => some e
  | .error .closed => some fallback
  | .error .empty => none

/-- **The first value stays**, and it is what everybody gets who tries to write another one. -/
theorem close_eq {o : Oneshot α} (h : 0 < o.receiverCount) (fallback error : α) :
    o.close fallback error =
      ({ o with container := some (o.container.getD error) }, o.container.getD error) := by
  obtain ⟨_ | value, senders, receivers⟩ := o <;>
    simp [close, send, Nat.ne_of_gt h]

theorem receiverCount_send (o : Oneshot α) (value : α) :
    (o.send value).1.receiverCount = o.receiverCount := by
  simp only [send]
  repeat' split
  all_goals rfl

/-- A second value is refused. -/
theorem send_of_isSome {o : Oneshot α} (h : o.container.isSome = true) (value : α) :
    ∃ e, o.send value = (o, .error e) := by
  obtain ⟨_ | _, senders, receivers⟩ := o
  · cases h
  · simp only [send]
    split
    · exact ⟨_, rfl⟩
    · exact ⟨_, rfl⟩

theorem send_of_none {o : Oneshot α} (h : o.container = none) (hreceivers : 0 < o.receiverCount)
    (value : α) : o.send value = ({ o with container := some value }, .ok ()) := by
  simp [send, h, Nat.ne_of_gt hreceivers]

/-- Everybody reads the value that was written, also when all senders are gone. -/
theorem error_of_some {o : Oneshot α} {e : α} (h : o.container = some e) (fallback : α) :
    o.error fallback = some e ∧ o.tryRecv = .ok e := by
  simp [error, tryRecv, h]

end Oneshot

end Aquic.Sync
