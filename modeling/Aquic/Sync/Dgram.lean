import Aquic.Sync.Weighted

/-!
# The datagram channel

`sync/dgram.rs`: the channel of one datagram direction. Items go through a weighted queue, the terminal
error through a oneshot of which each half owns a sender and a receiver.

`send` and `try_send` borrow the sender only, so any number of calls may be in progress at once; the
receiver has one call at a time. As for streams, a call is a sequence of atomic steps, the steps of all
calls interleave arbitrarily, and a suspended call may be polled again at any time, or be dropped.
-/

namespace Aquic.Sync.Dgram

/-- The terminal state of a datagram direction. -/
inductive Error where
  /-- `End`: a side is no more interested in datagrams. -/
  | ended
  | connection
  | hangUp (message : String)
  deriving DecidableEq, Repr

def itemSenderUnavailable : Error := .hangUp "'Sender'.item_sender is unavailable"

def itemReceiverUnavailable : Error := .hangUp "'Receiver'.item_receiver is unavailable"

def senderDropped (panicking : Bool) : Error :=
  if panicking then .hangUp "'Sender' is dropped due to panic" else .ended

def receiverDropped (panicking : Bool) : Error :=
  if panicking then .hangUp "'Receiver' is dropped due to panic" else .ended

/-! ## The state -/

variable {α : Type}

/-- The life of the sender. -/
inductive SenderLife where
  | alive
  /-- The error is recorded, the queue's sender is dropped next. -/
  | dropping
  | dropped
  deriving DecidableEq, Repr

/-- Where a call of the sender is. -/
inductive SendPc (α : Type) where
  /-- `send`: the error oneshot is polled next. -/
  | pollingError (item : α) (weight : Nat)
  /-- `send`: the weight is reserved next, if there is capacity. -/
  | reserving (item : α) (weight : Nat)
  /-- `send` is suspended. -/
  | suspended (item : α) (weight : Nat)
  /-- `try_send`: the error oneshot is read next. -/
  | checkingError (item : α) (weight : Nat)
  /-- `try_send`: the weight is reserved next, if there is capacity. -/
  | tryReserving (item : α) (weight : Nat)
  /-- The weight is reserved, the item is enqueued next. -/
  | enqueuing (item : α) (weight : Nat)
  deriving DecidableEq, Repr

/-- Where the receiver is. -/
inductive ReceiverPc (α : Type) where
  | idle
  /-- `recv`: the error oneshot is polled next. -/
  | pollingError
  /-- `recv`: the queue is polled next. -/
  | pollingItem
  /-- `recv` is suspended. -/
  | suspended
  /-- `try_recv`: the error oneshot is read next. -/
  | checkingError
  /-- `try_recv`: the queue is read next. -/
  | takingItem
  /-- An item was taken, its weight is released next. -/
  | releasing (item : α) (weight : Nat)
  /-- The error is recorded, the queue's receiver is dropped next. -/
  | dropping
  | dropped
  deriving DecidableEq, Repr

/-- What a call of `send` or `try_send` ended with. -/
inductive SendResult where
  | ok
  /-- `Ok(false)` of `try_send`. -/
  | full
  | err (error : Error)
  deriving DecidableEq, Repr

/-- What a call of `recv` or `try_recv` ended with. -/
inductive RecvResult (α : Type) where
  | ok (item : α)
  /-- `Ok(None)` of `try_recv`. -/
  | empty
  | err (error : Error)
  deriving DecidableEq, Repr

structure Channel (α : Type) where
  items : Weighted α
  /-- The error oneshot. -/
  error : Option Error
  sender : SenderLife
  /-- The calls of the sender in progress. -/
  sends : List (SendPc α)
  receiver : ReceiverPc α
  /-- History: what the calls of the sender returned. -/
  sendResults : List SendResult
  /-- History: what the calls of the receiver returned. -/
  recvResults : List (RecvResult α)
  deriving DecidableEq, Repr

/-- `channel(bound)`. -/
def channel (bound : Nat) : Channel α where
  items := .new bound
  error := none
  sender := .alive
  sends := []
  receiver := .idle
  sendResults := []
  recvResults := []

namespace Channel

/-- `close`: the first error stays, and is what the caller gets. -/
def close (s : Channel α) (error : Error) : Channel α × Error :=
  match s.error with
  | none => ({ s with error := some error }, error)
  | some actual => (s, actual)

theorem close_eq (s : Channel α) (error : Error) :
    s.close error = ({ s with error := some (s.error.getD error) }, s.error.getD error) := by
  obtain ⟨items, _ | actual, sender, sends, receiver, sendResults, recvResults⟩ := s <;> rfl

/-! ## The sender -/

/-- The queue's receiver is gone. -/
def receiverGone (s : Channel α) : Bool :=
  match s.receiver with
  | .dropped => true
  | _ => false

/-- The queue's sender is gone. -/
def senderGone (s : Channel α) : Bool :=
  match s.sender with
  | .dropped => true
  | _ => false

/-- A call goes on. -/
def resume (s : Channel α) (i : Nat) (pc : SendPc α) : Channel α :=
  { s with sends := s.sends.set i pc }

/-- A call returns. -/
def sent (s : Channel α) (i : Nat) (result : SendResult) : Channel α :=
  { s with sends := s.sends.eraseIdx i, sendResults := s.sendResults ++ [result] }

/-- `Err(self.close(error))`. -/
def sendFailed (s : Channel α) (i : Nat) (error : Error) : Channel α :=
  let (s, error) := s.close error
  s.sent i (.err error)

/-- The call number `i` takes a step. -/
def sendStep (s : Channel α) (i : Nat) : Option (Channel α) :=
  s.sends[i]?.map fun
    | .pollingError item weight =>
      match s.error with
      | some error => s.sendFailed i error
      | none => s.resume i (.reserving item weight)
    | .reserving item weight =>
      if s.receiverGone then
        s.sendFailed i itemSenderUnavailable
      else if hasCapacity s.items.occupation weight s.items.bound then
        { s with items := s.items.reserve weight }.resume i (.enqueuing item weight)
      else
        s.resume i (.suspended item weight)
    | .suspended item weight => s.resume i (.pollingError item weight)
    | .checkingError item weight =>
      match s.error with
      | some error => s.sent i (.err error)
      | none => s.resume i (.tryReserving item weight)
    | .tryReserving item weight =>
      if s.receiverGone then
        s.sendFailed i itemSenderUnavailable
      else if hasCapacity s.items.occupation weight s.items.bound then
        { s with items := s.items.reserve weight }.resume i (.enqueuing item weight)
      else
        s.sent i .full
    | .enqueuing item weight =>
      if s.receiverGone then
        { s with items := { s.items with occupation := 0 } }.sendFailed i itemSenderUnavailable
      else
        { s with items := s.items.enqueue item weight }.sent i .ok

/-! ## The receiver -/

/-- The call of the receiver in progress returns. -/
def received (s : Channel α) (result : RecvResult α) : Channel α :=
  { s with receiver := .idle, recvResults := s.recvResults ++ [result] }

/-- `Err(self.close(error))`. -/
def recvFailed (s : Channel α) (error : Error) : Channel α :=
  let (s, error) := s.close error
  s.received (.err error)

def receiverStep (s : Channel α) : Option (Channel α) :=
  match s.receiver with
  | .idle => none
  | .pollingError =>
    match s.error with
    | some error => some (s.recvFailed error)
    | none => some { s with receiver := .pollingItem }
  | .pollingItem =>
    match s.items.queue with
    | (item, weight) :: rest =>
      some { s with items := { s.items with queue := rest }, receiver := .releasing item weight }
    | [] =>
      if s.senderGone then some (s.recvFailed itemReceiverUnavailable)
      else some { s with receiver := .suspended }
  | .suspended => some { s with receiver := .pollingError }
  | .checkingError =>
    match s.error with
    | some error => some (s.recvFailed error)
    | none => some { s with receiver := .takingItem }
  | .takingItem =>
    match s.items.queue with
    | (item, weight) :: rest =>
      some { s with items := { s.items with queue := rest }, receiver := .releasing item weight }
    | [] =>
      if s.senderGone then some (s.recvFailed itemReceiverUnavailable)
      else some (s.received .empty)
  | .releasing item weight =>
    some ({ s with items := s.items.release weight }.received (.ok item))
  | .dropping =>
    some { s with items := { s.items with queue := [], occupation := 0 }, receiver := .dropped }
  | .dropped => none

end Channel

/-! ## Runs -/

inductive Label (α : Type) where
  /-- The sender calls `send` with an item of this weight. -/
  | send (item : α) (weight : Nat)
  /-- The sender calls `try_send` with an item of this weight. -/
  | trySend (item : α) (weight : Nat)
  /-- A call of the sender takes a step, or is polled again. -/
  | sendStep (call : Nat)
  /-- A suspended call of the sender is dropped. -/
  | sendCancel (call : Nat)
  /-- `terminate_due_connection` or `hangup`. -/
  | senderTerminate (error : Error)
  | senderDrop (panicking : Bool)
  /-- The queue's sender is dropped. -/
  | senderDropQueue
  /-- The receiver calls `recv`. -/
  | recv
  /-- The receiver calls `try_recv`. -/
  | tryRecv
  /-- The receiver's call takes a step, or is polled again. -/
  | receiverStep
  /-- The receiver's suspended call is dropped. -/
  | receiverCancel
  /-- `terminate_due_connection` or `hangup`. -/
  | receiverTerminate (error : Error)
  | receiverDrop (panicking : Bool)
  deriving DecidableEq, Repr

/-- A step of the sender. -/
def Label.bySender : Label α → Bool
  | .send .. => true
  | .trySend .. => true
  | .sendStep _ => true
  | .sendCancel _ => true
  | .senderTerminate _ => true
  | .senderDrop _ => true
  | .senderDropQueue => true
  | _ => false

namespace Channel

def exec (s : Channel α) : Label α → Option (Channel α)
  | .send item weight =>
    match s.sender with
    | .alive => some { s with sends := s.sends ++ [.pollingError item weight] }
    | _ => none
  | .trySend item weight =>
    match s.sender with
    | .alive => some { s with sends := s.sends ++ [.checkingError item weight] }
    | _ => none
  | .sendStep i => s.sendStep i
  | .sendCancel i =>
    match s.sends[i]? with
    | some (.suspended ..) => some { s with sends := s.sends.eraseIdx i }
    | _ => none
  | .senderTerminate error =>
    match s.sender with
    | .alive => some (s.close error).1
    | _ => none
  | .senderDrop panicking =>
    -- calls in progress borrow the sender
    match s.sender, s.sends with
    | .alive, [] => some { (s.close (senderDropped panicking)).1 with sender := .dropping }
    | _, _ => none
  | .senderDropQueue =>
    match s.sender with
    | .dropping => some { s with sender := .dropped }
    | _ => none
  | .recv =>
    match s.receiver with
    | .idle => some { s with receiver := .pollingError }
    | _ => none
  | .tryRecv =>
    match s.receiver with
    | .idle => some { s with receiver := .checkingError }
    | _ => none
  | .receiverStep => s.receiverStep
  | .receiverCancel =>
    match s.receiver with
    | .suspended => some { s with receiver := .idle }
    | _ => none
  | .receiverTerminate error =>
    match s.receiver with
    | .idle => some (s.close error).1
    | _ => none
  | .receiverDrop panicking =>
    match s.receiver with
    | .idle => some { (s.close (receiverDropped panicking)).1 with receiver := .dropping }
    | _ => none

/-- A step of the sender leaves the receiver alone. -/
theorem exec_bySender {s s' : Channel α} {l : Label α} (hl : l.bySender = true)
    (h : s.exec l = some s') : s'.receiver = s.receiver := by
  cases l with
  | sendStep i =>
    obtain ⟨pc, -, h⟩ := Option.map_eq_some_iff.mp h
    cases pc <;> simp only [sendFailed, close_eq] at h
    all_goals repeat' split at h
    all_goals subst h
    all_goals rfl
  | send | trySend | sendCancel | senderTerminate | senderDrop | senderDropQueue =>
    simp only [exec, close_eq] at h
    split at h <;> cases h
    rfl
  | _ => cases hl

/-- A step of the receiver leaves the sender alone. -/
theorem exec_byReceiver {s s' : Channel α} {l : Label α} (hl : l.bySender = false)
    (h : s.exec l = some s') : s'.sender = s.sender ∧ s'.sends = s.sends := by
  cases l with
  | receiverStep =>
    simp only [exec, receiverStep, recvFailed, close_eq] at h
    repeat' split at h
    all_goals cases h
    all_goals exact ⟨rfl, rfl⟩
  | recv | tryRecv | receiverCancel | receiverTerminate | receiverDrop =>
    simp only [exec, close_eq] at h
    split at h <;> cases h
    exact ⟨rfl, rfl⟩
  | _ => cases hl

/-- A new channel, for any bound. -/
def Init (s : Channel α) : Prop := ∃ bound, s = channel bound

end Channel

end Aquic.Sync.Dgram
