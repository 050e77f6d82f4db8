import Aquic.Lib.Run
import Aquic.Sync.Weighted

/-!
# The stream channel

`sync/stream.rs`: the channel of one stream direction, with one sender and one receiver. Payloads go
through a weighted queue; the terminal error goes through a oneshot that both halves share, and that
keeps the first error it is given.

The two halves run concurrently. A call is a sequence of atomic steps, each of which touches one of
the two channels, and the steps of the halves interleave arbitrarily (`Label`). An `async` call is
polled: a poll runs to the next suspension, a suspended call may be polled again at any time, or be
dropped. `recv` keeps a future of the error oneshot across its polls; when this future is ready with
`Finish` the code pretends that it is pending, and polling it once more panics (`ErrorFuture`).

The channels are those of the multi-threaded build. The shared part holds a sender and a receiver of
the oneshot, so that it is never closed while a half is alive.
-/

namespace Aquic.Sync.Stream

/-- A piece of data of a stream. -/
inductive Payload (α : Type) where
  | item (value : α)
  | last (value : α)
  | done
  deriving DecidableEq, Repr

variable {α C D E : Type}

/-- The end of the stream direction. -/
def Payload.isFin : Payload α → Bool
  | .item _ => false
  | .last _ => true
  | .done => true

/-- The terminal state of a stream direction; `C`, `D` and `E` are the stream codes, decoder errors
and encoder errors of the application. -/
inductive Error (C D E : Type) where
  | finish
  | stop (code : C)
  | reset (code : C)
  | decoder (error : D)
  | encoder (error : E)
  | connection
  | hangUp (message : String)
  deriving DecidableEq, Repr

/-- `matches!(error, Error::Finish)`. -/
def Error.isFinish : Error C D E → Bool
  | .finish => true
  | _ => false

def itemSenderUnavailable : Error C D E := .hangUp "'Sender.item_sender' is unavailable"

def itemReceiverUnavailable : Error C D E := .hangUp "'Receiver.item_receiver' is unavailable"

def senderDropped (panicking : Bool) : Error C D E :=
  if panicking then .hangUp "'Sender' is dropped due to panic"
  else .hangUp "'Sender' is dropped without manual termination"

def receiverDropped (panicking : Bool) : Error C D E :=
  if panicking then .hangUp "'Receiver' is dropped due to panic"
  else .hangUp "'Receiver' is dropped without manual termination"

/-! ## The state -/

/-- Where the sender is. -/
inductive SenderPc (α : Type) where
  | idle
  /-- `send_item`: the error oneshot is polled next. -/
  | pollingError (item : Payload α) (weight : Nat)
  /-- `send_item`: the weight is reserved next, if there is capacity. -/
  | reserving (item : Payload α) (weight : Nat)
  /-- `send_item` is suspended. -/
  | suspended (item : Payload α) (weight : Nat)
  /-- `send_item`: the weight is reserved, the item is enqueued next. -/
  | enqueuing (item : Payload α) (weight : Nat)
  /-- `send_item`: a final item was enqueued, the channel is closed next. -/
  | closing
  /-- The error is recorded, the queue's sender is dropped next. -/
  | dropping
  | dropped
  deriving DecidableEq, Repr

/-- The future of the error oneshot that `recv` keeps. -/
inductive ErrorFuture where
  | pending
  /-- It was ready with `Finish`, which was hidden. -/
  | completed
  deriving DecidableEq, Repr

/-- Where the receiver is. -/
inductive ReceiverPc (α : Type) where
  | idle
  /-- `recv`: the error oneshot is polled next. -/
  | pollingError (future : ErrorFuture)
  /-- `recv`: the queue is polled next. -/
  | pollingItem (future : ErrorFuture)
  /-- `recv` is suspended. -/
  | suspended (future : ErrorFuture)
  /-- `try_recv`: the error oneshot is read next. -/
  | checkingError
  /-- `try_recv`: the queue is read next. -/
  | takingItem
  /-- An item was taken, its weight is released next. -/
  | releasing (item : Payload α) (weight : Nat)
  /-- An item was taken, it is returned next, after closing if it is final. -/
  | returning (item : Payload α)
  /-- `recv` has panicked: the drop of the receiver is all that is left. -/
  | panicked
  /-- The error is recorded, the queue's receiver is dropped next. -/
  | dropping
  | dropped
  deriving DecidableEq, Repr

/-- What a call of `recv` or `try_recv` ended with. -/
inductive RecvResult (α C D E : Type) where
  | ok (payload : Payload α)
  /-- `Ok(None)` of `try_recv`. -/
  | empty
  | err (error : Error C D E)
  | panic
  deriving DecidableEq, Repr

structure Channel (α C D E : Type) where
  items : Weighted (Payload α)
  /-- The error oneshot. -/
  error : Option (Error C D E)
  sender : SenderPc α
  receiver : ReceiverPc α
  /-- History: all payloads that were enqueued. -/
  enqueued : List (Payload α)
  /-- History: what the calls of `send_item` returned, `none` for `Ok(())`. -/
  sendResults : List (Option (Error C D E))
  /-- History: what the calls of the receiver returned. -/
  recvResults : List (RecvResult α C D E)
  deriving DecidableEq, Repr

/-- `channel(bound, ..)`. -/
def channel (bound : Nat) : Channel α C D E where
  items := .new bound
  error := none
  sender := .idle
  receiver := .idle
  enqueued := []
  sendResults := []
  recvResults := []

namespace Channel

/-- `close`: the first error stays, and is what the caller gets. -/
def close (s : Channel α C D E) (error : Error C D E) : Channel α C D E × Error C D E :=
  match s.error with
  | none => ({ s with error := some error }, error)
  | some actual => (s, actual)

theorem close_eq (s : Channel α C D E) (error : Error C D E) :
    s.close error = ({ s with error := some (s.error.getD error) }, s.error.getD error) := by
  obtain ⟨items, _ | actual, sender, receiver, enqueued, sendResults, recvResults⟩ := s <;> rfl

/-! ## The sender -/

/-- The call of `send_item` in progress returns. -/
def sent (s : Channel α C D E) (result : Option (Error C D E)) : Channel α C D E :=
  { s with sender := .idle, sendResults := s.sendResults ++ [result] }

/-- `Err(self.close(error))`. -/
def sendFailed (s : Channel α C D E) (error : Error C D E) : Channel α C D E :=
  let (s, error) := s.close error
  s.sent (some error)

/-- The queue's receiver is gone. -/
def receiverGone (s : Channel α C D E) : Bool :=
  match s.receiver with
  | .dropped => true
  | _ => false

/-- The queue's sender is gone. -/
def senderGone (s : Channel α C D E) : Bool :=
  match s.sender with
  | .dropped => true
  | _ => false

def senderStep (s : Channel α C D E) : Option (Channel α C D E) :=
  match s.sender with
  | .idle => none
  | .pollingError item weight =>
    match s.error with
    | some error => some (s.sendFailed error)
    | none => some { s with sender := .reserving item weight }
  | .reserving item weight =>
    if s.receiverGone then
      some (s.sendFailed itemSenderUnavailable)
    else if hasCapacity s.items.occupation weight s.items.bound then
      some { s with items := s.items.reserve weight, sender := .enqueuing item weight }
    else
      some { s with sender := .suspended item weight }
  | .suspended item weight => some { s with sender := .pollingError item weight }
  | .enqueuing item weight =>
    if s.receiverGone then
      some ({ s with items := { s.items with occupation := 0 } }.sendFailed itemSenderUnavailable)
    else
      let s := { s with items := s.items.enqueue item weight, enqueued := s.enqueued ++ [item] }
      if item.isFin then some { s with sender := .closing } else some (s.sent none)
  | .closing =>
    let (s, error) := s.close .finish
    some (s.sent (if error.isFinish then none else some error))
  | .dropping => some { s with sender := .dropped }
  | .dropped => none

/-! ## The receiver -/

/-- The call of the receiver in progress returns. -/
def received (s : Channel α C D E) (result : RecvResult α C D E) : Channel α C D E :=
  { s with receiver := .idle, recvResults := s.recvResults ++ [result] }

/-- `Err(self.close(error))`. -/
def recvFailed (s : Channel α C D E) (error : Error C D E) : Channel α C D E :=
  let (s, error) := s.close error
  s.received (.err error)

def receiverStep (s : Channel α C D E) : Option (Channel α C D E) :=
  match s.receiver with
  | .idle => none
  | .pollingError .completed =>
    -- an async function resumed after completion
    some { s with receiver := .panicked, recvResults := s.recvResults ++ [.panic] }
  | .pollingError .pending =>
    match s.error with
    | none => some { s with receiver := .pollingItem .pending }
    | some .finish => some { s with receiver := .pollingItem .completed }
    | some error => some (s.recvFailed error)
  | .pollingItem future =>
    match s.items.queue with
    | (item, weight) :: rest =>
      some { s with items := { s.items with queue := rest }, receiver := .releasing item weight }
    | [] =>
      if s.senderGone then some (s.recvFailed itemReceiverUnavailable)
      else some { s with receiver := .suspended future }
  | .suspended future => some { s with receiver := .pollingError future }
  | .checkingError =>
    match s.error with
    | some error => some (s.recvFailed error)
    | none => some { s with receiver := .takingItem }
  | .takingItem =>
    match s.items.queue with
    | (item, weight) :: rest =>
      some { s with items := { s.items with queue := rest }, receiver := .releasing item weight }
    | [] =>
      if s.senderGone then some (s.recvFailed itemReceiverUnavailable)
      else some (s.received .empty)
  | .releasing item weight =>
    some { s with items := s.items.release weight, receiver := .returning item }
  | .returning item =>
    if item.isFin then
      let (s, error) := s.close .finish
      some (s.received (if error.isFinish then .ok item else .err error))
    else
      some (s.received (.ok item))
  | .panicked => none
  | .dropping =>
    some { s with items := { s.items with queue := [], occupation := 0 }, receiver := .dropped }
  | .dropped => none

end Channel

/-! ## Runs -/

inductive Label (α C D E : Type) where
  /-- The sender calls `send_item` with an item of this weight. -/
  | sendItem (item : Payload α) (weight : Nat)
  /-- The sender's call takes a step, or is polled again. -/
  | senderStep
  /-- The sender's suspended call is dropped. -/
  | senderCancel
  /-- `terminate`, `terminate_due_decoder`, `terminate_due_connection` or `hangup`. -/
  | senderTerminate (error : Error C D E)
  | senderDrop (panicking : Bool)
  /-- The receiver calls `recv`. -/
  | recv
  /-- The receiver calls `try_recv`. -/
  | tryRecv
  /-- The receiver's call takes a step, or is polled again. -/
  | receiverStep
  /-- The receiver's suspended call is dropped. -/
  | receiverCancel
  /-- `terminate`, `terminate_due_encoder`, `terminate_due_connection` or `hangup`. -/
  | receiverTerminate (error : Error C D E)
  | receiverDrop (panicking : Bool)
  deriving DecidableEq, Repr

/-- A step of the sender. -/
def Label.bySender : Label α C D E → Bool
  | .sendItem .. => true
  | .senderStep => true
  | .senderCancel => true
  | .senderTerminate _ => true
  | .senderDrop _ => true
  | _ => false

namespace Channel

def exec (s : Channel α C D E) : Label α C D E → Option (Channel α C D E)
  | .sendItem item weight =>
    match s.sender with
    | .idle => some { s with sender := .pollingError item weight }
    | _ => none
  | .senderStep => s.senderStep
  | .senderCancel =>
    match s.sender with
    | .suspended .. => some { s with sender := .idle }
    | _ => none
  | .senderTerminate error =>
    match s.sender with
    | .idle => some (s.close error).1
    | _ => none
  | .senderDrop panicking =>
    match s.sender with
    | .idle => some { (s.close (senderDropped panicking)).1 with sender := .dropping }
    | _ => none
  | .recv =>
    match s.receiver with
    | .idle => some { s with receiver := .pollingError .pending }
    | _ => none
  | .tryRecv =>
    match s.receiver with
    | .idle => some { s with receiver := .checkingError }
    | _ => none
  | .receiverStep => s.receiverStep
  | .receiverCancel =>
    match s.receiver with
    | .suspended _ => some { s with receiver := .idle }
    | _ => none
  | .receiverTerminate error =>
    match s.receiver with
    | .idle => some (s.close error).1
    | _ => none
  | .receiverDrop panicking =>
    match s.receiver with
    | .idle | .panicked => some { (s.close (receiverDropped panicking)).1 with receiver := .dropping }
    | _ => none

/-- A step of the sender leaves the receiver alone. -/
theorem exec_bySender {s s' : Channel α C D E} {l : Label α C D E} (hl : l.bySender = true)
    (h : s.exec l = some s') : s'.receiver = s.receiver ∧ s'.recvResults = s.recvResults := by
  cases l with
  | senderStep =>
    simp only [exec, senderStep, sendFailed, close_eq] at h
    repeat' split at h
    all_goals cases h
    all_goals exact ⟨rfl, rfl⟩
  | sendItem | senderCancel | senderTerminate | senderDrop =>
    simp only [exec, close_eq] at h
    split at h <;> cases h
    exact ⟨rfl, rfl⟩
  | _ => cases hl

/-- A step of the receiver leaves the sender alone. -/
theorem exec_byReceiver {s s' : Channel α C D E} {l : Label α C D E} (hl : l.bySender = false)
    (h : s.exec l = some s') : s'.sender = s.sender := by
  cases l with
  | receiverStep =>
    simp only [exec, receiverStep, recvFailed, close_eq] at h
    repeat' split at h
    all_goals cases h
    all_goals rfl
  | recv | tryRecv | receiverCancel | receiverTerminate | receiverDrop =>
    simp only [exec, close_eq] at h
    split at h <;> cases h <;> rfl
  | _ => cases hl

/-- A new channel, for any bound. -/
def Init (s : Channel α C D E) : Prop := ∃ bound, s = channel bound

/-- The payloads that were returned, in order. -/
def returned (s : Channel α C D E) : List (Payload α) :=
  s.recvResults.filterMap fun
    | .ok payload => some payload
    | _ => none

end Channel

end Aquic.Sync.Stream
