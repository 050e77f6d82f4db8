import Aquic.Direction.Task

/-!
# Cancelling a direction

The four direction tasks, and what becomes of the error that the owner of a task sends to the cancel
sender. The application of an incoming direction has the receiver of the item channel, of an
outgoing direction the sender; of its half it can call what is public only.

The tasks are those of a release build: `close` calls `debug_panic!` for an error that is not of its
direction, which does nothing.
-/

namespace Aquic.Direction

open Run Sync

/-! ## Streams -/

namespace Stream

open Sync.Stream

variable {α C D E : Type}

/-- The calls of the QUIC backend that end a stream direction. -/
inductive BackendCall (C D E : Type) where
  | terminate (code : C)
  | terminateDueDecoder (error : D)
  | terminateDueEncoder (error : E)
  | hangup (message : String)
  deriving DecidableEq, Repr

def cancelUnavailable (typeName : String) : Error C D E :=
  .hangUp ("'" ++ typeName ++ "' cancellation-signal channel is unavailable")

/-- `Incoming::close`. -/
def Incoming.onClose (typeName : String) (display : E → String) :
    Error C D E → List (Action (Error C D E) (BackendCall C D E))
  | .finish => []
  | .stop code => [.backend (.terminate code)]
  | .reset code => [.item (.reset code)]
  | .decoder error => [.item (.decoder error), .backend (.terminateDueDecoder error)]
  | .connection => [.item .connection]
  | .hangUp message => [.item (.hangUp message), .backend (.hangup message)]
  | .encoder error =>
    let message := "'" ++ typeName ++ "' received an unexpected encoder error: " ++ display error
    [.item (.hangUp message), .backend (.hangup message)]

/-- `Outgoing::close`. -/
def Outgoing.onClose (typeName : String) (display : D → String) :
    Error C D E → List (Action (Error C D E) (BackendCall C D E))
  | .finish => []
  | .stop code => [.item (.stop code)]
  | .reset code => [.backend (.terminate code)]
  | .encoder error => [.item (.encoder error), .backend (.terminateDueEncoder error)]
  | .connection => [.item .connection]
  | .hangUp message => [.item (.hangUp message), .backend (.hangup message)]
  | .decoder error =>
    let message := "'" ++ typeName ++ "' received an unexpected encoder error: " ++ display error
    [.item (.hangUp message), .backend (.hangup message)]

/-- `stream::Incoming`: the task sends, the application receives. -/
def incoming (typeName : String) (display : E → String) :
    Direction (Channel α C D E) (Label α C D E) (Error C D E) (BackendCall C D E) where
  channel := closable
  io _
    | .sendItem .. => true
    | .senderStep => true
    | _ => false
  app
    | .recv => true
    | .tryRecv => true
    | .receiverStep => true
    | .receiverCancel => true
    | .receiverTerminate (.stop _) => true
    | .receiverDrop _ => true
    | _ => false
  alive s :=
    match s.sender with
    | .dropping => false
    | .dropped => false
    | _ => true
  idle s :=
    match s.sender with
    | .idle => true
    | _ => false
  leaveIo s :=
    match s.sender with
    | .idle => some s
    | .suspended .. => s.exec .senderCancel
    | _ => none
  allowed
    | .reset _ => true
    | .connection => true
    | _ => false
  appError
    | .stop _ => true
    | .hangUp _ => true
    | _ => false
  cancelUnavailable := cancelUnavailable typeName
  onClose := Incoming.onClose typeName display
  terminate := .senderTerminate
  drop := .senderDrop false
  dropQueue := .senderStep

/-- `stream::Outgoing`: the task receives, the application sends. -/
def outgoing (typeName : String) (display : D → String) :
    Direction (Channel α C D E) (Label α C D E) (Error C D E) (BackendCall C D E) where
  channel := closable
  io _
    | .recv => true
    | .tryRecv => true
    | .receiverStep => true
    | _ => false
  app
    | .sendItem .. => true
    | .senderStep => true
    | .senderCancel => true
    | .senderTerminate (.reset _) => true
    | .senderDrop _ => true
    | _ => false
  alive s :=
    match s.receiver with
    | .pollingError .completed => false
    | .pollingItem .completed => false
    | .suspended .completed => false
    | .panicked => false
    | .dropping => false
    | .dropped => false
    | _ => true
  idle s :=
    match s.receiver with
    | .idle => true
    | _ => false
  leaveIo s :=
    match s.receiver with
    | .idle => some s
    | .suspended _ => s.exec .receiverCancel
    | _ => none
  allowed
    | .stop _ => true
    | .connection => true
    | _ => false
  appError
    | .reset _ => true
    | .hangUp _ => true
    | _ => false
  cancelUnavailable := cancelUnavailable typeName
  onClose := Outgoing.onClose typeName display
  terminate := .receiverTerminate
  drop := .receiverDrop false
  dropQueue := .receiverStep

/-- A call that fails, or dropping a half, brings an error of its own only if none is recorded. -/
theorem closes_call {s : Channel α C D E} {l : Label α C D E} {e : Error C D E}
    (hsender : ∀ e, l ≠ .senderTerminate e) (hreceiver : ∀ e, l ≠ .receiverTerminate e)
    (h : s.closes l = some e) :
    s.error = some e ∨ e = .finish ∨ ∃ message, e = .hangUp message := by
  cases l with
  | senderStep =>
    simp only [Channel.closes] at h
    repeat' split at h
    all_goals first | exact .inl h | cases h
    all_goals first | exact .inr (.inr ⟨_, rfl⟩) | exact .inr (.inl rfl)
  | receiverStep =>
    simp only [Channel.closes] at h
    repeat' split at h
    all_goals first | exact .inl (Option.filter_eq_some_iff.mp h).1 | exact .inl h | cases h
    all_goals first | exact .inr (.inr ⟨_, rfl⟩) | exact .inr (.inl rfl)
  | senderTerminate e => exact absurd rfl (hsender e)
  | receiverTerminate e => exact absurd rfl (hreceiver e)
  | senderDrop panicking =>
    cases panicking <;> cases h <;> exact .inr (.inr ⟨_, rfl⟩)
  | receiverDrop panicking =>
    cases panicking <;> cases h <;> exact .inr (.inr ⟨_, rfl⟩)
  | _ => cases h

/-- What is reported and is neither the end nor a hang-up is on record. -/
theorem error_of_closes {s : Channel α C D E} {l : Label α C D E} {e : Error C D E}
    (h : s.closes l = some e) (hfinish : e ≠ .finish) (hhangUp : ∀ message, e ≠ .hangUp message)
    (hsender : ∀ e, l ≠ .senderTerminate e) (hreceiver : ∀ e, l ≠ .receiverTerminate e) :
    s.error = some e := by
  rcases closes_call hsender hreceiver h with h | h | ⟨message, h⟩
  · exact h
  · exact absurd h hfinish
  · exact absurd h (hhangUp message)

/-- Steps left of a call of `send_item` before it suspends or returns. -/
def senderRank : SenderPc α → Nat
  | .closing => 1
  | .enqueuing .. => 2
  | .reserving .. => 3
  | .pollingError .. => 4
  | _ => 0

/-- A step of the sender does not drop it. -/
theorem alive_senderStep {typeName : String} {display : E → String} {s s' : Channel α C D E}
    (halive : (incoming typeName display).alive s = true) (h : s.senderStep = some s') :
    (incoming typeName display).alive s' = true := by
  unfold Channel.senderStep at h
  cases hs : s.sender with
  | suspended item weight | closing =>
    simp only [hs] at h
    cases h
    rfl
  | pollingError item weight | reserving item weight | enqueuing item weight =>
    simp only [hs] at h
    repeat' split at h
    all_goals
      cases h
      rfl
  | idle | dropped =>
    simp only [hs] at h
    cases h
  | dropping => simp [incoming, hs] at halive

/-- The task keeps its half. -/
theorem incoming_alive_exec {typeName : String} {display : E → String} {s s' : Channel α C D E}
    {l : Label α C D E}
    (hl : (incoming typeName display).io s l = true ∨ (incoming typeName display).app l = true)
    (h : s.exec l = some s') (halive : (incoming typeName display).alive s = true) :
    (incoming typeName display).alive s' = true := by
  cases hby : l.bySender with
  | false =>
    have hsender := Channel.exec_byReceiver hby h
    simp only [incoming, hsender] at halive ⊢
    exact halive
  | true =>
    cases l with
    | sendItem =>
      simp only [Channel.exec] at h
      split at h <;> cases h
      rfl
    | senderStep => exact alive_senderStep halive h
    | _ => first | cases hby; done | simp [incoming] at hl

/-- Without an error, a call of `send_item` can be left or comes one step closer to its end. -/
theorem incoming_progress {typeName : String} {display : E → String} {s : Channel α C D E}
    (halive : (incoming typeName display).alive s = true)
    (herror : (incoming typeName display).channel.error s = none) :
    (incoming typeName display).Progresses (fun s => senderRank s.sender) .senderStep s := by
  unfold Progresses
  have hstep : (incoming typeName display).channel.exec s .senderStep = s.senderStep := rfl
  have herror : s.error = none := herror
  have hrest {s' : Channel α C D E} (hs' : s'.sender = .idle) :
      ((incoming typeName display).leaveIo s').isSome = true := by
    simp [incoming, hs']
  cases hs : s.sender with
  | idle => exact .inl (hrest hs)
  | suspended item weight => exact .inl (by simp [incoming, Channel.exec, hs])
  | dropping => simp [incoming, hs] at halive
  | dropped => simp [incoming, hs] at halive
  | closing =>
    simp only [hstep, Channel.senderStep, hs]
    exact .inr ⟨_, rfl, rfl, .inl (hrest rfl)⟩
  | pollingError item weight =>
    simp only [hstep, Channel.senderStep, hs, herror]
    exact .inr ⟨_, rfl, rfl, .inr ⟨rfl, rfl, Nat.lt_succ_self 3⟩⟩
  | reserving item weight =>
    simp only [hstep, Channel.senderStep, hs]
    refine .inr ?_
    split
    · exact ⟨_, rfl, rfl, .inl (hrest rfl)⟩
    · split
      · exact ⟨_, rfl, rfl, .inr ⟨rfl, herror, Nat.lt_succ_self 2⟩⟩
      · exact ⟨_, rfl, rfl, .inl rfl⟩
  | enqueuing item weight =>
    simp only [hstep, Channel.senderStep, hs]
    refine .inr ?_
    split
    · exact ⟨_, rfl, rfl, .inl (hrest rfl)⟩
    · split
      · exact ⟨_, rfl, rfl, .inr ⟨rfl, herror, Nat.lt_succ_self 1⟩⟩
      · exact ⟨_, rfl, rfl, .inl (hrest rfl)⟩

theorem incoming_lawful (typeName : String) (display : E → String) :
    (incoming (α := α) (C := C) (D := D) typeName display).Lawful where
  channel := closable_lawful
  init s h := by
    obtain ⟨bound, rfl⟩ := h
    exact ⟨rfl, rfl⟩
  quiet s l e hl hcloses he := by
    have hcall := error_of_closes hcloses (by rintro rfl; cases he) (by rintro message rfl; cases he)
    cases l with
    | senderTerminate e => simp [incoming] at hl
    | receiverTerminate e' =>
      cases hcloses
      cases e <;> simp [incoming] at hl he
    | _ => exact hcall (fun _ h => by cases h) (fun _ h => by cases h)
  alive_exec _ _ _ hl h _ := incoming_alive_exec hl h
  leaveIo_app s l s' hl h hleave := by
    have hby : l.bySender = false := by
      cases l <;> first | rfl | cases hl
    have hsender := Channel.exec_byReceiver hby h
    cases hs : s.sender <;> simp [incoming, Channel.exec, hsender, hs] at hleave ⊢
  error_leaveIo s s' h := by
    simp only [incoming, Channel.exec] at h
    repeat' split at h
    all_goals cases h
    all_goals rfl
  idle_leaveIo s s' h := by
    simp only [incoming, Channel.exec] at h
    repeat' split at h
    all_goals cases h
    all_goals simp_all [incoming]
  waits := waits_of_rank _ _ fun _ => incoming_progress
  drop s h := by
    cases hs : s.sender <;> simp [incoming, hs] at h
    simp [incoming, closable, Channel.exec, Channel.senderStep, hs]

/-- Steps left of a call of `recv` or `try_recv` before it suspends or returns. -/
def receiverRank : ReceiverPc α → Nat
  | .returning _ => 1
  | .releasing .. => 2
  | .pollingItem _ => 3
  | .takingItem => 3
  | .pollingError _ => 4
  | .checkingError => 4
  | _ => 0

/-- Without an error a step of the receiver does not drop it, and a future that is pending stays so. -/
theorem alive_receiverStep {typeName : String} {display : D → String}
    {s s' : Channel α C D E} (halive : (outgoing typeName display).alive s = true)
    (hnone : s.error = none) (h : s.receiverStep = some s') :
    (outgoing typeName display).alive s' = true := by
  have hpending {future : ErrorFuture} (hs : s.receiver = .pollingError future ∨
      s.receiver = .pollingItem future ∨ s.receiver = .suspended future) : future = .pending := by
    cases future with
    | pending => rfl
    | completed => rcases hs with hs | hs | hs <;> simp [outgoing, hs] at halive
  unfold Channel.receiverStep at h
  cases hs : s.receiver with
  | pollingError future =>
    obtain rfl := hpending (.inl hs)
    simp only [hs, hnone] at h
    cases h
    rfl
  | pollingItem future =>
    obtain rfl := hpending (.inr (.inl hs))
    simp only [hs] at h
    repeat' split at h
    all_goals
      cases h
      rfl
  | suspended future =>
    obtain rfl := hpending (.inr (.inr hs))
    simp only [hs] at h
    cases h
    rfl
  | checkingError =>
    simp only [hs, hnone] at h
    cases h
    rfl
  | takingItem | returning item =>
    simp only [hs] at h
    repeat' split at h
    all_goals
      cases h
      rfl
  | releasing item weight =>
    simp only [hs] at h
    cases h
    rfl
  | idle | panicked | dropped =>
    simp only [hs] at h
    cases h
  | dropping => simp [outgoing, hs] at halive

/-- Without an error, a call of `recv` can be left or comes one step closer to its end. -/
theorem outgoing_progress {typeName : String} {display : D → String} {s : Channel α C D E}
    (halive : (outgoing typeName display).alive s = true)
    (herror : (outgoing typeName display).channel.error s = none) :
    (outgoing typeName display).Progresses (fun s => receiverRank s.receiver) .receiverStep s := by
  unfold Progresses
  have hstep : (outgoing typeName display).channel.exec s .receiverStep = s.receiverStep := rfl
  have herror : s.error = none := herror
  have hrest {s' : Channel α C D E} (hs' : s'.receiver = .idle) :
      ((outgoing typeName display).leaveIo s').isSome = true := by
    simp [outgoing, hs']
  cases hs : s.receiver with
  | idle => exact .inl (hrest hs)
  | suspended future => exact .inl (by simp [outgoing, Channel.exec, hs])
  | panicked => simp [outgoing, hs] at halive
  | dropping => simp [outgoing, hs] at halive
  | dropped => simp [outgoing, hs] at halive
  | checkingError =>
    simp only [hstep, Channel.receiverStep, hs, herror]
    exact .inr ⟨_, rfl, rfl, .inr ⟨rfl, rfl, Nat.lt_succ_self 3⟩⟩
  | pollingError future =>
    cases future with
    | completed => simp [outgoing, hs] at halive
    | pending =>
      simp only [hstep, Channel.receiverStep, hs, herror]
      exact .inr ⟨_, rfl, rfl, .inr ⟨rfl, rfl, Nat.lt_succ_self 3⟩⟩
  | pollingItem future =>
    cases future with
    | completed => simp [outgoing, hs] at halive
    | pending =>
      simp only [hstep, Channel.receiverStep, hs]
      refine .inr ?_
      split
      · exact ⟨_, rfl, rfl, .inr ⟨rfl, herror, Nat.lt_succ_self 2⟩⟩
      · split
        · exact ⟨_, rfl, rfl, .inl (hrest rfl)⟩
        · exact ⟨_, rfl, rfl, .inl rfl⟩
  | takingItem =>
    simp only [hstep, Channel.receiverStep, hs]
    refine .inr ?_
    split
    · exact ⟨_, rfl, rfl, .inr ⟨rfl, herror, Nat.lt_succ_self 2⟩⟩
    · split
      · exact ⟨_, rfl, rfl, .inl (hrest rfl)⟩
      · exact ⟨_, rfl, rfl, .inl (hrest rfl)⟩
  | releasing item weight =>
    simp only [hstep, Channel.receiverStep, hs]
    exact .inr ⟨_, rfl, rfl, .inr ⟨rfl, herror, Nat.lt_succ_self 1⟩⟩
  | returning item =>
    simp only [hstep, Channel.receiverStep, hs]
    refine .inr ?_
    split
    · exact ⟨_, rfl, rfl, .inl (hrest rfl)⟩
    · exact ⟨_, rfl, rfl, .inl (hrest rfl)⟩

/-- The task keeps its half while no error is recorded. -/
theorem outgoing_alive_exec {typeName : String} {display : D → String} {s s' : Channel α C D E}
    {l : Label α C D E}
    (hl : (outgoing typeName display).io s l = true ∨ (outgoing typeName display).app l = true)
    (h : s.exec l = some s') (hnone : s'.error = none)
    (halive : (outgoing typeName display).alive s = true) :
    (outgoing typeName display).alive s' = true := by
  cases hby : l.bySender with
  | true =>
    have hreceiver := (Channel.exec_bySender hby h).1
    simp only [outgoing, hreceiver] at halive ⊢
    exact halive
  | false =>
    cases l with
    | recv | tryRecv =>
      simp only [Channel.exec] at h
      split at h <;> cases h
      rfl
    | receiverStep =>
      -- no error was recorded before the step either
      have herror : s'.error = s.error.or (s.closes .receiverStep) :=
        closable_lawful.error_exec s .receiverStep s' h
      rw [herror] at hnone
      exact alive_receiverStep halive (Option.or_eq_none_iff.mp hnone).1 h
    | _ => first | cases hby; done | simp [outgoing] at hl

theorem outgoing_lawful (typeName : String) (display : D → String) :
    (outgoing (α := α) (C := C) (E := E) typeName display).Lawful where
  channel := closable_lawful
  init s h := by
    obtain ⟨bound, rfl⟩ := h
    exact ⟨rfl, rfl⟩
  quiet s l e hl hcloses he := by
    have hcall := error_of_closes hcloses (by rintro rfl; cases he) (by rintro message rfl; cases he)
    cases l with
    | receiverTerminate e => simp [outgoing] at hl
    | senderTerminate e' =>
      cases hcloses
      cases e <;> simp [outgoing] at hl he
    | _ => exact hcall (fun _ h => by cases h) (fun _ h => by cases h)
  alive_exec _ _ _ := outgoing_alive_exec
  leaveIo_app s l s' hl h hleave := by
    have hby : l.bySender = true := by
      cases l <;> first | rfl | cases hl
    have hreceiver := (Channel.exec_bySender hby h).1
    cases hs : s.receiver <;> simp [outgoing, Channel.exec, hreceiver, hs] at hleave ⊢
  error_leaveIo s s' h := by
    simp only [outgoing, Channel.exec] at h
    repeat' split at h
    all_goals cases h
    all_goals rfl
  idle_leaveIo s s' h := by
    simp only [outgoing, Channel.exec] at h
    repeat' split at h
    all_goals cases h
    all_goals simp_all [outgoing]
  waits := waits_of_rank _ _ fun _ => outgoing_progress
  drop s h := by
    cases hs : s.receiver <;> simp [outgoing, hs] at h
    simp [outgoing, closable, Channel.exec, Channel.receiverStep, hs]

end Stream

/-! ## Datagrams -/

namespace Dgram

open Sync.Dgram

variable {α : Type}

def cancelUnavailable (typeName : String) : Error :=
  .hangUp ("'" ++ typeName ++ "' cancellation-signal channel is unavailable")

/-- `close` of both directions; the backend is not told. -/
def onClose : Error → List (Action Error Empty)
  | .ended => []
  | .connection => [.item .connection]
  | .hangUp message => [.item (.hangUp message)]

/-- `dgram::Incoming`: the task sends with `try_send`, one item after the other. -/
def incoming (typeName : String) : Direction (Channel α) (Label α) Error Empty where
  channel := closable
  io s
    | .trySend .. => s.sends.isEmpty
    | .sendStep call => call = 0
    | _ => false
  app
    | .recv => true
    | .tryRecv => true
    | .receiverStep => true
    | .receiverCancel => true
    | .receiverDrop _ => true
    | _ => false
  alive s :=
    match s.sender, s.sends with
    | .alive, [] => true
    | .alive, [.checkingError ..] => true
    | .alive, [.tryReserving ..] => true
    | .alive, [.enqueuing ..] => true
    | _, _ => false
  idle s :=
    match s.sender, s.sends with
    | .alive, [] => true
    | _, _ => false
  leaveIo s :=
    match s.sender, s.sends with
    | .alive, [] => some s
    | _, _ => none
  allowed
    | .connection => true
    | _ => false
  appError
    | .ended => true
    | .hangUp _ => true
    | .connection => false
  cancelUnavailable := cancelUnavailable typeName
  onClose := onClose
  terminate := .senderTerminate
  drop := .senderDrop false
  dropQueue := .senderDropQueue

/-- `dgram::Outgoing`: the task receives. -/
def outgoing (typeName : String) : Direction (Channel α) (Label α) Error Empty where
  channel := closable
  io _
    | .recv => true
    | .tryRecv => true
    | .receiverStep => true
    | _ => false
  app
    | .send .. => true
    | .trySend .. => true
    | .sendStep _ => true
    | .sendCancel _ => true
    | .senderDrop _ => true
    | .senderDropQueue => true
    | _ => false
  alive s :=
    match s.receiver with
    | .dropping => false
    | .dropped => false
    | _ => true
  idle s :=
    match s.receiver with
    | .idle => true
    | _ => false
  leaveIo s :=
    match s.receiver with
    | .idle => some s
    | .suspended => s.exec .receiverCancel
    | _ => none
  allowed
    | .connection => true
    | _ => false
  appError
    | .ended => true
    | .hangUp _ => true
    | .connection => false
  cancelUnavailable := cancelUnavailable typeName
  onClose := onClose
  terminate := .receiverTerminate
  drop := .receiverDrop false
  dropQueue := .receiverStep

theorem closes_call {s : Channel α} {l : Label α} {e : Error}
    (hsender : ∀ e, l ≠ .senderTerminate e) (hreceiver : ∀ e, l ≠ .receiverTerminate e)
    (h : s.closes l = some e) : s.error = some e ∨ e = .ended ∨ ∃ message, e = .hangUp message := by
  cases l with
  | sendStep i =>
    simp only [Channel.closes] at h
    repeat' split at h
    all_goals first | exact .inl h | cases h
    all_goals exact .inr (.inr ⟨_, rfl⟩)
  | receiverStep =>
    simp only [Channel.closes] at h
    repeat' split at h
    all_goals first | exact .inl h | cases h
    all_goals exact .inr (.inr ⟨_, rfl⟩)
  | senderTerminate e => exact absurd rfl (hsender e)
  | receiverTerminate e => exact absurd rfl (hreceiver e)
  | senderDrop panicking =>
    cases panicking <;> cases h
    · exact .inr (.inl rfl)
    · exact .inr (.inr ⟨_, rfl⟩)
  | receiverDrop panicking =>
    cases panicking <;> cases h
    · exact .inr (.inl rfl)
    · exact .inr (.inr ⟨_, rfl⟩)
  | _ => cases h

theorem error_of_closes {s : Channel α} {l : Label α} {e : Error} (h : s.closes l = some e)
    (hended : e ≠ .ended) (hhangUp : ∀ message, e ≠ .hangUp message)
    (hsender : ∀ e, l ≠ .senderTerminate e) (hreceiver : ∀ e, l ≠ .receiverTerminate e) :
    s.error = some e := by
  rcases closes_call hsender hreceiver h with h | h | ⟨message, h⟩
  · exact h
  · exact absurd h hended
  · exact absurd h (hhangUp message)

/-- Steps left of a call of `try_send`; a call of `send` is not counted. -/
def tryRank : SendPc α → Nat
  | .checkingError .. => 3
  | .tryReserving .. => 2
  | .enqueuing .. => 1
  | _ => 0

theorem alive_incoming {typeName : String} {s : Channel α} :
    (incoming typeName).alive s = true ↔ s.sender = .alive ∧
      (s.sends = [] ∨ ∃ pc, s.sends = [pc] ∧ 0 < tryRank pc) := by
  simp only [incoming]
  constructor
  · intro h
    split at h <;> simp_all [tryRank]
  · rintro ⟨hsender, hsends | ⟨pc, hsends, hpc⟩⟩
    · simp [hsender, hsends]
    · cases pc <;> simp_all [tryRank]

/-- One step of `try_send`. -/
theorem sendStep_try {s s' : Channel α} {pc : SendPc α}
    (hsender : s.sender = .alive) (hsends : s.sends = [pc]) (hpc : 0 < tryRank pc)
    (h : s.sendStep 0 = some s') :
    s'.sender = .alive ∧ (s'.sends = [] ∨ ∃ pc', s'.sends = [pc'] ∧ 0 < tryRank pc' ∧
      tryRank pc' < tryRank pc ∧ s'.error = s.error) := by
  simp only [Channel.sendStep, Channel.sendFailed, Channel.close_eq, hsends,
    List.getElem?_cons_zero, Option.map_some, Option.some.injEq] at h
  cases pc <;> simp only [tryRank, Nat.lt_irrefl] at hpc h
  all_goals repeat' split at h
  all_goals subst h
  all_goals simp [Channel.sent, Channel.resume, hsender, hsends, tryRank]

/-- The task keeps its half. -/
theorem incoming_alive_exec {typeName : String} {s s' : Channel α} {l : Label α}
    (hl : (incoming typeName).io s l = true ∨ (incoming typeName).app l = true)
    (h : s.exec l = some s') (halive : (incoming typeName).alive s = true) :
    (incoming typeName).alive s' = true := by
  cases hby : l.bySender with
  | false =>
    obtain ⟨hsender, hsends⟩ := Channel.exec_byReceiver hby h
    simp only [incoming, hsender, hsends] at halive ⊢
    exact halive
  | true =>
    obtain ⟨hsender, hsends⟩ := alive_incoming.mp halive
    rw [alive_incoming]
    cases l with
    | trySend item weight =>
      have hempty : s.sends = [] := by
        simpa [incoming] using hl
      simp only [Channel.exec, hsender, hempty] at h
      cases h
      exact ⟨rfl, .inr ⟨_, rfl, Nat.zero_lt_succ 2⟩⟩
    | sendStep i =>
      obtain rfl : i = 0 := by
        simpa [incoming] using hl
      rcases hsends with hempty | ⟨pc, hpc, htry⟩
      · simp [Channel.exec, Channel.sendStep, hempty] at h
      · obtain ⟨hsender', hnext⟩ := sendStep_try hsender hpc htry h
        refine ⟨hsender', hnext.imp_right ?_⟩
        rintro ⟨pc', hsends', htry', -⟩
        exact ⟨pc', hsends', htry'⟩
    | _ => first | cases hby; done | simp [incoming] at hl

/-- Without an error, a call of `try_send` can be left or comes one step closer to its end. -/
theorem incoming_progress {typeName : String} {s : Channel α}
    (halive : (incoming typeName).alive s = true)
    (herror : (incoming typeName).channel.error s = none) :
    (incoming typeName).Progresses (fun s => s.sends.head?.elim 0 tryRank) (.sendStep 0) s := by
  have hrest {s : Channel α} (hsender : s.sender = .alive) (hsends : s.sends = []) :
      ((incoming typeName).leaveIo s).isSome = true := by
    simp [incoming, hsender, hsends]
  obtain ⟨hsender, hempty | ⟨pc, hpc, htry⟩⟩ := alive_incoming.mp halive
  · exact .inl (hrest hsender hempty)
  · obtain ⟨s', hstep⟩ : ∃ s', s.sendStep 0 = some s' := by
      simp [Channel.sendStep, hpc]
    refine .inr ⟨s', rfl, hstep, ?_⟩
    obtain ⟨hsender', hsends' | ⟨pc', hpc', htry', hlt, herror'⟩⟩ :=
      sendStep_try hsender hpc htry hstep
    · exact .inl (hrest hsender' hsends')
    · refine .inr ⟨alive_incoming.mpr ⟨hsender', .inr ⟨pc', hpc', htry'⟩⟩, ?_, ?_⟩
      · exact herror'.trans herror
      · simpa [hpc, hpc'] using hlt

theorem incoming_lawful (typeName : String) : (incoming (α := α) typeName).Lawful where
  channel := closable_lawful
  init s h := by
    obtain ⟨bound, rfl⟩ := h
    exact ⟨rfl, rfl⟩
  quiet s l e hl hcloses he := by
    have hcall := error_of_closes hcloses (by rintro rfl; cases he) (by rintro message rfl; cases he)
    cases l with
    | senderTerminate | receiverTerminate => simp [incoming] at hl
    | _ => exact hcall (fun _ h => by cases h) (fun _ h => by cases h)
  alive_exec _ _ _ hl h _ := incoming_alive_exec hl h
  leaveIo_app s l s' hl h hleave := by
    have hby : l.bySender = false := by
      cases l <;> first | rfl | cases hl
    obtain ⟨hsender, hsends⟩ := Channel.exec_byReceiver hby h
    simp only [incoming, hsender, hsends] at hleave ⊢
    split at hleave
    · rfl
    · cases hleave
  error_leaveIo s s' h := by
    simp only [incoming] at h
    split at h <;> cases h
    rfl
  idle_leaveIo s s' h := by
    simp only [incoming] at h
    split at h <;> cases h
    simp_all [incoming]
  waits := waits_of_rank _ _ fun _ => incoming_progress
  drop s h := by
    simp only [incoming] at h
    split at h
    · next hs hsends => simp [incoming, closable, Channel.exec, hs, hsends]
    · cases h

/-- Steps left of a call of `recv` or `try_recv` before it suspends or returns. -/
def receiverRank : ReceiverPc α → Nat
  | .releasing .. => 1
  | .pollingItem => 2
  | .takingItem => 2
  | .pollingError => 3
  | .checkingError => 3
  | _ => 0

/-- A step of the receiver does not drop it. -/
theorem alive_receiverStep {typeName : String} {s s' : Channel α}
    (halive : (outgoing typeName).alive s = true) (h : s.receiverStep = some s') :
    (outgoing typeName).alive s' = true := by
  unfold Channel.receiverStep at h
  cases hs : s.receiver with
  | suspended | releasing item weight =>
    simp only [hs] at h
    cases h
    rfl
  | checkingError | pollingError | pollingItem | takingItem =>
    simp only [hs] at h
    repeat' split at h
    all_goals
      cases h
      rfl
  | idle | dropped =>
    simp only [hs] at h
    cases h
  | dropping => simp [outgoing, hs] at halive

/-- The task keeps its half. -/
theorem outgoing_alive_exec {typeName : String} {s s' : Channel α} {l : Label α}
    (hl : (outgoing typeName).io s l = true ∨ (outgoing typeName).app l = true)
    (h : s.exec l = some s') (halive : (outgoing typeName).alive s = true) :
    (outgoing typeName).alive s' = true := by
  cases hby : l.bySender with
  | true =>
    have hreceiver := Channel.exec_bySender hby h
    simp only [outgoing, hreceiver] at halive ⊢
    exact halive
  | false =>
    cases l with
    | recv | tryRecv =>
      simp only [Channel.exec] at h
      split at h <;> cases h
      rfl
    | receiverStep => exact alive_receiverStep halive h
    | _ => first | cases hby; done | simp [outgoing] at hl

/-- Without an error, a call of `recv` can be left or comes one step closer to its end. -/
theorem outgoing_progress {typeName : String} {s : Channel α}
    (halive : (outgoing typeName).alive s = true)
    (herror : (outgoing typeName).channel.error s = none) :
    (outgoing typeName).Progresses (fun s => receiverRank s.receiver) .receiverStep s := by
  unfold Progresses
  have hstep : (outgoing typeName).channel.exec s .receiverStep = s.receiverStep := rfl
  have herror : s.error = none := herror
  have hrest {s' : Channel α} (hs' : s'.receiver = .idle) :
      ((outgoing typeName).leaveIo s').isSome = true := by
    simp [outgoing, hs']
  cases hs : s.receiver with
  | idle => exact .inl (hrest hs)
  | suspended => exact .inl (by simp [outgoing, Channel.exec, hs])
  | dropping => simp [outgoing, hs] at halive
  | dropped => simp [outgoing, hs] at halive
  | checkingError | pollingError =>
    simp only [hstep, Channel.receiverStep, hs, herror]
    exact .inr ⟨_, rfl, rfl, .inr ⟨rfl, rfl, Nat.lt_succ_self 2⟩⟩
  | pollingItem =>
    simp only [hstep, Channel.receiverStep, hs]
    refine .inr ?_
    split
    · exact ⟨_, rfl, rfl, .inr ⟨rfl, herror, Nat.lt_succ_self 1⟩⟩
    · split
      · exact ⟨_, rfl, rfl, .inl (hrest rfl)⟩
      · exact ⟨_, rfl, rfl, .inl rfl⟩
  | takingItem =>
    simp only [hstep, Channel.receiverStep, hs]
    refine .inr ?_
    split
    · exact ⟨_, rfl, rfl, .inr ⟨rfl, herror, Nat.lt_succ_self 1⟩⟩
    · split
      · exact ⟨_, rfl, rfl, .inl (hrest rfl)⟩
      · exact ⟨_, rfl, rfl, .inl (hrest rfl)⟩
  | releasing item weight =>
    simp only [hstep, Channel.receiverStep, hs]
    exact .inr ⟨_, rfl, rfl, .inl (hrest rfl)⟩

theorem outgoing_lawful (typeName : String) : (outgoing (α := α) typeName).Lawful where
  channel := closable_lawful
  init s h := by
    obtain ⟨bound, rfl⟩ := h
    exact ⟨rfl, rfl⟩
  quiet s l e hl hcloses he := by
    have hcall := error_of_closes hcloses (by rintro rfl; cases he) (by rintro message rfl; cases he)
    cases l with
    | senderTerminate | receiverTerminate => simp [outgoing] at hl
    | _ => exact hcall (fun _ h => by cases h) (fun _ h => by cases h)
  alive_exec _ _ _ hl h _ := outgoing_alive_exec hl h
  leaveIo_app s l s' hl h hleave := by
    have hby : l.bySender = true := by
      cases l <;> first | rfl | cases hl
    have hreceiver := Channel.exec_bySender hby h
    cases hs : s.receiver <;> simp [outgoing, Channel.exec, hreceiver, hs] at hleave ⊢
  error_leaveIo s s' h := by
    simp only [outgoing, Channel.exec] at h
    repeat' split at h
    all_goals cases h
    all_goals rfl
  idle_leaveIo s s' h := by
    simp only [outgoing, Channel.exec] at h
    repeat' split at h
    all_goals cases h
    all_goals simp_all [outgoing]
  waits := waits_of_rank _ _ fun _ => outgoing_progress
  drop s h := by
    cases hs : s.receiver <;> simp [outgoing, hs] at h
    simp [outgoing, closable, Channel.exec, Channel.receiverStep, hs]

end Dgram

/-- **A cancelled direction never reports the reason**: in none of the four tasks, in no state in
which the direction is open, and for no error that the cancel sender may be used with. -/
theorem cancel_reason_lost {α β C D E : Type} (typeName : String) (displayDecoder : D → String)
    (displayEncoder : E → String) :
    (Stream.incoming (α := α) (C := C) (D := D) typeName displayEncoder).NeverReports ∧
    (Stream.outgoing (α := α) (C := C) (E := E) typeName displayDecoder).NeverReports ∧
    (Dgram.incoming (α := β) typeName).NeverReports ∧
    (Dgram.outgoing (α := β) typeName).NeverReports :=
  ⟨(Stream.incoming_lawful typeName displayEncoder).never_reports,
    (Stream.outgoing_lawful typeName displayDecoder).never_reports,
    (Dgram.incoming_lawful typeName).never_reports,
    (Dgram.outgoing_lawful typeName).never_reports⟩

/-- Streams of numbers whose codecs never fail. -/
def plainIncoming : Direction (Sync.Stream.Channel Nat Nat Empty Empty)
    (Sync.Stream.Label Nat Nat Empty Empty) (Sync.Stream.Error Nat Empty Empty)
    (Stream.BackendCall Nat Empty Empty) :=
  Stream.incoming "Incoming" nofun

/-- Datagrams of numbers. -/
def plainOutgoing :
    Direction (Sync.Dgram.Channel Nat) (Sync.Dgram.Label Nat) Sync.Dgram.Error Empty :=
  Dgram.outgoing "Outgoing"

/-- The peer resets a stream whose I/O loop waits for the backend: the application gets a hang-up. A
connection is lost: the application of the datagrams gets `End`. -/
theorem cancel_reported_as_hangup :
    ¬ plainIncoming.Reports (.new (Sync.Stream.channel 10)) (.reset 7) ∧
    ¬ plainOutgoing.Reports (.new (Sync.Dgram.channel 10)) .connection := by
  constructor
  · have hrun : ∃ s, Reachable (· = .new (Sync.Stream.channel 10)) anyStep plainIncoming.exec s ∧
        decide (s.picked = some (.reset 7) ∧ s.pc = .finished ∧ s.channel.error =
          some (.hangUp "'Sender' is dropped without manual termination")) = true :=
      exists_reachable (some (DirectionTask.new (Sync.Stream.channel 10)))
        (fun _ hs => (Option.some.inj hs).symm)
        [.cancel (.reset 7), .poll, .ioPending, .pollCancel, .close, .drop, .dropQueue]
        (by decide +kernel)
    obtain ⟨s, hs, hp⟩ := hrun
    obtain ⟨hpicked, hpc, herror⟩ := of_decide_eq_true hp
    intro hreports
    have hreset : s.channel.error = some (.reset 7) := hreports s hs hpicked hpc
    rw [herror] at hreset
    cases hreset
  · have hrun : ∃ s, Reachable (· = .new (Sync.Dgram.channel 10)) anyStep plainOutgoing.exec s ∧
        decide (s.picked = some .connection ∧ s.pc = .finished ∧
          s.channel.error = some .ended) = true :=
      exists_reachable (some (DirectionTask.new (Sync.Dgram.channel 10)))
        (fun _ hs => (Option.some.inj hs).symm)
        [.cancel .connection, .poll, .io .recv, .io .receiverStep, .io .receiverStep, .ioPending,
          .pollCancel, .close, .drop, .dropQueue]
        (by decide +kernel)
    obtain ⟨s, hs, hp⟩ := hrun
    obtain ⟨hpicked, hpc, herror⟩ := of_decide_eq_true hp
    intro hreports
    have hconnection : s.channel.error = some .connection := hreports s hs hpicked hpc
    rw [herror] at hconnection
    cases hconnection

end Aquic.Direction
