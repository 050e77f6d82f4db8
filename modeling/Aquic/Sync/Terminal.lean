import Aquic.Lib.Run
import Aquic.Sync.Dgram
import Aquic.Sync.Oneshot
import Aquic.Sync.Stream
import Mathlib.Data.List.ReduceOption

/-!
# One terminal error

Many operations race to close a channel: a final payload on both sides, `terminate`, `hangup`, a
dropped half, an unavailable queue. Each brings an error of its own. Both halves have to agree on the
first one.

`Closable` is what stream and datagram channels have in common: every step passes at most one error to
`close`. Observers outside hold clones of the error receiver (`Observed`). The results for both
channels are instances of `Closable.agreement`.
-/

namespace Aquic.Sync

open Aquic.Run

/-- A channel in a state `σ` with steps `ι`, whose halves share a oneshot for the terminal error. -/
structure Closable (σ ι ε : Type) where
  init : σ → Prop
  exec : σ → ι → Option σ
  /-- The content of the oneshot. -/
  error : σ → Option ε
  /-- The senders and the receivers of the oneshot that the halves own. -/
  owned : σ → Nat
  /-- The error that a step passes to `close`, if it does. -/
  closes : σ → ι → Option ε
  /-- The `Err` values that the calls of both halves have returned. -/
  failures : σ → List ε

namespace Closable

variable {σ ι ε : Type}

structure Lawful (c : Closable σ ι ε) : Prop where
  init s : c.init s → c.error s = none ∧ c.failures s = []
  error_exec s i s' : c.exec s i = some s' → c.error s' = (c.error s).or (c.closes s i)
  failures_exec s i s' : c.exec s i = some s' →
    ∀ e ∈ c.failures s', e ∈ c.failures s ∨ c.error s' = some e
  /-- Only a half that is alive closes the channel. -/
  alive s i s' : Reachable c.init anyStep c.exec s → c.exec s i = some s' →
    (c.closes s i).isSome → 0 < c.owned s

/-- A channel with the clones of its error receiver. -/
structure Observed (σ ε : Type) where
  channel : σ
  /-- Clones that are alive. -/
  clones : Nat
  /-- History: the errors passed to `close`, in order. -/
  passed : List ε

inductive ObservedLabel (ι : Type) where
  /-- A step of the channel. -/
  | channel (step : ι)
  /-- `error_receiver()` of a half, or a clone of a clone. -/
  | clone
  | dropClone

variable (c : Closable σ ι ε)

/-- The oneshot of the terminal error. -/
def oneshot (s : Observed σ ε) : Oneshot ε where
  container := c.error s.channel
  senderCount := c.owned s.channel
  receiverCount := c.owned s.channel + s.clones

def Init (s : Observed σ ε) : Prop := c.init s.channel ∧ s.clones = 0 ∧ s.passed = []

def observe (s : Observed σ ε) : ObservedLabel ι → Option (Observed σ ε)
  | .channel i => (c.exec s.channel i).map fun channel =>
      { s with channel, passed := s.passed ++ (c.closes s.channel i).toList }
  | .clone =>
    if 0 < c.owned s.channel + s.clones then some { s with clones := s.clones + 1 } else none
  | .dropClone => if 0 < s.clones then some { s with clones := s.clones - 1 } else none

/-- **Agreement on the terminal error**: the recorded error is the first one that was passed to
`close`; both halves and all clones read it; every `Err` that was returned is it; and it stays. -/
structure Agrees (s : Observed σ ε) : Prop where
  first : (c.oneshot s).container = s.passed.head?
  read e fallback : (c.oneshot s).container = some e →
    (c.oneshot s).error fallback = some e ∧ (c.oneshot s).tryRecv = .ok e
  returned : ∀ e ∈ c.failures s.channel, (c.oneshot s).container = some e
  stays e s' : (c.oneshot s).container = some e → Reachable (· = s) anyStep c.observe s' →
    (c.oneshot s').container = some e

variable {c}

/-- One step, seen from outside. -/
theorem observe_cases {s s' : Observed σ ε} {l : ObservedLabel ι} (h : c.observe s l = some s') :
    (∃ i, c.exec s.channel i = some s'.channel ∧
      s'.passed = s.passed ++ (c.closes s.channel i).toList) ∨
    s'.channel = s.channel ∧ s'.passed = s.passed := by
  cases l with
  | channel i =>
    obtain ⟨channel, hexec, rfl⟩ := Option.map_eq_some_iff.mp h
    exact .inl ⟨i, hexec, rfl⟩
  | clone =>
    simp only [observe] at h
    split at h <;> cases h
    exact .inr ⟨rfl, rfl⟩
  | dropClone =>
    simp only [observe] at h
    split at h <;> cases h
    exact .inr ⟨rfl, rfl⟩

theorem reachable_channel {s : Observed σ ε} (h : Reachable c.Init anyStep c.observe s) :
    Reachable c.init anyStep c.exec s.channel := by
  induction h with
  | init h => exact .init h.1
  | step _ _ hstep ih =>
    rcases observe_cases hstep with ⟨i, hexec, -⟩ | ⟨hchannel, -⟩
    · exact ih.step trivial hexec
    · rwa [hchannel]

theorem Lawful.error_stays (hc : c.Lawful) {s s' : Observed σ ε} {l : ObservedLabel ι} {e : ε}
    (he : c.error s.channel = some e) (h : c.observe s l = some s') :
    c.error s'.channel = some e := by
  rcases observe_cases h with ⟨i, hexec, -⟩ | ⟨hchannel, -⟩
  · rw [hc.error_exec _ _ _ hexec, he]
    rfl
  · rw [hchannel, he]

theorem Lawful.error_of_reachable (hc : c.Lawful) {s s' : Observed σ ε} {e : ε}
    (he : c.error s.channel = some e) (h : Reachable (· = s) anyStep c.observe s') :
    c.error s'.channel = some e := by
  induction h with
  | init h => rwa [h]
  | step _ _ hstep ih => exact hc.error_stays ih hstep

theorem Lawful.first_error (hc : c.Lawful) {s : Observed σ ε}
    (h : Reachable c.Init anyStep c.observe s) :
    c.error s.channel = s.passed.head? ∧ ∀ e ∈ c.failures s.channel, c.error s.channel = some e := by
  induction h with
  | init h =>
    obtain ⟨hinit, -, hpassed⟩ := h
    obtain ⟨herror, hfailures⟩ := hc.init _ hinit
    rw [herror, hpassed, hfailures]
    exact ⟨rfl, by simp⟩
  | @step s s' l _ _ hstep ih =>
    obtain ⟨hfirst, hreturned⟩ := ih
    rcases observe_cases hstep with ⟨i, hexec, hpassed⟩ | ⟨hchannel, hpassed⟩
    · constructor
      · rw [hc.error_exec _ _ _ hexec, hpassed, hfirst]
        cases s.passed <;> cases c.closes s.channel i <;> rfl
      · intro e he
        rcases hc.failures_exec _ _ _ hexec e he with he | he
        · exact hc.error_stays (hreturned e he) hstep
        · exact he
    · rw [hchannel, hpassed]
      exact ⟨hfirst, hreturned⟩

theorem Lawful.agreement (hc : c.Lawful) {s : Observed σ ε}
    (h : Reachable c.Init anyStep c.observe s) : c.Agrees s where
  first := (hc.first_error h).1
  read _ fallback he := Oneshot.error_of_some he fallback
  returned := (hc.first_error h).2
  stays _ _ he hrun := hc.error_of_reachable he hrun

/-- A step closes the channel the way the oneshot does; the fallback for a closed oneshot is never
taken. -/
theorem Lawful.error_close (hc : c.Lawful) {s : Observed σ ε}
    (h : Reachable c.Init anyStep c.observe s) {channel : σ} {i : ι} {e : ε}
    (hexec : c.exec s.channel i = some channel) (hcloses : c.closes s.channel i = some e)
    (fallback : ε) :
    c.error channel = ((c.oneshot s).close fallback e).1.container ∧
    c.error channel = some ((c.oneshot s).close fallback e).2 := by
  have halive : 0 < c.owned s.channel := 
    hc.alive _ _ _ (reachable_channel h) hexec (by rw [hcloses]; rfl)
  have hclose := Oneshot.close_eq (o := c.oneshot s) (Nat.add_pos_left halive _) fallback e
  rw [hclose, hc.error_exec _ _ _ hexec, hcloses]
  constructor
  · show (c.error s.channel).or (some e) = some ((c.error s.channel).getD e)
    cases c.error s.channel <;> rfl
  · show (c.error s.channel).or (some e) = some ((c.error s.channel).getD e)
    cases c.error s.channel <;> rfl

end Closable

/-! ## Streams -/

namespace Stream

variable {α C D E : Type}

/-- The error that a step passes to `close`. -/
def Channel.closes (s : Channel α C D E) : Label α C D E → Option (Error C D E)
  | .senderStep =>
    match s.sender with
    | .pollingError .. => s.error
    | .reserving .. => if s.receiverGone then some itemSenderUnavailable else none
    | .enqueuing .. => if s.receiverGone then some itemSenderUnavailable else none
    | .closing => some .finish
    | _ => none
  | .senderTerminate error => some error
  | .senderDrop panicking => some (senderDropped panicking)
  | .receiverStep =>
    match s.receiver with
    | .pollingError .pending => s.error.filter fun error => !error.isFinish
    | .pollingItem _ =>
      if s.items.queue.isEmpty && s.senderGone then some itemReceiverUnavailable else none
    | .checkingError => s.error
    | .takingItem =>
      if s.items.queue.isEmpty && s.senderGone then some itemReceiverUnavailable else none
    | .returning item => if item.isFin then some .finish else none
    | _ => none
  | .receiverTerminate error => some error
  | .receiverDrop panicking => some (receiverDropped panicking)
  | _ => none

def RecvResult.failure : RecvResult α C D E → Option (Error C D E)
  | .err error => some error
  | _ => none

/-- The `Err` values that were returned. -/
def Channel.failures (s : Channel α C D E) : List (Error C D E) :=
  s.sendResults.reduceOption ++ s.recvResults.filterMap RecvResult.failure

theorem Channel.mem_failures {s : Channel α C D E} {e : Error C D E} :
    e ∈ s.failures ↔ some e ∈ s.sendResults ∨ .err e ∈ s.recvResults := by
  rw [failures, List.mem_append, List.reduceOption_mem_iff, List.mem_filterMap]
  refine or_congr_right ⟨?_, fun h => ⟨_, h, rfl⟩⟩
  rintro ⟨result, hmem, hresult⟩
  cases result <;> cases hresult
  exact hmem

/-- The shared part of the channel holds one sender and one receiver of the oneshot. -/
def Channel.owned (s : Channel α C D E) : Nat :=
  if s.senderGone && s.receiverGone then 0 else 1

def closable : Closable (Channel α C D E) (Label α C D E) (Error C D E) where
  init := Channel.Init
  exec := Channel.exec
  error := Channel.error
  owned := Channel.owned
  closes := Channel.closes
  failures := Channel.failures

/-- A step closes the channel with at most one error, and the error that it returns is the recorded
one. -/
theorem Channel.exec_closes {s s' : Channel α C D E} {l : Label α C D E} (h : s.exec l = some s') :
    s'.error = s.error.or (s.closes l) ∧ ∀ e ∈ s'.failures, e ∈ s.failures ∨ s'.error = some e := by
  simp only [Channel.mem_failures]
  cases l with
  | senderStep =>
    simp only [Channel.exec, Channel.senderStep, Channel.sendFailed, Channel.close_eq] at h
    simp only [Channel.closes]
    repeat' split at h
    all_goals cases h
    all_goals refine ⟨by simp_all [Channel.sent], fun e he => ?_⟩
    all_goals simp [Channel.sent] at he ⊢
    all_goals grind
  | receiverStep =>
    simp only [Channel.exec, Channel.receiverStep, Channel.recvFailed, Channel.close_eq] at h
    simp only [Channel.closes]
    repeat' split at h
    all_goals cases h
    all_goals refine ⟨by simp_all [Channel.received, Error.isFinish], fun e he => ?_⟩
    all_goals simp [Channel.received] at he ⊢
    all_goals grind
  | _ =>
    simp only [Channel.exec, Channel.close_eq] at h
    split at h <;> cases h
    all_goals exact ⟨by simp [Channel.closes], fun e he => .inl he⟩

theorem closable_lawful : (closable (α := α) (C := C) (D := D) (E := E)).Lawful where
  init s h := by
    obtain ⟨bound, rfl⟩ := h
    exact ⟨rfl, rfl⟩
  error_exec _ _ _ h := (Channel.exec_closes h).1
  failures_exec _ _ _ h := (Channel.exec_closes h).2
  alive s l s' _ h hcloses := by
    show 0 < s.owned
    have hgone (hs : s.senderGone = false ∨ s.receiverGone = false) : 0 < s.owned := by
      unfold Channel.owned
      rcases hs with hs | hs <;> simp [hs]
    cases hl : l.bySender with
    | true =>
      refine hgone (.inl ?_)
      cases hs : s.sender <;> first | simp [Channel.senderGone, hs]; done | skip
      cases l <;> simp [closable, Channel.exec, Channel.senderStep, hs] at h <;> cases hl
    | false =>
      refine hgone (.inr ?_)
      cases hr : s.receiver <;> first | simp [Channel.receiverGone, hr]; done | skip
      cases l <;> simp [closable, Channel.exec, Channel.receiverStep, hr] at h <;> cases hl

end Stream

/-! ## Datagrams -/

namespace Dgram

variable {α : Type}

/-- The error that a step passes to `close`; `try_send` returns a recorded error without closing. -/
def Channel.closes (s : Channel α) : Label α → Option Error
  | .sendStep i =>
    match s.sends[i]? with
    | some (.pollingError ..) => s.error
    | some (.reserving ..) => if s.receiverGone then some itemSenderUnavailable else none
    | some (.tryReserving ..) => if s.receiverGone then some itemSenderUnavailable else none
    | some (.enqueuing ..) => if s.receiverGone then some itemSenderUnavailable else none
    | _ => none
  | .senderTerminate error => some error
  | .senderDrop panicking => some (senderDropped panicking)
  | .receiverStep =>
    match s.receiver with
    | .pollingError => s.error
    | .pollingItem =>
      if s.items.queue.isEmpty && s.senderGone then some itemReceiverUnavailable else none
    | .checkingError => s.error
    | .takingItem =>
      if s.items.queue.isEmpty && s.senderGone then some itemReceiverUnavailable else none
    | _ => none
  | .receiverTerminate error => some error
  | .receiverDrop panicking => some (receiverDropped panicking)
  | _ => none

def SendResult.failure : SendResult → Option Error
  | .err error => some error
  | _ => none

def RecvResult.failure : RecvResult α → Option Error
  | .err error => some error
  | _ => none

/-- The `Err` values that were returned. -/
def Channel.failures (s : Channel α) : List Error :=
  s.sendResults.filterMap SendResult.failure ++ s.recvResults.filterMap RecvResult.failure

theorem Channel.mem_failures {s : Channel α} {e : Error} :
    e ∈ s.failures ↔ .err e ∈ s.sendResults ∨ .err e ∈ s.recvResults := by
  rw [failures, List.mem_append, List.mem_filterMap, List.mem_filterMap]
  refine or_congr ⟨?_, fun h => ⟨_, h, rfl⟩⟩ ⟨?_, fun h => ⟨_, h, rfl⟩⟩
  · rintro ⟨result, hmem, hresult⟩
    cases result <;> cases hresult
    exact hmem
  · rintro ⟨result, hmem, hresult⟩
    cases result <;> cases hresult
    exact hmem

/-- Each half holds a sender and a receiver of the oneshot. -/
def Channel.owned (s : Channel α) : Nat :=
  (if s.senderGone then 0 else 1) + if s.receiverGone then 0 else 1

def closable : Closable (Channel α) (Label α) Error where
  init := Channel.Init
  exec := Channel.exec
  error := Channel.error
  owned := Channel.owned
  closes := Channel.closes
  failures := Channel.failures

/-- A sender with a call in progress is alive. -/
theorem Channel.sends_of_reachable {s : Channel α}
    (h : Reachable Channel.Init anyStep Channel.exec s) : s.sender ≠ .alive → s.sends = [] := by
  induction h with
  | init h =>
    obtain ⟨bound, rfl⟩ := h
    exact fun _ => rfl
  | @step s s' l _ _ hexec ih =>
    intro hsender
    cases l with
    | sendStep i =>
      obtain ⟨pc, hpc, hexec⟩ := Option.map_eq_some_iff.mp hexec
      by_cases halive : s.sender = .alive
      · refine absurd ?_ hsender
        cases pc <;> simp only [sendFailed, close_eq] at hexec
        all_goals repeat' split at hexec
        all_goals subst hexec
        all_goals exact halive
      · simp [ih halive] at hpc
    | receiverStep =>
      simp only [exec, receiverStep, recvFailed, close_eq] at hexec
      repeat' split at hexec
      all_goals cases hexec
      all_goals exact ih hsender
    | sendCancel i =>
      simp only [exec] at hexec
      split at hexec <;> cases hexec
      show s.sends.eraseIdx i = []
      rw [ih hsender]
      rfl
    | senderDrop panicking =>
      simp only [exec, close_eq] at hexec
      split at hexec <;> cases hexec
      assumption
    | senderDropQueue =>
      simp only [exec] at hexec
      split at hexec <;> cases hexec
      next hdropping => exact ih (by simp [hdropping])
    | send item weight | trySend item weight =>
      simp only [exec] at hexec
      split at hexec <;> cases hexec
      next halive => exact absurd halive hsender
    | _ =>
      simp only [exec, close_eq] at hexec
      split at hexec <;> cases hexec
      all_goals exact ih hsender

/-- A step closes the channel with at most one error, and the error that it returns is the recorded
one. -/
theorem Channel.exec_closes {s s' : Channel α} {l : Label α} (h : s.exec l = some s') :
    s'.error = s.error.or (s.closes l) ∧ ∀ e ∈ s'.failures, e ∈ s.failures ∨ s'.error = some e := by
  simp only [Channel.mem_failures]
  cases l with
  | sendStep i =>
    simp only [Channel.exec, Channel.sendStep, Channel.sendFailed, Channel.close_eq] at h
    obtain ⟨pc, hpc, h⟩ := Option.map_eq_some_iff.mp h
    simp only [Channel.closes, hpc]
    cases pc <;> simp only at h ⊢
    all_goals repeat' split at h
    all_goals subst h
    all_goals refine ⟨by simp_all [Channel.sent, Channel.resume], fun e he => ?_⟩
    all_goals simp [Channel.sent, Channel.resume] at he ⊢
    all_goals grind
  | receiverStep =>
    simp only [Channel.exec, Channel.receiverStep, Channel.recvFailed, Channel.close_eq] at h
    simp only [Channel.closes]
    repeat' split at h
    all_goals cases h
    all_goals refine ⟨by simp_all [Channel.received], fun e he => ?_⟩
    all_goals simp [Channel.received] at he ⊢
    all_goals grind
  | _ =>
    simp only [Channel.exec, Channel.close_eq] at h
    split at h <;> cases h
    all_goals exact ⟨by simp [Channel.closes], fun e he => .inl he⟩

theorem closable_lawful : (closable (α := α)).Lawful where
  init s h := by
    obtain ⟨bound, rfl⟩ := h
    exact ⟨rfl, rfl⟩
  error_exec _ _ _ h := (Channel.exec_closes h).1
  failures_exec _ _ _ h := (Channel.exec_closes h).2
  alive s l s' hs h hcloses := by
    show 0 < s.owned
    have hsends := Channel.sends_of_reachable hs
    have halive (hsender : s.sender = .alive) : 0 < s.owned := by
      simp only [Channel.owned, Channel.senderGone, hsender, Bool.false_eq_true, if_false]
      omega
    cases l with
    | sendStep i =>
      refine halive ?_
      by_contra hne
      simp [closable, Channel.exec, Channel.sendStep, hsends hne] at h
    | senderTerminate error =>
      cases hsender : s.sender <;> simp [closable, Channel.exec, hsender] at h
      exact halive hsender
    | senderDrop panicking =>
      cases hsender : s.sender <;> simp [closable, Channel.exec, hsender] at h
      exact halive hsender
    | receiverStep | receiverTerminate error | receiverDrop panicking =>
      cases hr : s.receiver <;> simp [closable, Channel.exec, Channel.receiverStep, hr] at h
      all_goals simp [Channel.owned, Channel.receiverGone, hr]
    | _ => simp [closable, Channel.closes] at hcloses

end Dgram

/-- **Both halves agree on one terminal error**, in every run of a stream channel and of a datagram
channel with any number of clones of the error receiver. -/
theorem terminal_error_agrees {α β C D E : Type} :
    (∀ s : Closable.Observed (Stream.Channel α C D E) (Stream.Error C D E),
      Reachable Stream.closable.Init anyStep Stream.closable.observe s → Stream.closable.Agrees s) ∧
    ∀ s : Closable.Observed (Dgram.Channel β) Dgram.Error,
      Reachable Dgram.closable.Init anyStep Dgram.closable.observe s → Dgram.closable.Agrees s :=
  ⟨fun _ h => Stream.closable_lawful.agreement h, fun _ h => Dgram.closable_lawful.agreement h⟩

/-- A stream that is reset while the receiver stops it, and a datagram direction whose sender is
dropped while the connection is lost. -/
theorem terminal_error_agrees_races :
    (∃ s : Closable.Observed (Stream.Channel Nat Nat Unit Unit) (Stream.Error Nat Unit Unit),
      Reachable Stream.closable.Init anyStep Stream.closable.observe s ∧
      s.passed = [.reset 1, .stop 2, .reset 1] ∧ Stream.Channel.failures s.channel = [.reset 1] ∧
      Stream.closable.Agrees s) ∧
    ∃ s : Closable.Observed (Dgram.Channel Nat) Dgram.Error,
      Reachable Dgram.closable.Init anyStep Dgram.closable.observe s ∧
      s.passed = [.connection, .ended] ∧ s.clones = 1 ∧ Dgram.closable.Agrees s := by
  have agrees := @terminal_error_agrees Nat Nat Nat Unit Unit
  constructor
  · have hrun : ∃ s : Closable.Observed (Stream.Channel Nat Nat Unit Unit) (Stream.Error Nat Unit Unit),
        Reachable Stream.closable.Init anyStep Stream.closable.observe s ∧
        decide (s.passed = [.reset 1, .stop 2, .reset 1] ∧
          Stream.Channel.failures s.channel = [.reset 1]) = true :=
      exists_reachable (some ⟨Stream.channel 10, 0, []⟩)
        (fun s hs => Option.some.inj hs ▸ ⟨⟨10, rfl⟩, rfl, rfl⟩)
        [.channel (.senderTerminate (.reset 1)), .channel (.receiverTerminate (.stop 2)),
          .channel .recv, .channel .receiverStep] (by decide +kernel)
    obtain ⟨s, hs, hp⟩ := hrun
    obtain ⟨hpassed, hfailures⟩ := of_decide_eq_true hp
    exact ⟨s, hs, hpassed, hfailures, agrees.1 s hs⟩
  · have hrun : ∃ s : Closable.Observed (Dgram.Channel Nat) Dgram.Error,
        Reachable Dgram.closable.Init anyStep Dgram.closable.observe s ∧
        decide (s.passed = [.connection, .ended] ∧ s.clones = 1) = true :=
      exists_reachable (some ⟨Dgram.channel 10, 0, []⟩)
        (fun s hs => Option.some.inj hs ▸ ⟨⟨10, rfl⟩, rfl, rfl⟩)
        [.clone, .channel (.receiverTerminate .connection), .channel (.senderDrop false)]
        (by decide +kernel)
    obtain ⟨s, hs, hp⟩ := hrun
    obtain ⟨hpassed, hclones⟩ := of_decide_eq_true hp
    exact ⟨s, hs, hpassed, hclones, agrees.2 s hs⟩

end Aquic.Sync
