import Aquic.Lib.Collections
import Aquic.Lib.Run

/-!
# The multi-threaded remote procedure call

`sync/mpsc/rpc/mt.rs`. Every call has a slot of its own in a concurrent slab: an atomic state, an atomic
waker, and an unsynchronised cell for the result. The future of the caller and the callback of the
server access it concurrently. `FuturePc` and `CallbackPc` are what they do next; every access to the
slot is one step, except for the write of the result, which takes two, so that a read that overlaps
with it is a state of the model.

A slot is removed when its future is dropped. Its key is never matched again; whoever has an entry
already may go on using it, since the memory is kept until the last entry is dropped. A registered
waker is taken, and woken, by the next `wake` (`Call.woken`). The slab has room for every call.
-/

namespace Aquic.Sync.Rpc.Mt

open Collections
open Run

variable {R : Type}

inductive State where
  | pending
  | ready
  | hangUp
  deriving DecidableEq, Repr

/-- `UnsafeCell<Option<R>>`, also while it is written. -/
inductive ResultCell (R : Type) where
  | empty
  | writing
  | written (result : R)
  deriving DecidableEq, Repr

/-- What a call of `send` returns. -/
inductive Outcome (R : Type) where
  | ok (result : R)
  /-- `SendError::Closed`. -/
  | closed
  /-- `SendError::NoResponse`. -/
  | noResponse
  deriving DecidableEq, Repr

/-- What `send` and its future do next. -/
inductive FuturePc (R : Type) where
  /-- The slot is inserted: send the call to the server. -/
  | sending (waker : Nat)
  /-- The queue is closed: when the callback that came back is dropped, remove the slot. -/
  | closing
  /-- `poll`: get the entry. -/
  | getting (waker : Nat)
  /-- Load the state. -/
  | loading (waker : Nat)
  | registering (waker : Nat)
  /-- Load the state once more. -/
  | reloading (waker : Nat)
  /-- The state is `Ready`: take the result. -/
  | taking
  | parked (waker : Nat)
  /-- The future is dropped, after this outcome or without one: remove the slot. -/
  | dropping (outcome : Option (Outcome R))
  | finished (outcome : Option (Outcome R))
  deriving DecidableEq, Repr

/-- What the callback does next. -/
inductive CallbackPc (R : Type) where
  /-- The callback is in the queue, or in the hands of the server. -/
  | held
  /-- `on_result`: get the entry. -/
  | getting (result : R)
  /-- Write the result. -/
  | writing (result : R)
  /-- The write is not complete. -/
  | stillWriting (result : R)
  /-- Store `Ready`. -/
  | storing
  /-- Wake, after `Ready`. -/
  | waking
  /-- `drop`: get the entry. -/
  | dropGetting
  /-- Compare and exchange `Pending` for `HangUp`. -/
  | hangingUp
  /-- Wake, after `HangUp`. -/
  | hangUpWaking
  | dropped
  deriving DecidableEq, Repr

/-- A call, with its slot. -/
structure Call (R : Type) where
  state : State
  waker : Option Nat
  result : ResultCell R
  removed : Bool
  future : FuturePc R
  callback : CallbackPc R
  /-- The waker that was registered last has been woken. -/
  woken : Bool
  /-- History: the result that was given to the callback. -/
  given : Option R
  deriving DecidableEq, Repr

namespace Call

/-- `send` up to the insertion of the slot, polled with a waker. -/
def new (waker : Nat) : Call R where
  state := .pending
  waker := none
  result := .empty
  removed := false
  future := .sending waker
  callback := .held
  woken := false
  given := none

def wake (c : Call R) : Call R :=
  match c.waker with
  | none => c
  | some _ => { c with waker := none, woken := true }

/-- The next step of `send` or of its future. -/
def futureStep (c : Call R) (receiverExists : Bool) : Option (Call R) :=
  match c.future with
  | .sending waker =>
    if receiverExists then some { c with future := .getting waker }
    else some { c with future := .closing, callback := .dropGetting }
  | .closing =>
    match c.callback with
    | .dropped => some { c with removed := true, future := .finished (some .closed) }
    | _ => none
  | .getting waker =>
    if c.removed then some { c with future := .dropping (some .noResponse) }
    else some { c with future := .loading waker }
  | .loading waker =>
    match c.state with
    | .pending => some { c with future := .registering waker }
    | .hangUp => some { c with future := .dropping (some .noResponse) }
    | .ready => some { c with future := .taking }
  | .registering waker =>
    some { c with waker := some waker, woken := false, future := .reloading waker }
  | .reloading waker =>
    match c.state with
    | .pending => some { c with future := .parked waker }
    | .hangUp => some { c with future := .dropping (some .noResponse) }
    | .ready => some { c with future := .taking }
  | .taking =>
    match c.result with
    | .written result => some { c with result := .empty, future := .dropping (some (.ok result)) }
    | .empty => some { c with future := .dropping (some .noResponse) }
    -- a data race: nothing is said about it
    | .writing => none
  | .parked _ => none
  | .dropping outcome => some { c with removed := true, future := .finished outcome }
  | .finished _ => none

/-- The next step of the callback. -/
def callbackStep (c : Call R) : Option (Call R) :=
  match c.callback with
  | .held => none
  | .getting result =>
    if c.removed then some { c with callback := .dropGetting }
    else some { c with callback := .writing result }
  | .writing result => some { c with result := .writing, callback := .stillWriting result }
  | .stillWriting result => some { c with result := .written result, callback := .storing }
  | .storing => some { c with state := .ready, callback := .waking }
  -- the callback was consumed, and is dropped
  | .waking => some { c.wake with callback := .dropGetting }
  | .dropGetting =>
    if c.removed then some { c with callback := .dropped } else some { c with callback := .hangingUp }
  | .hangingUp =>
    match c.state with
    | .pending => some { c with state := .hangUp, callback := .hangUpWaking }
    | _ => some { c with callback := .dropped }
  | .hangUpWaking => some { c.wake with callback := .dropped }
  | .dropped => none

end Call

/-! ## Runs -/

structure Remote (R : Type) where
  calls : Slots (Call R)
  receiverExists : Bool
  deriving DecidableEq, Repr

def Remote.new : Remote R := { calls := .empty, receiverExists := true }

/-- A step of one of the parties of a call. -/
inductive Action (R : Type) where
  /-- `send` or its future takes its next step. -/
  | future
  /-- The parked future is polled. -/
  | poll (waker : Nat)
  /-- The parked future is dropped. -/
  | cancel
  | onResult (result : R)
  | dropCallback
  /-- The callback takes its next step. -/
  | callback
  deriving DecidableEq, Repr

inductive Op (R : Type) where
  /-- `send` is polled for the first time. -/
  | send (waker : Nat)
  | dropReceiver
  | act (key : Nat) (action : Action R)
  deriving DecidableEq, Repr

def CallbackPc.isHeld : CallbackPc R → Bool
  | .held => true
  | _ => false

/-- The callback of a call is with the server once the call is sent. -/
def Call.isSent (c : Call R) : Bool :=
  match c.future with
  | .sending _ => false
  | _ => true

def Call.exec (c : Call R) (receiverExists : Bool) : Action R → Option (Call R)
  | .future => c.futureStep receiverExists
  | .poll waker =>
    match c.future with
    | .parked _ => some { c with future := .getting waker }
    | _ => none
  | .cancel =>
    match c.future with
    | .parked _ => some { c with future := .dropping none }
    | _ => none
  | .onResult result =>
    if c.callback.isHeld && c.isSent then
      some { c with callback := .getting result, given := some result }
    else none
  | .dropCallback =>
    if c.callback.isHeld && c.isSent then some { c with callback := .dropGetting } else none
  | .callback => c.callbackStep

def Remote.exec (s : Remote R) : Op R → Option (Remote R)
  | .send waker => some { s with calls := (s.calls.push (.new waker)).1 }
  | .dropReceiver => some { s with receiverExists := false }
  | .act key action => do
    let c ← s.calls.get key
    let c ← c.exec s.receiverExists action
    some { s with calls := s.calls.set key c }

/-! ## The protocol of a slot -/

/-- How the call has ended. -/
def FuturePc.outcome : FuturePc R → Option (Outcome R)
  | .dropping outcome => outcome
  | .finished outcome => outcome
  | _ => none

/-- The callback has not left the state `Pending`. -/
def CallbackPc.isUnsettled : CallbackPc R → Bool
  | .held => true
  | .getting _ => true
  | .writing _ => true
  | .stillWriting _ => true
  | .storing => true
  | _ => false

namespace Call

/-- What the callback has done. -/
structure CallbackOk (c : Call R) : Prop where
  unsettled : c.callback.isUnsettled = true → c.state = .pending
  held : c.callback = .held → c.given = none
  getting : ∀ r, c.callback = .getting r → c.given = some r
  writing : ∀ r, c.callback = .writing r → c.given = some r
  stillWriting : ∀ r, c.callback = .stillWriting r → c.given = some r
  storing : c.callback = .storing → ∃ r, c.given = some r ∧ c.result = .written r
  waking : c.callback = .waking → c.state = .ready
  /-- A callback that was given a result and did not store it has found the slot removed. -/
  dropGetting : c.callback = .dropGetting → c.state = .pending → c.given = none ∨ c.removed = true
  hangingUp : c.callback = .hangingUp → c.state = .pending → c.given = none
  hangUp : c.state = .hangUp →
    c.given = none ∧ (c.callback = .hangUpWaking ∨ c.callback = .dropped)

/-- What the future has seen. -/
structure FutureOk (c : Call R) : Prop where
  sending : c.isSent = false → c.callback = .held
  removed : c.removed = true → ∃ outcome, c.future = .finished outcome
  /-- The result stays in its cell until it is taken. -/
  ready : c.state = .ready →
    ∃ r, c.given = some r ∧ (c.result = .written r ∨ c.future.outcome = some (.ok r))
  taking : c.future = .taking → c.state = .ready
  ok : ∀ r, c.future.outcome = some (.ok r) → c.given = some r
  /-- It is taken once. -/
  taken : ∀ r, c.future.outcome = some (.ok r) → c.state = .ready ∧ c.result = .empty
  noResponse : c.future.outcome = some .noResponse → c.state = .hangUp
  reloading : ∀ w, c.future = .reloading w → c.woken = true ∨ c.waker = some w
  parked : ∀ w, c.future = .parked w → c.woken = true ∨ c.waker = some w ∧
    (c.state = .pending ∨ c.callback = .waking ∨ c.callback = .hangUpWaking)

variable {c c' : Call R}

/-- The callback does not care what the future does, unless it takes the result away. -/
theorem CallbackOk.frame (h : c.CallbackOk) (hcallback : c'.callback = c.callback)
    (hstate : c'.state = c.state) (hgiven : c'.given = c.given)
    (hresult : c.state = .pending → c'.result = c.result)
    (hremoved : c.removed = true → c'.removed = true) : c'.CallbackOk where
  unsettled hpc := hstate.trans (h.unsettled (hcallback ▸ hpc))
  held hpc := hgiven.trans (h.held (hcallback ▸ hpc))
  getting r hpc := hgiven.trans (h.getting r (hcallback ▸ hpc))
  writing r hpc := hgiven.trans (h.writing r (hcallback ▸ hpc))
  stillWriting r hpc := hgiven.trans (h.stillWriting r (hcallback ▸ hpc))
  storing hpc := by
    rw [hcallback] at hpc
    rw [hgiven, hresult (h.unsettled (by rw [hpc]; rfl))]
    exact h.storing hpc
  waking hpc := hstate.trans (h.waking (hcallback ▸ hpc))
  dropGetting hpc hpending := by
    rw [hgiven]
    exact (h.dropGetting (hcallback ▸ hpc) (hstate ▸ hpending)).imp_right hremoved
  hangingUp hpc hpending := hgiven.trans (h.hangingUp (hcallback ▸ hpc) (hstate ▸ hpending))
  hangUp hstate' := by
    rw [hgiven, hcallback]
    exact h.hangUp (hstate ▸ hstate')

/-- A callback without a result is dropped. -/
theorem CallbackOk.dropUnanswered (h : c.CallbackOk) (hheld : c.callback = .held) (future : FuturePc R) :
    CallbackOk { c with future, callback := .dropGetting } := by
  have hgiven := h.held hheld
  have hpending := h.unsettled (by rw [hheld]; rfl)
  constructor <;> simp [CallbackPc.isUnsettled, hgiven, hpending]

theorem CallbackOk.futureStep (h : c.CallbackOk) (hf : c.FutureOk) {receiverExists : Bool}
    (hstep : c.futureStep receiverExists = some c') : c'.CallbackOk := by
  cases hpc : c.future with
  | sending waker =>
    simp only [Call.futureStep, hpc] at hstep
    split at hstep <;> cases hstep
    · exact h.frame rfl rfl rfl (fun _ => rfl) id
    · exact h.dropUnanswered (hf.sending (by simp [isSent, hpc])) _
  | closing =>
    simp only [Call.futureStep, hpc] at hstep
    split at hstep <;> cases hstep
    exact h.frame rfl rfl rfl (fun _ => rfl) fun _ => rfl
  | getting waker | loading waker | reloading waker =>
    simp only [Call.futureStep, hpc] at hstep
    split at hstep <;> cases hstep <;> exact h.frame rfl rfl rfl (fun _ => rfl) id
  | registering waker =>
    simp only [Call.futureStep, hpc, Option.some.injEq] at hstep
    exact hstep ▸ h.frame rfl rfl rfl (fun _ => rfl) id
  | taking =>
    have hready := hf.taking hpc
    simp only [Call.futureStep, hpc] at hstep
    split at hstep <;> cases hstep
    · exact h.frame rfl rfl rfl (fun hpending => by simp [hready] at hpending) id
    · exact h.frame rfl rfl rfl (fun _ => rfl) id
  | dropping outcome =>
    simp only [Call.futureStep, hpc, Option.some.injEq] at hstep
    exact hstep ▸ h.frame rfl rfl rfl (fun _ => rfl) fun _ => rfl
  | parked waker | finished outcome => simp [Call.futureStep, hpc] at hstep

/-- The future goes on within a poll; only what the new place needs has to be shown. -/
theorem FutureOk.goto (h : c.FutureOk) (hremoved : c.removed = false)
    (houtcome : c.future.outcome = none) {pc : FuturePc R} (hsent : ∀ w, pc ≠ .sending w)
    (htaking : pc = .taking → c.state = .ready)
    (hok : ∀ r, pc.outcome ≠ some (.ok r))
    (hnoResponse : pc.outcome = some .noResponse → c.state = .hangUp)
    (hreloading : ∀ w, pc ≠ .reloading w)
    (hparked : ∀ w, pc = .parked w → (c.woken = true ∨ c.waker = some w) ∧ c.state = .pending) :
    FutureOk { c with future := pc } where
  sending hpc := by
    unfold isSent at hpc
    split at hpc
    · next w heq => exact absurd heq (hsent w)
    · cases hpc
  removed hr := absurd hr (by simp [hremoved])
  ready hstate := by
    obtain ⟨r, hgiven, hresult⟩ := h.ready hstate
    exact ⟨r, hgiven, .inl (hresult.resolve_right (by simp [houtcome]))⟩
  taking := htaking
  ok r hr := absurd hr (hok r)
  taken r hr := absurd hr (hok r)
  noResponse := hnoResponse
  reloading w hpc := absurd hpc (hreloading w)
  parked w hpc := by
    obtain ⟨hwaker, hstate⟩ := hparked w hpc
    exact hwaker.imp_right fun hsome => ⟨hsome, .inl hstate⟩

theorem FutureOk.not_removed (h : c.FutureOk) (hpc : ∀ outcome, c.future ≠ .finished outcome) :
    c.removed = false := by
  rw [← Bool.not_eq_true]
  intro hremoved
  obtain ⟨outcome, heq⟩ := h.removed hremoved
  exact hpc outcome heq

/-- The result is in its cell when it is taken. -/
theorem FutureOk.written_of_taking (h : c.FutureOk) (hpc : c.future = .taking) :
    ∃ r, c.given = some r ∧ c.result = .written r := by
  obtain ⟨r, hgiven, hresult⟩ := h.ready (h.taking hpc)
  exact ⟨r, hgiven, hresult.resolve_right (by simp [hpc, FuturePc.outcome])⟩

/-- The slot is removed at the end. -/
theorem FutureOk.remove (h : c.FutureOk) {outcome : Option (Outcome R)}
    (houtcome : c.future.outcome = outcome) :
    FutureOk { c with removed := true, future := .finished outcome } where
  sending hpc := by simp [isSent] at hpc
  removed _ := ⟨outcome, rfl⟩
  ready hstate := by
    obtain ⟨r, hgiven, hresult⟩ := h.ready hstate
    exact ⟨r, hgiven, houtcome ▸ hresult⟩
  taking hpc := by cases hpc
  ok r hr := h.ok r (houtcome.trans hr)
  taken r hr := h.taken r (houtcome.trans hr)
  noResponse hr := h.noResponse (houtcome.trans hr)
  reloading w hpc := by cases hpc
  parked w hpc := by cases hpc

theorem FutureOk.futureStep (h : c.FutureOk) {receiverExists : Bool}
    (hstep : c.futureStep receiverExists = some c') : c'.FutureOk := by
  cases hpc : c.future with
  | sending waker =>
    have hremoved := h.not_removed (by simp [hpc])
    have houtcome : c.future.outcome = none := by rw [hpc]; rfl
    simp only [Call.futureStep, hpc] at hstep
    split at hstep <;> cases hstep
    · apply h.goto hremoved houtcome <;> simp [FuturePc.outcome]
    · have hclosing : FutureOk { c with future := .closing } := by
        apply h.goto hremoved houtcome <;> simp [FuturePc.outcome]
      exact { hclosing with
        sending := fun hsent => by simp [isSent] at hsent
        parked := fun w hparked => by cases hparked }
  | closing =>
    simp only [Call.futureStep, hpc] at hstep
    split at hstep <;> cases hstep
    exact {
      sending := fun hsent => by simp [isSent] at hsent
      removed := fun _ => ⟨_, rfl⟩
      ready := fun hstate => by
        obtain ⟨r, hgiven, hresult⟩ := h.ready hstate
        exact ⟨r, hgiven, .inl (hresult.resolve_right (by simp [hpc, FuturePc.outcome]))⟩
      taking := fun htaking => by cases htaking
      ok := fun r hr => by simp [FuturePc.outcome] at hr
      taken := fun r hr => by simp [FuturePc.outcome] at hr
      noResponse := fun hr => by simp [FuturePc.outcome] at hr
      reloading := fun w hreloading => by cases hreloading
      parked := fun w hparked => by cases hparked }
  | getting waker =>
    have hremoved := h.not_removed (by simp [hpc])
    have houtcome : c.future.outcome = none := by rw [hpc]; rfl
    simp only [Call.futureStep, hpc] at hstep
    rw [if_neg (by simp [hremoved])] at hstep
    cases hstep
    apply h.goto hremoved houtcome <;> simp [FuturePc.outcome]
  | loading waker =>
    have hremoved := h.not_removed (by simp [hpc])
    have houtcome : c.future.outcome = none := by rw [hpc]; rfl
    simp only [Call.futureStep, hpc] at hstep
    split at hstep <;> cases hstep <;> apply h.goto hremoved houtcome <;>
      simp [FuturePc.outcome, *]
  | registering waker =>
    have hremoved := h.not_removed (by simp [hpc])
    simp only [Call.futureStep, hpc, Option.some.injEq] at hstep
    subst hstep
    exact {
      sending := fun hsent => by simp [isSent] at hsent
      removed := fun hr => absurd hr (by simp [hremoved])
      ready := fun hstate => by
        obtain ⟨r, hgiven, hresult⟩ := h.ready hstate
        exact ⟨r, hgiven, .inl (hresult.resolve_right (by simp [hpc, FuturePc.outcome]))⟩
      taking := fun htaking => by cases htaking
      ok := fun r hr => by simp [FuturePc.outcome] at hr
      taken := fun r hr => by simp [FuturePc.outcome] at hr
      noResponse := fun hr => by simp [FuturePc.outcome] at hr
      reloading := fun w hreloading => .inr (congrArg some (FuturePc.reloading.inj hreloading))
      parked := fun w hparked => by cases hparked }
  | reloading waker =>
    have hremoved := h.not_removed (by simp [hpc])
    have houtcome : c.future.outcome = none := by rw [hpc]; rfl
    have hwaker := h.reloading waker hpc
    simp only [Call.futureStep, hpc] at hstep
    split at hstep <;> cases hstep <;> apply h.goto hremoved houtcome <;>
      simp [FuturePc.outcome, *]
  | taking =>
    obtain ⟨r, hgiven, hresult⟩ := h.written_of_taking hpc
    have hremoved := h.not_removed (by simp [hpc])
    simp only [Call.futureStep, hpc, hresult, Option.some.injEq] at hstep
    subst hstep
    exact {
      sending := fun hsent => by simp [isSent] at hsent
      removed := fun hr => absurd hr (by simp [hremoved])
      ready := fun _ => ⟨r, hgiven, .inr rfl⟩
      taking := fun htaking => by cases htaking
      ok := fun r' hr => by
        simp only [FuturePc.outcome, Option.some.injEq, Outcome.ok.injEq] at hr
        exact hr ▸ hgiven
      taken := fun _ _ => ⟨h.taking hpc, rfl⟩
      noResponse := fun hr => by simp [FuturePc.outcome] at hr
      reloading := fun w hreloading => by cases hreloading
      parked := fun w hparked => by cases hparked }
  | dropping outcome =>
    simp only [Call.futureStep, hpc, Option.some.injEq] at hstep
    exact hstep ▸ h.remove (by rw [hpc]; rfl)
  | parked waker | finished outcome => simp [Call.futureStep, hpc] at hstep

/-! ### The callback -/

/-- The future does not care what the callback does, as long as it keeps these promises. -/
theorem FutureOk.frame (h : c.FutureOk) (hcallback : c.callback ≠ .held)
    (hfuture : c'.future = c.future) (hremoved : c'.removed = c.removed)
    (hgiven : c'.given = c.given)
    (hready : c'.state = .ready → ∃ r, c'.given = some r ∧
      (c'.result = .written r ∨ c.future.outcome = some (.ok r)))
    (hstate : c.state ≠ .pending → c'.state = c.state ∧ c'.result = c.result)
    (hwaker : ∀ w, c.woken = true ∨ c.waker = some w → c'.woken = true ∨ c'.waker = some w)
    (hparked : ∀ w, c.woken = true ∨ c.waker = some w ∧
        (c.state = .pending ∨ c.callback = .waking ∨ c.callback = .hangUpWaking) →
      c'.woken = true ∨ c'.waker = some w ∧
        (c'.state = .pending ∨ c'.callback = .waking ∨ c'.callback = .hangUpWaking)) :
    c'.FutureOk where
  sending hsent := by
    have hsent' : c.isSent = false := by simpa only [isSent, hfuture] using hsent
    exact absurd (h.sending hsent') hcallback
  removed hr := hfuture ▸ h.removed (hremoved ▸ hr)
  ready hs := hfuture ▸ hready hs
  taking hpc := by
    have hs := h.taking (hfuture ▸ hpc)
    rw [(hstate (by simp [hs])).1, hs]
  ok r hr := hgiven.trans (h.ok r (hfuture ▸ hr))
  taken r hr := by
    obtain ⟨hs, hempty⟩ := h.taken r (hfuture ▸ hr)
    obtain ⟨hs', hresult⟩ := hstate (by simp [hs])
    exact ⟨hs'.trans hs, hresult.trans hempty⟩
  noResponse hr := by
    have hs := h.noResponse (hfuture ▸ hr)
    rw [(hstate (by simp [hs])).1, hs]
  reloading w hpc := hwaker w (h.reloading w (hfuture ▸ hpc))
  parked w hpc := hparked w (h.parked w (hfuture ▸ hpc))

/-- The callback moves on without touching the slot, and not away from a `wake` it owes. -/
theorem FutureOk.move (h : c.FutureOk) (hcallback : c.callback ≠ .held)
    (hwaking : c.callback ≠ .waking) (hhangUp : c.callback ≠ .hangUpWaking)
    (callback : CallbackPc R) : FutureOk { c with callback } := by
  refine h.frame hcallback rfl rfl rfl h.ready (fun _ => ⟨rfl, rfl⟩) (fun _ => id) fun w hw => ?_
  exact hw.imp_right fun ⟨hsome, hstate⟩ => ⟨hsome, .inl (hstate.resolve_right (by simp [*]))⟩

/-- The callback wakes. -/
theorem FutureOk.wake (h : c.FutureOk) (hcallback : c.callback ≠ .held) (callback : CallbackPc R) :
    FutureOk { c.wake with callback } := by
  have hwoken : ∀ w, c.woken = true ∨ c.waker = some w → c.wake.woken = true := by
    intro w hw
    unfold Call.wake
    split
    · next hnone => exact hw.resolve_right (by simp [hnone])
    · rfl
  have hframe : c.wake.future = c.future ∧ c.wake.removed = c.removed ∧ c.wake.given = c.given ∧
      c.wake.state = c.state ∧ c.wake.result = c.result := by
    unfold Call.wake
    split <;> exact ⟨rfl, rfl, rfl, rfl, rfl⟩
  obtain ⟨hfuture, hremoved, hgiven, hstate, hresult⟩ := hframe
  refine h.frame hcallback hfuture hremoved hgiven ?_ (fun _ => ⟨hstate, hresult⟩)
    (fun w hw => .inl (hwoken w hw)) fun w hw => .inl (hwoken w (hw.imp_right And.left))
  simp only [hstate, hgiven, hresult]
  exact h.ready

theorem FutureOk.callbackStep (h : c.FutureOk) (hc : c.CallbackOk)
    (hstep : c.callbackStep = some c') : c'.FutureOk := by
  cases hpc : c.callback with
  | held | dropped => simp [Call.callbackStep, hpc] at hstep
  | getting r | dropGetting =>
    simp only [Call.callbackStep, hpc] at hstep
    split at hstep <;> cases hstep <;> apply h.move <;> simp [hpc]
  | writing r | stillWriting r =>
    have hpending := hc.unsettled (by rw [hpc]; rfl)
    simp only [Call.callbackStep, hpc, Option.some.injEq] at hstep
    subst hstep
    refine h.frame (by simp [hpc]) rfl rfl rfl ?_ ?_ (fun _ => id) fun w hw => ?_
    · intro hready
      simp [hpending] at hready
    · exact fun hne => absurd hpending hne
    · exact hw.imp_right fun ⟨hsome, _⟩ => ⟨hsome, .inl hpending⟩
  | storing =>
    obtain ⟨r, hgiven, hresult⟩ := hc.storing hpc
    have hpending := hc.unsettled (by rw [hpc]; rfl)
    simp only [Call.callbackStep, hpc, Option.some.injEq] at hstep
    subst hstep
    refine h.frame (by simp [hpc]) rfl rfl rfl (fun _ => ⟨r, hgiven, .inl hresult⟩) ?_ (fun _ => id)
      fun w hw => ?_
    · exact fun hne => absurd hpending hne
    · exact hw.imp_right fun ⟨hsome, _⟩ => ⟨hsome, .inr (.inl rfl)⟩
  | waking | hangUpWaking =>
    simp only [Call.callbackStep, hpc, Option.some.injEq] at hstep
    exact hstep ▸ h.wake (by simp [hpc]) _
  | hangingUp =>
    simp only [Call.callbackStep, hpc] at hstep
    split at hstep
    · next hpending =>
      cases hstep
      refine h.frame (by simp [hpc]) rfl rfl rfl (fun hready => by cases hready) ?_ (fun _ => id)
        fun w hw => ?_
      · exact fun hne => absurd hpending hne
      · exact hw.imp_right fun ⟨hsome, _⟩ => ⟨hsome, .inr (.inr rfl)⟩
    · cases hstep
      apply h.move <;> simp [hpc]

theorem CallbackOk.callbackStep (h : c.CallbackOk) (hstep : c.callbackStep = some c') :
    c'.CallbackOk := by
  -- the state can only be left by the callback itself
  have hhangUp : c.callback ≠ .hangUpWaking → c.callback ≠ .dropped → c.state ≠ .hangUp :=
    fun hne hne' hstate => (h.hangUp hstate).2.elim hne hne'
  cases hpc : c.callback with
  | held | dropped => simp [Call.callbackStep, hpc] at hstep
  | getting r =>
    have hgiven := h.getting r hpc
    have hpending := h.unsettled (by rw [hpc]; rfl)
    simp only [Call.callbackStep, hpc] at hstep
    split at hstep <;> cases hstep <;> constructor <;> simp [CallbackPc.isUnsettled, *]
  | writing r =>
    have hgiven := h.writing r hpc
    have hpending := h.unsettled (by rw [hpc]; rfl)
    simp only [Call.callbackStep, hpc, Option.some.injEq] at hstep
    subst hstep
    constructor <;> simp [hgiven, hpending]
  | stillWriting r =>
    have hgiven := h.stillWriting r hpc
    have hpending := h.unsettled (by rw [hpc]; rfl)
    simp only [Call.callbackStep, hpc, Option.some.injEq] at hstep
    subst hstep
    constructor <;> simp [hgiven, hpending]
  | storing =>
    simp only [Call.callbackStep, hpc, Option.some.injEq] at hstep
    subst hstep
    constructor <;> simp [CallbackPc.isUnsettled]
  | waking =>
    have hready : c.wake.state = .ready := by
      unfold wake
      split <;> exact h.waking hpc
    simp only [Call.callbackStep, hpc, Option.some.injEq] at hstep
    subst hstep
    constructor <;> simp [CallbackPc.isUnsettled, hready]
  | dropGetting =>
    have hnever := hhangUp (by simp [hpc]) (by simp [hpc])
    have hgiven := h.dropGetting hpc
    simp only [Call.callbackStep, hpc] at hstep
    split at hstep <;> cases hstep
    · constructor <;> simp [CallbackPc.isUnsettled, hnever]
    · next hkept =>
      constructor <;> simp [CallbackPc.isUnsettled, hnever]
      exact fun hpending => (hgiven hpending).resolve_right hkept
  | hangingUp =>
    have hnever := hhangUp (by simp [hpc]) (by simp [hpc])
    have hgiven := h.hangingUp hpc
    simp only [Call.callbackStep, hpc] at hstep
    split at hstep
    · next hpending =>
      cases hstep
      constructor <;> simp [CallbackPc.isUnsettled, hgiven hpending]
    · cases hstep
      constructor <;> simp [CallbackPc.isUnsettled, hnever]
  | hangUpWaking =>
    have hframe : c.wake.state = c.state ∧ c.wake.given = c.given := by
      unfold wake
      split <;> exact ⟨rfl, rfl⟩
    simp only [Call.callbackStep, hpc, Option.some.injEq] at hstep
    subst hstep
    constructor <;> simp [CallbackPc.isUnsettled, hframe]
    exact fun hstate => (h.hangUp hstate).1

/-- The invariant of a call. -/
structure Inv (c : Call R) : Prop where
  callback : c.CallbackOk
  future : c.FutureOk

theorem inv_new (waker : Nat) : (new waker : Call R).Inv := by
  refine ⟨?_, ?_⟩ <;> constructor <;> simp [new, CallbackPc.isUnsettled, FuturePc.outcome, isSent]

theorem CallbackPc.eq_held {pc : CallbackPc R} (h : pc.isHeld = true) : pc = .held := by
  cases pc <;> first | rfl | cases h

/-- The server answers. -/
theorem Inv.onResult (h : c.Inv) (hheld : c.callback = .held) (hsent : c.isSent = true) (result : R) :
    Inv { c with callback := .getting result, given := some result } := by
  have hgiven := h.callback.held hheld
  have hpending := h.callback.unsettled (by rw [hheld]; rfl)
  have hok : ∀ r, c.future.outcome ≠ some (.ok r) := fun r hr => by
    simpa [hgiven] using h.future.ok r hr
  have hnoResponse : c.future.outcome ≠ some .noResponse := fun hr => by
    simpa [hpending] using h.future.noResponse hr
  refine ⟨by constructor <;> simp [hpending], ?_⟩
  exact {
    sending := fun hunsent => absurd hsent (by simpa [isSent] using hunsent)
    removed := h.future.removed
    ready := fun hstate => by simp [hpending] at hstate
    taking := h.future.taking
    ok := fun r hr => absurd hr (hok r)
    taken := fun r hr => absurd hr (hok r)
    noResponse := fun hr => absurd hr hnoResponse
    reloading := h.future.reloading
    parked := fun w hpc => (h.future.parked w hpc).imp_right fun ⟨hsome, _⟩ =>
      ⟨hsome, .inl hpending⟩ }

/-- The callback is dropped without an answer. -/
theorem Inv.dropCallback (h : c.Inv) (hheld : c.callback = .held) (hsent : c.isSent = true) :
    Inv { c with callback := .dropGetting } := by
  have hpending := h.callback.unsettled (by rw [hheld]; rfl)
  refine ⟨h.callback.dropUnanswered hheld c.future, ?_⟩
  exact { h.future with
    sending := fun hunsent => absurd hsent (by simpa [isSent] using hunsent)
    parked := fun w hpc => (h.future.parked w hpc).imp_right fun ⟨hsome, _⟩ =>
      ⟨hsome, .inl hpending⟩ }

theorem Inv.exec (h : c.Inv) {receiverExists : Bool} {action : Action R}
    (hstep : c.exec receiverExists action = some c') : c'.Inv := by
  cases action with
  | future => exact ⟨h.callback.futureStep h.future hstep, h.future.futureStep hstep⟩
  | callback => exact ⟨h.callback.callbackStep hstep, h.future.callbackStep h.callback hstep⟩
  | poll waker | cancel =>
    simp only [Call.exec] at hstep
    split at hstep
    · next w hpc =>
      cases hstep
      refine ⟨h.callback.frame rfl rfl rfl (fun _ => rfl) id, ?_⟩
      have hremoved := h.future.not_removed (by simp [hpc])
      have houtcome : c.future.outcome = none := by rw [hpc]; rfl
      apply h.future.goto hremoved houtcome <;> simp [FuturePc.outcome]
    · cases hstep
  | onResult result =>
    simp only [Call.exec, Option.ite_none_right_eq_some, Bool.and_eq_true, Option.some.injEq] at hstep
    obtain ⟨⟨hheld, hsent⟩, rfl⟩ := hstep
    exact h.onResult (CallbackPc.eq_held hheld) hsent result
  | dropCallback =>
    simp only [Call.exec, Option.ite_none_right_eq_some, Bool.and_eq_true, Option.some.injEq] at hstep
    obtain ⟨⟨hheld, hsent⟩, rfl⟩ := hstep
    exact h.dropCallback (CallbackPc.eq_held hheld) hsent

end Call

/-- What the runs reach. -/
def Remote.Reachable : Remote R → Prop := Run.Reachable (· = Remote.new) anyStep Remote.exec

/-- Every call of every run satisfies its invariant. -/
theorem Remote.calls_inv {s : Remote R} (h : s.Reachable) :
    ∀ key c, s.calls.get key = some c → c.Inv := by
  unfold Remote.Reachable at h
  induction h with
  | init heq =>
    subst heq
    intro key c hget
    simp [Remote.new, Slots.get, Slots.empty] at hget
  | @step s s' op _ _ hexec ih =>
    intro key c hget
    cases op with
    | send waker =>
      simp only [Remote.exec, Option.some.injEq] at hexec
      subst hexec
      rw [Slots.get_push] at hget
      split at hget
      · exact Option.some.inj hget ▸ Call.inv_new waker
      · exact ih key c hget
    | dropReceiver =>
      simp only [Remote.exec, Option.some.injEq] at hexec
      subst hexec
      exact ih key c hget
    | act key' action =>
      simp only [Remote.exec, Option.bind_eq_bind, Option.bind_eq_some_iff, Option.some.injEq] at hexec
      obtain ⟨c₁, hget₁, c₂, hstep, rfl⟩ := hexec
      simp only at hget
      rw [Slots.get_set (by simp [hget₁])] at hget
      split at hget
      · exact Option.some.inj hget ▸ (ih key' c₁ hget₁).exec hstep
      · exact ih key c hget

/-- **Each response is delivered once, and no wake-up is lost.** For every call of every run: an `Ok`
carries the result that was given to the call's own callback, and leaves the cell empty; the cell is
read only when the write is complete; `NoResponse` means that the callback was dropped without a result;
and a future that is parked although its state is settled has been woken, or is about to be woken by the
callback. -/
theorem response_delivered {s : Remote R} (h : s.Reachable) {key : Nat} {c : Call R}
    (hget : s.calls.get key = some c) :
    (∀ r, c.future.outcome = some (.ok r) → c.given = some r ∧ c.result = .empty) ∧
    (c.future = .taking → ∃ r, c.result = .written r ∧ c.given = some r) ∧
    (c.future.outcome = some .noResponse →
      c.given = none ∧ (c.callback = .hangUpWaking ∨ c.callback = .dropped)) ∧
    ∀ w, c.future = .parked w → c.state ≠ .pending →
      c.woken = true ∨ c.waker = some w ∧ (c.callback = .waking ∨ c.callback = .hangUpWaking) := by
  obtain ⟨hcallback, hfuture⟩ := Remote.calls_inv h key c hget
  refine ⟨fun r hr => ⟨hfuture.ok r hr, (hfuture.taken r hr).2⟩, fun htaking => ?_, fun hnone => ?_,
    fun w hparked hsettled => ?_⟩
  · obtain ⟨r, hgiven, hresult⟩ := hfuture.written_of_taking htaking
    exact ⟨r, hresult, hgiven⟩
  · exact hcallback.hangUp (hfuture.noResponse hnone)
  · exact (hfuture.parked w hparked).imp_right fun ⟨hsome, hstate⟩ =>
      ⟨hsome, hstate.resolve_left hsettled⟩

/-- A call is parked, answered, woken and polled again. -/
theorem response_delivered_after_wake : ∃ (s : Remote Nat) (c : Call Nat), s.Reachable ∧
    s.calls.get 0 = some c ∧ c.future.outcome = some (.ok 7) ∧ c.given = some 7 ∧
    c.result = .empty := by
  have hrun : ∃ s : Remote Nat, s.Reachable ∧
      decide ((s.calls.get 0).any (·.future.outcome = some (.ok 7)) = true) = true :=
    exists_reachable (some Remote.new) (fun _ h => (Option.some.inj h).symm)
      ([.send 0, .act 0 .future, .act 0 .future, .act 0 .future, .act 0 .future, .act 0 .future,
        .act 0 (.onResult 7), .act 0 .callback, .act 0 .callback, .act 0 .callback, .act 0 .callback,
        .act 0 .callback, .act 0 (.poll 1), .act 0 .future, .act 0 .future, .act 0 .future])
      (by decide +kernel)
  obtain ⟨s, hs, hp⟩ := hrun
  obtain ⟨c, hget, houtcome⟩ := (Option.any_eq_true ..).mp (of_decide_eq_true hp)
  have houtcome := of_decide_eq_true houtcome
  exact ⟨s, c, hs, hget, houtcome, (response_delivered hs hget).1 7 houtcome⟩

end Aquic.Sync.Rpc.Mt
