import Aquic.Lib.Collections
import Aquic.Lib.Run

/-!
# The single-threaded remote procedure call

`sync/mpsc/rpc/st.rs`. The callers, their callbacks and their futures share a map from calls to the
states of their responses, in a `RefCell`. `Remote::send` borrows the map exclusively, inserts the
state of its call, sends the call to the server and awaits the response:

    let mut storage = self.storage.borrow_mut();
    let key = storage.insert(State::Pending(None));
    ...
    ResponseFuture { storage: self.storage.clone(), key }.await

The guard `storage` is dropped at the end of the function, after the response, but the future borrows
the map whenever it is polled. `Remote.borrowed` says that a guard is alive; a borrow that fails panics,
a destructor whose `try_borrow_mut` fails does nothing.

A panic unwinds the call that is polled: its future is dropped, and then its guard. The other tasks
and the server go on.
-/

namespace Aquic.Sync.Rpc.St

open Collections
open Run

variable {T R : Type}

/-- The state of a response. -/
inductive State (R : Type) where
  | pending (waker : Option Nat)
  | ready (result : R)
  | hangUp
  deriving DecidableEq, Repr

/-- How a call of `send` ends. -/
inductive Outcome (R : Type) where
  | ok (result : R)
  /-- `SendError::Closed`. -/
  | closed
  /-- `SendError::NoResponse`. -/
  | noResponse
  | panicked
  deriving DecidableEq, Repr

/-- What a poll of `ResponseFuture` returns. -/
inductive Polled (R : Type) where
  | pending
  | ready (outcome : Outcome R)
  | panicked
  deriving DecidableEq, Repr

/-- The shared map, and all who share it. -/
structure Remote (T R : Type) where
  storage : Slots (State R)
  /-- An exclusive guard of the `RefCell` is alive. -/
  borrowed : Bool
  receiverExists : Bool
  /-- The calls that were sent and not received: the arguments, and the key of the callback. -/
  queue : List (T × Option Nat)
  /-- The callbacks the server holds. -/
  callbacks : Slots Nat
  /-- The calls of `send` that are suspended. -/
  suspended : Slots Nat
  /-- History: how the calls of `send` have ended. -/
  outcomes : List (Outcome R)
  /-- History: the wakers that were woken. -/
  woken : List Nat
  /-- History: the number of borrow conflicts. -/
  panics : Nat
  deriving DecidableEq, Repr

def Remote.new : Remote T R where
  storage := .empty
  borrowed := false
  receiverExists := true
  queue := []
  callbacks := .empty
  suspended := .empty
  outcomes := []
  woken := []
  panics := 0

namespace Remote

/-! ## The callback -/

/-- A pending response gets its final state. -/
def settle (s : Remote T R) (key : Nat) (state : State R) : Remote T R :=
  match s.storage.get key with
  | some (.pending waker) =>
    { s with storage := s.storage.set key state, woken := s.woken ++ waker.toList }
  | _ => s

/-- `Callback::drop`. -/
def dropCallback (s : Remote T R) (key : Nat) : Remote T R :=
  if s.borrowed then s else s.settle key .hangUp

/-- `Callback::on_result`; the callback is dropped at its end. -/
def onResult (s : Remote T R) (key : Nat) (result : R) : Remote T R :=
  if s.borrowed then
    { s with panics := s.panics + 1 }.dropCallback key
  else
    (s.settle key (.ready result)).dropCallback key

/-! ## The future -/

/-- `ResponseFuture::poll`. -/
def pollResponse (s : Remote T R) (key waker : Nat) : Remote T R × Polled R :=
  if s.borrowed then
    (s, .panicked)
  else
    match s.storage.get key with
    | none => (s, .ready .noResponse)
    | some (.pending _) =>
      ({ s with storage := s.storage.set key (.pending (some waker)) }, .pending)
    | some (.ready result) => ({ s with storage := s.storage.remove key }, .ready (.ok result))
    | some .hangUp => (s, .ready .noResponse)

/-- `ResponseFuture::drop`. -/
def dropResponse (s : Remote T R) (key : Nat) : Remote T R :=
  if s.borrowed then s else { s with storage := s.storage.remove key }

/-- The call of `send` ends: its future is dropped, then its guard. -/
def leave (s : Remote T R) (key : Nat) : Remote T R := { s.dropResponse key with borrowed := false }

def finish (s : Remote T R) (outcome : Outcome R) : Remote T R :=
  { s with outcomes := s.outcomes ++ [outcome] }

/-- The rest of `send`, from the poll of the future to the next suspension: whether it has ended. -/
def await (s : Remote T R) (key waker : Nat) : Remote T R × Bool :=
  match s.pollResponse key waker with
  | (s, .pending) => (s, false)
  | (s, .ready outcome) => ((s.leave key).finish outcome, true)
  | (s, .panicked) => (({ s with panics := s.panics + 1 }.leave key).finish .panicked, true)

/-! ## The caller -/

/-- `Remote::send`, up to its first suspension. -/
def send (s : Remote T R) (args : T) (waker : Nat) : Remote T R :=
  if s.borrowed then
    { s with panics := s.panics + 1 }.finish .panicked
  else
    let (storage, key) := s.storage.push (.pending none)
    let s := { s with storage, borrowed := true }
    if s.receiverExists then
      match { s with queue := s.queue ++ [(args, some key)] }.await key waker with
      | (s, true) => s
      | (s, false) => { s with suspended := (s.suspended.push key).1 }
    else
      -- the callback that comes back is dropped under the guard
      let s := s.dropCallback key
      { s with storage := s.storage.remove key, borrowed := false }.finish .closed

/-- A suspended call is polled. -/
def poll (s : Remote T R) (call key waker : Nat) : Remote T R :=
  match s.await key waker with
  | (s, true) => { s with suspended := s.suspended.remove call }
  | (s, false) => s

/-- A suspended call is dropped. -/
def cancel (s : Remote T R) (call key : Nat) : Remote T R :=
  { s.leave key with suspended := s.suspended.remove call }

/-- `Remote::send_and_forget`. -/
def sendAndForget (s : Remote T R) (args : T) : Remote T R :=
  if s.receiverExists then { s with queue := s.queue ++ [(args, none)] } else s

/-! ## The server -/

/-- The server takes the next call. -/
def take (s : Remote T R) : Remote T R :=
  match s.queue with
  | [] => s
  | (_, none) :: rest => { s with queue := rest }
  | (_, some key) :: rest => { s with queue := rest, callbacks := (s.callbacks.push key).1 }

/-- The receiver is dropped, and all calls with it that were not received. -/
def dropReceiver (s : Remote T R) : Remote T R :=
  (s.queue.filterMap Prod.snd).foldl dropCallback { s with queue := [], receiverExists := false }

end Remote

inductive Op (T R : Type) where
  | send (args : T) (waker : Nat)
  | sendAndForget (args : T)
  | poll (call waker : Nat)
  | cancel (call : Nat)
  | take
  | onResult (callback : Nat) (result : R)
  | dropCallback (callback : Nat)
  | dropReceiver
  deriving DecidableEq, Repr

/-- This is a call of `send`. -/
def Op.isSend : Op T R → Bool
  | .send .. => true
  | _ => false

namespace Remote

def exec (s : Remote T R) : Op T R → Option (Remote T R)
  | .send args waker => some (s.send args waker)
  | .sendAndForget args => some (s.sendAndForget args)
  | .poll call waker => do
    let key ← s.suspended.get call
    some (s.poll call key waker)
  | .cancel call => do
    let key ← s.suspended.get call
    some (s.cancel call key)
  | .take => if s.receiverExists then some s.take else none
  | .onResult callback result => do
    let key ← s.callbacks.get callback
    some ({ s with callbacks := s.callbacks.remove callback }.onResult key result)
  | .dropCallback callback => do
    let key ← s.callbacks.get callback
    some ({ s with callbacks := s.callbacks.remove callback }.dropCallback key)
  | .dropReceiver => if s.receiverExists then some s.dropReceiver else none

/-! ## What becomes of a call -/

/-- Between two steps no guard is alive, and no call is suspended. -/
structure Unguarded (s : Remote T R) : Prop where
  borrowed : s.borrowed = false
  suspended : s.suspended = .empty

variable {s s' : Remote T R}

/-- **An open channel makes `send` panic.** It polls its future under its own guard; the unwinding
destructor finds the guard as well, so that the slot stays. -/
theorem send_of_exists (h : s.borrowed = false) (hexists : s.receiverExists = true) (args : T)
    (waker : Nat) : s.send args waker = { s with
      storage := (s.storage.push (.pending none)).1
      queue := s.queue ++ [(args, some (s.storage.push (State.pending (R := R) none)).2)]
      outcomes := s.outcomes ++ [.panicked]
      panics := s.panics + 1 } := by
  simp [send, h, hexists, await, pollResponse, leave, dropResponse, finish]

/-- Without a receiver nothing is left behind. -/
theorem send_of_gone (h : s.borrowed = false) (hgone : s.receiverExists = false) (args : T)
    (waker : Nat) : s.send args waker = { s with
      storage := (s.storage.push (.pending none)).1.remove
        (s.storage.push (State.pending (R := R) none)).2
      outcomes := s.outcomes ++ [.closed] } := by
  simp [send, h, hgone, dropCallback, finish]

/-- What is left alone by everything but `send`: the guards, and what has been counted. -/
structure Frame (s s' : Remote T R) : Prop where
  borrowed : s'.borrowed = s.borrowed
  suspended : s'.suspended = s.suspended
  outcomes : s'.outcomes = s.outcomes
  panics : s'.panics = s.panics

theorem Frame.refl (s : Remote T R) : Frame s s := ⟨rfl, rfl, rfl, rfl⟩

theorem Frame.trans {s₁ s₂ s₃ : Remote T R} (h : Frame s₁ s₂) (h' : Frame s₂ s₃) : Frame s₁ s₃ :=
  ⟨h'.borrowed.trans h.borrowed, h'.suspended.trans h.suspended, h'.outcomes.trans h.outcomes,
    h'.panics.trans h.panics⟩

theorem frame_settle (s : Remote T R) (key : Nat) (state : State R) :
    Frame s (s.settle key state) := by
  unfold settle
  split <;> exact ⟨rfl, rfl, rfl, rfl⟩

theorem frame_dropCallback (s : Remote T R) (key : Nat) : Frame s (s.dropCallback key) := by
  unfold dropCallback
  split
  · exact .refl s
  · exact frame_settle ..

theorem frame_onResult (h : s.borrowed = false) (key : Nat) (result : R) :
    Frame s (s.onResult key result) := by
  unfold onResult
  rw [h]
  exact (frame_settle ..).trans (frame_dropCallback ..)

theorem frame_foldl_dropCallback (keys : List Nat) (s : Remote T R) :
    Frame s (keys.foldl dropCallback s) := by
  induction keys generalizing s with
  | nil => exact .refl s
  | cons key keys ih => exact (frame_dropCallback s key).trans (ih _)

/-- Every step but `send` leaves the guards and the counts alone. -/
theorem Unguarded.frame_exec (h : Unguarded s) {op : Op T R} (hop : op.isSend = false)
    (hexec : s.exec op = some s') : Frame s s' := by
  cases op with
  | send args waker => cases hop
  | sendAndForget args =>
    simp only [exec, Option.some.injEq, sendAndForget] at hexec
    split at hexec <;> subst hexec <;> exact ⟨rfl, rfl, rfl, rfl⟩
  | poll call waker | cancel call =>
    -- nobody is suspended
    simp [exec, h.suspended, Slots.get, Slots.empty] at hexec
  | take =>
    simp only [exec, Option.ite_none_right_eq_some, Option.some.injEq] at hexec
    obtain ⟨-, rfl⟩ := hexec
    unfold take
    split <;> exact ⟨rfl, rfl, rfl, rfl⟩
  | onResult callback result =>
    simp only [exec, Option.bind_eq_bind, Option.bind_eq_some_iff, Option.some.injEq] at hexec
    obtain ⟨key, -, rfl⟩ := hexec
    refine Frame.trans ?_ (frame_onResult ?_ key result)
    · exact ⟨rfl, rfl, rfl, rfl⟩
    · exact h.borrowed
  | dropCallback callback =>
    simp only [exec, Option.bind_eq_bind, Option.bind_eq_some_iff, Option.some.injEq] at hexec
    obtain ⟨key, -, rfl⟩ := hexec
    refine Frame.trans ?_ (frame_dropCallback ..)
    exact ⟨rfl, rfl, rfl, rfl⟩
  | dropReceiver =>
    simp only [exec, Option.ite_none_right_eq_some, Option.some.injEq] at hexec
    obtain ⟨-, rfl⟩ := hexec
    refine Frame.trans ?_ (frame_foldl_dropCallback ..)
    exact ⟨rfl, rfl, rfl, rfl⟩

/-- What one step does to the guards and the counts. -/
theorem Unguarded.exec (h : Unguarded s) {op : Op T R} (hexec : s.exec op = some s') :
    Unguarded s' ∧
      (s'.panics ≠ s.panics ↔ op.isSend = true ∧ s.receiverExists = true) ∧
      s'.outcomes = s.outcomes ++
        if op.isSend then [if s.receiverExists then .panicked else .closed] else [] := by
  cases hop : op.isSend with
  | false =>
    have hframe := h.frame_exec hop hexec
    refine ⟨⟨hframe.borrowed.trans h.borrowed, hframe.suspended.trans h.suspended⟩, ?_, ?_⟩
    · simp [hframe.panics]
    · simp [hframe.outcomes]
  | true =>
    cases op with
    | send args waker =>
      simp only [Remote.exec, Option.some.injEq] at hexec
      subst hexec
      cases hexists : s.receiverExists with
      | true =>
        rw [send_of_exists h.borrowed hexists]
        exact ⟨⟨h.borrowed, h.suspended⟩, by simp, rfl⟩
      | false =>
        rw [send_of_gone h.borrowed hexists]
        exact ⟨⟨h.borrowed, h.suspended⟩, by simp, rfl⟩
    | _ => cases hop

/-- What the runs reach. -/
def Reachable : Remote T R → Prop := Run.Reachable (· = new) anyStep exec

theorem unguarded (h : Reachable s) : Unguarded s :=
  Run.Reachable.invariant (fun _ heq => heq ▸ ⟨rfl, rfl⟩)
    (fun _ _ _ hinv _ hexec => (hinv.exec hexec).1) h

/-! ## Runs in which nobody calls an open channel -/

/-- The receiver is gone when this step is a call of `send`. -/
def CallsGone (s : Remote T R) (op : Op T R) : Prop := op.isSend = true → s.receiverExists = false

/-- No slot is in use. -/
def Vacant (s : Remote T R) : Prop := ∀ key, s.storage.get key = none

theorem settle_of_vacant (h : s.Vacant) (key : Nat) (state : State R) : s.settle key state = s := by
  simp [settle, h key]

theorem dropCallback_of_vacant (h : s.Vacant) (key : Nat) : s.dropCallback key = s := by
  unfold dropCallback
  split
  · rfl
  · exact settle_of_vacant h key .hangUp

theorem foldl_dropCallback_of_vacant (h : s.Vacant) (keys : List Nat) :
    keys.foldl dropCallback s = s := by
  induction keys with
  | nil => rfl
  | cons key keys ih => rw [List.foldl_cons, dropCallback_of_vacant h, ih]

theorem vacant_exec (h : Unguarded s) (hvacant : s.Vacant) {op : Op T R} (hok : CallsGone s op)
    (hexec : s.exec op = some s') : s'.Vacant := by
  cases op with
  | send args waker =>
    simp only [exec, Option.some.injEq] at hexec
    rw [send_of_gone h.borrowed (hok rfl)] at hexec
    subst hexec
    intro key
    rw [Slots.get_remove, Slots.get_push]
    split
    · rfl
    · exact hvacant key
  | sendAndForget args =>
    simp only [exec, Option.some.injEq, sendAndForget] at hexec
    split at hexec <;> subst hexec <;> exact hvacant
  | poll call waker | cancel call => simp [exec, h.suspended, Slots.get, Slots.empty] at hexec
  | take =>
    simp only [exec, Option.ite_none_right_eq_some, Option.some.injEq] at hexec
    obtain ⟨-, rfl⟩ := hexec
    unfold take
    split <;> exact hvacant
  | onResult callback result =>
    simp only [exec, Option.bind_eq_bind, Option.bind_eq_some_iff, Option.some.injEq] at hexec
    obtain ⟨key, -, rfl⟩ := hexec
    have hvacant' : Vacant { s with callbacks := s.callbacks.remove callback } := hvacant
    unfold onResult
    rw [if_neg (by simp [h.borrowed]), settle_of_vacant hvacant', dropCallback_of_vacant hvacant']
    exact hvacant
  | dropCallback callback =>
    simp only [exec, Option.bind_eq_bind, Option.bind_eq_some_iff, Option.some.injEq] at hexec
    obtain ⟨key, -, rfl⟩ := hexec
    have hvacant' : Vacant { s with callbacks := s.callbacks.remove callback } := hvacant
    rw [dropCallback_of_vacant hvacant']
    exact hvacant
  | dropReceiver =>
    simp only [exec, Option.ite_none_right_eq_some, Option.some.injEq] at hexec
    obtain ⟨-, rfl⟩ := hexec
    have hvacant' : Vacant ({ s with queue := [], receiverExists := false } : Remote T R) := hvacant
    unfold dropReceiver
    rw [foldl_dropCallback_of_vacant hvacant']
    exact hvacant

end Remote

/-- **The single-threaded call works only without a server.** In every run: a step panics if and only
if it is a call of `send` while the receiver exists, and a call of `send` returns at once, with `Closed`
or with a panic. In a run that calls `send` only after the receiver is gone nothing panics, all calls
end with `Closed`, nobody is suspended and no slot is left. -/
theorem send_panics_iff :
    (∀ (s : Remote T R) (op : Op T R) (s' : Remote T R), s.Reachable → s.exec op = some s' →
      (s'.panics ≠ s.panics ↔ op.isSend = true ∧ s.receiverExists = true) ∧
      s'.outcomes = s.outcomes ++
        if op.isSend then [if s.receiverExists then .panicked else .closed] else []) ∧
    ∀ s : Remote T R, Run.Reachable (· = Remote.new) Remote.CallsGone Remote.exec s →
      s.panics = 0 ∧ (∀ outcome ∈ s.outcomes, outcome = .closed) ∧
      (∀ call, s.suspended.get call = none) ∧ ∀ key, s.storage.get key = none := by
  refine ⟨fun s op s' hs hexec => ((Remote.unguarded hs).exec hexec).2, fun s hs => ?_⟩
  have hinv : s.Unguarded ∧ s.Vacant ∧ s.panics = 0 ∧ ∀ outcome ∈ s.outcomes, outcome = .closed := by
    induction hs with
    | init heq =>
      subst heq
      exact ⟨⟨rfl, rfl⟩, fun key => rfl, rfl, fun outcome h => absurd h List.not_mem_nil⟩
    | @step s s' op _ hok hexec ih =>
      obtain ⟨hunguarded, hvacant, hpanics, houtcomes⟩ := ih
      obtain ⟨hunguarded', hpanics', houtcomes'⟩ := hunguarded.exec hexec
      refine ⟨hunguarded', Remote.vacant_exec hunguarded hvacant hok hexec, ?_, ?_⟩
      · by_contra hne
        obtain ⟨hsend, hexists⟩ := hpanics'.mp fun heq => hne (heq.trans hpanics)
        exact absurd (hok hsend) (by simp [hexists])
      · intro outcome hmem
        rw [houtcomes', List.mem_append] at hmem
        rcases hmem with hmem | hmem
        · exact houtcomes outcome hmem
        · split at hmem
          · next hsend => simpa [hok hsend] using hmem
          · exact absurd hmem List.not_mem_nil
  obtain ⟨hunguarded, hvacant, hpanics, houtcomes⟩ := hinv
  refine ⟨hpanics, houtcomes, fun call => ?_, hvacant⟩
  rw [hunguarded.suspended]
  rfl

instance : DecidableRel (Remote.CallsGone (T := T) (R := R)) := fun s op =>
  inferInstanceAs (Decidable (op.isSend = true → s.receiverExists = false))

/-- A call after the receiver is gone. -/
theorem send_after_drop : ∃ s : Remote Nat Nat,
    Run.Reachable (· = Remote.new) Remote.CallsGone Remote.exec s ∧ s.outcomes = [.closed] ∧
    s.panics = 0 ∧ ∀ key, s.storage.get key = none := by
  have hrun : ∃ s : Remote Nat Nat,
      Run.Reachable (· = Remote.new) Remote.CallsGone Remote.exec s ∧
      decide (s.outcomes = [.closed]) = true :=
    exists_reachable (some Remote.new) (fun _ h => (Option.some.inj h).symm)
      [.sendAndForget 1, .take, .dropReceiver, .send 2 0] (by decide +kernel)
  obtain ⟨s, hs, hp⟩ := hrun
  obtain ⟨hpanics, -, -, hstorage⟩ := send_panics_iff.2 s hs
  exact ⟨s, hs, of_decide_eq_true hp, hpanics, hstorage⟩

/-- **A call that would be answered panics.** The only call of a run panics, and leaves its slot
behind; the server receives it and answers. -/
theorem send_to_server_panics : ∃ s : Remote Nat Nat, s.Reachable ∧ s.panics = 1 ∧
    s.outcomes = [.panicked] ∧ s.storage.get 0 = some (.ready 7) := by
  have hrun : ∃ s : Remote Nat Nat, s.Reachable ∧
      decide (s.panics = 1 ∧ s.outcomes = [.panicked] ∧ s.storage.get 0 = some (.ready 7)) = true :=
    exists_reachable (some Remote.new) (fun _ h => (Option.some.inj h).symm)
      [.send 1 0, .take, .onResult 0 7] (by decide +kernel)
  obtain ⟨s, hs, hp⟩ := hrun
  exact ⟨s, hs, of_decide_eq_true hp⟩

end Aquic.Sync.Rpc.St
