import Aquic.Sync.Event
import Aquic.Sync.Watch

/-!
# The guards of the single-threaded channels

`sync/mpmc/oneshot/st.rs` and `sync/mpmc/watch/st.rs`. The shared part of a channel is in a `RefCell`.
A call borrows it for its own duration, exclusively when it changes something, so that between two
calls only the guards of suspended futures are alive. There is one in `recv`:

    Err(TryRecvError::Empty) => self.shared.borrow().event.listen().await

The guard is a temporary of the body of a match arm, and lives to the end of this body, across the
suspension. `Channel.guards` counts these guards, as the `RefCell` does, and an exclusive borrow panics
unless there are none.

`Kind` lists what the two channels do to their shared parts, `Channel` adds the handles, the suspended
futures and the guards.
-/

namespace Aquic.Sync.Guards

open Collections
open Run
open Word

variable {σ α : Type}

/-! ## The two channels

What a call does to the shared part of a channel, without the `RefCell` around it. A sender that is dropped
and a value that is sent may wake the receivers up. -/

structure Kind (σ α : Type) where
  new : σ
  /-- And whether the listeners are notified. -/
  send : σ → α → σ × Bool
  cloneSender : σ → σ
  /-- And whether the listeners are notified. -/
  dropSender : σ → σ × Bool
  cloneReceiver : σ → σ
  dropReceiver : σ → σ
  /-- `try_recv` of a receiver that has seen this version; and what it has seen afterwards. -/
  tryRecv : σ → Nat → Nat × Except TryRecvError α
  tryRecvAny : Option (σ → Nat → Nat × Except TryRecvError α)
  /-- The methods of a receiver that receive take `&mut self`. -/
  exclusive : Bool

/-- `oneshot/st.rs`: there are no versions. -/
def oneshot : Kind (Oneshot α) α where
  new := { container := none, senderCount := 1, receiverCount := 1 }
  send o value :=
    match o.send value with
    | (o, .ok _) => (o, true)
    | (o, .error _) => (o, false)
  cloneSender o := { o with senderCount := o.senderCount + 1 }
  dropSender o :=
    let senderCount := wrappingSub 64 o.senderCount 1
    ({ o with senderCount }, senderCount = 0)
  cloneReceiver o := { o with receiverCount := o.receiverCount + 1 }
  dropReceiver o := { o with receiverCount := wrappingSub 64 o.receiverCount 1 }
  tryRecv o seen := (seen, o.tryRecv)
  tryRecvAny := none
  exclusive := false

/-- `watch/st.rs`. -/
def watch : Kind (Watch.State α) α where
  new := .new
  send s value :=
    match Watch.St.impl.send s value with
    | (s, .ok _) => (s, true)
    | (s, .error _) => (s, false)
  cloneSender := Watch.St.impl.cloneSender
  dropSender s :=
    let s := Watch.St.impl.dropSender s
    (s, s.senderCount = 0)
  cloneReceiver := Watch.St.impl.cloneReceiver
  dropReceiver := Watch.St.impl.dropReceiver
  tryRecv s seen := Watch.St.impl.tryRecvInner s seen false
  tryRecvAny := some fun s seen => Watch.St.impl.tryRecvInner s seen true
  exclusive := true

/-! ## The channel

The handles and the suspended futures have an owner each; a future borrows the receiver it was made from. -/

/-- A future of `recv` that is suspended. -/
structure Recv where
  /-- The receiver it borrows. -/
  receiver : Nat
  listener : Nat
  deriving DecidableEq, Repr

structure Channel (σ : Type) where
  shared : σ
  event : Event Nat
  /-- The number of shared guards of the `RefCell` that are alive. -/
  guards : Nat
  /-- The number of senders that exist. -/
  senders : Nat
  /-- The receivers that exist, with the versions they have seen. -/
  receivers : Slots Nat
  recvs : Slots Recv
  panicked : Bool
  deriving DecidableEq, Repr

def channel (kind : Kind σ α) : Channel σ where
  shared := kind.new
  event := .new
  guards := 0
  senders := 1
  receivers := ⟨[some Watch.initialReceiverVersion]⟩
  recvs := .empty
  panicked := false

namespace Channel

/-- A suspended future borrows the receiver. -/
def isBorrowed (s : Channel σ) (receiver : Nat) : Bool :=
  s.recvs.countP (·.receiver == receiver) != 0

/-- A call that borrows the shared part exclusively. -/
def borrowMut (s : Channel σ) (f : Channel σ → Channel σ) : Channel σ :=
  if s.guards = 0 then f s else { s with panicked := true }

def notifyIf (s : Channel σ) (notify : Bool) : Channel σ :=
  if notify then { s with event := s.event.notifyAll.1 } else s

/-! ### Calls that change the shared part

Each of them borrows the `RefCell` exclusively. -/

def send (kind : Kind σ α) (s : Channel σ) (value : α) : Channel σ :=
  s.borrowMut fun s =>
    let outcome := kind.send s.shared value
    { s with shared := outcome.1 }.notifyIf outcome.2

def cloneSender (kind : Kind σ α) (s : Channel σ) : Channel σ :=
  s.borrowMut fun s => { s with shared := kind.cloneSender s.shared, senders := s.senders + 1 }

def dropSender (kind : Kind σ α) (s : Channel σ) : Channel σ :=
  s.borrowMut fun s =>
    let outcome := kind.dropSender s.shared
    { s with shared := outcome.1, senders := s.senders - 1 }.notifyIf outcome.2

def cloneReceiver (kind : Kind σ α) (s : Channel σ) (seen : Nat) : Channel σ :=
  s.borrowMut fun s =>
    { s with shared := kind.cloneReceiver s.shared, receivers := (s.receivers.push seen).1 }

def dropReceiver (kind : Kind σ α) (s : Channel σ) (receiver : Nat) : Channel σ :=
  s.borrowMut fun s =>
    { s with shared := kind.dropReceiver s.shared, receivers := s.receivers.remove receiver }

/-- The loop of `recv`, from its head to the next suspension: whether it is suspended, and on which
listener. The guard under which the listener is created stays. -/
def attempt (kind : Kind σ α) (s : Channel σ) (receiver seen waker : Nat) :
    Channel σ × Option Nat :=
  let (seen, result) := kind.tryRecv s.shared seen
  let s := { s with receivers := s.receivers.set receiver seen }
  match result with
  | .ok _ => (s, none)
  | .error .closed => (s, none)
  | .error .empty =>
    let (event, key) := s.event.listen
    -- a new listener is pending (`Event.poll_listen`)
    let (event, _) := event.poll key
      { targetEpoch := event.epoch, waker := none, notified := false } waker
    ({ s with event, guards := s.guards + 1 }, some key)

/-- `recv`, up to its first suspension. -/
def recv (kind : Kind σ α) (s : Channel σ) (receiver seen waker : Nat) : Channel σ :=
  match s.attempt kind receiver seen waker with
  | (s, none) => s
  | (s, some listener) => { s with recvs := (s.recvs.push { receiver, listener }).1 }

/-- The future is resumed or dropped: its guard and its listener are dropped. -/
def leave (s : Channel σ) (r : Recv) : Channel σ :=
  { s with guards := s.guards - 1, event := s.event.drop r.listener }

/-- A suspended `recv` is polled. -/
def poll (kind : Kind σ α) (s : Channel σ) (key : Nat) (r : Recv) (l : EventListener Nat)
    (seen waker : Nat) : Channel σ :=
  match s.event.poll r.listener l waker with
  | (event, false) => { s with event }
  | (event, true) =>
    match ({ s with event }.leave r).attempt kind r.receiver seen waker with
    | (s, none) => { s with recvs := s.recvs.remove key }
    | (s, some listener) => { s with recvs := s.recvs.set key { r with listener } }

/-- A suspended `recv` is dropped. -/
def cancel (s : Channel σ) (key : Nat) (r : Recv) : Channel σ :=
  { s.leave r with recvs := s.recvs.remove key }

end Channel

/-! ## Steps

Everything that the owners of handles and futures may do. What the borrow checker refuses is not a step. -/

inductive Op (α : Type) where
  | send (value : α)
  | senderIsClosed
  | cloneSender
  | dropSender
  | tryRecv (receiver : Nat)
  | tryRecvAny (receiver : Nat)
  | receiverIsClosed (receiver : Nat)
  | cloneReceiver (receiver : Nat)
  | dropReceiver (receiver : Nat)
  | recv (receiver waker : Nat)
  | poll (key waker : Nat)
  | cancel (key : Nat)
  deriving DecidableEq, Repr

/-- The call changes the shared part, and borrows it exclusively. -/
def Op.borrowsMut : Op α → Bool
  | .send _ => true
  | .cloneSender => true
  | .dropSender => true
  | .cloneReceiver _ => true
  | .dropReceiver _ => true
  | _ => false

namespace Channel

/-- A call of a receiver that exists; one that takes `&mut self` needs it for itself. -/
def withReceiver (s : Channel σ) (receiver : Nat) (alone : Bool) (f : Nat → Channel σ) :
    Option (Channel σ) :=
  if alone && s.isBorrowed receiver then none else (s.receivers.get receiver).map f

/-- What a receiver remembers after it has tried to receive. -/
def seeing (s : Channel σ) (receiver seen : Nat) : Channel σ :=
  { s with receivers := s.receivers.set receiver seen }

/-- A call of a handle that exists, or a poll of a future that does. After a panic nothing more
happens. -/
def exec (kind : Kind σ α) (s : Channel σ) (op : Op α) : Option (Channel σ) :=
  if s.panicked then none
  else match op with
    | .send value => if s.senders = 0 then none else some (s.send kind value)
    | .senderIsClosed => if s.senders = 0 then none else some s
    | .cloneSender => if s.senders = 0 then none else some (s.cloneSender kind)
    | .dropSender => if s.senders = 0 then none else some (s.dropSender kind)
    | .tryRecv receiver =>
      s.withReceiver receiver kind.exclusive fun seen =>
        s.seeing receiver (kind.tryRecv s.shared seen).1
    | .tryRecvAny receiver =>
      kind.tryRecvAny.bind fun tryRecvAny =>
        s.withReceiver receiver kind.exclusive fun seen =>
          s.seeing receiver (tryRecvAny s.shared seen).1
    | .receiverIsClosed receiver => s.withReceiver receiver kind.exclusive fun _ => s
    | .cloneReceiver receiver =>
      s.withReceiver receiver kind.exclusive fun seen => s.cloneReceiver kind seen
    | .dropReceiver receiver => s.withReceiver receiver true fun _ => s.dropReceiver kind receiver
    | .recv receiver waker =>
      s.withReceiver receiver kind.exclusive fun seen => s.recv kind receiver seen waker
    | .poll key waker => do
      let r ← s.recvs.get key
      let l ← s.event.listeners.get r.listener
      let seen ← s.receivers.get r.receiver
      some (s.poll kind key r l seen waker)
    | .cancel key => do
      let r ← s.recvs.get key
      some (s.cancel key r)

/-! ## Who panics

A guard for each suspended future, and no others: this is what every step preserves, also one that panics. -/

/-- There is one guard for every suspended future. -/
def Guarded (s : Channel σ) : Prop := s.guards = s.recvs.length

/-- What a call does that ends without a panic: it leaves the guards in order. -/
structure Quiet (s : Channel σ) : Prop where
  guarded : s.Guarded
  panicked : s.panicked = false

variable {s : Channel σ} {kind : Kind σ α}

/-- Nothing changes but the shared part, the event and the handles. -/
theorem Quiet.of_eq {s' : Channel σ} (h : Quiet s) (hguards : s'.guards = s.guards)
    (hrecvs : s'.recvs = s.recvs) (hpanicked : s'.panicked = s.panicked) : Quiet s' :=
  ⟨(hguards.trans h.guarded).trans (congrArg _ hrecvs.symm), hpanicked.trans h.panicked⟩

theorem Quiet.notifyIf (h : Quiet s) (notify : Bool) : Quiet (s.notifyIf notify) := by
  unfold Channel.notifyIf
  split
  · exact h.of_eq rfl rfl rfl
  · exact h

/-- **An exclusive borrow panics if and only if a future is suspended.** -/
theorem Quiet.borrowMut (h : Quiet s) {f : Channel σ → Channel σ} (hf : Quiet (f s)) :
    (s.borrowMut f).Guarded ∧ ((s.borrowMut f).panicked = true ↔ s.recvs.length ≠ 0) := by
  unfold Channel.borrowMut
  split
  · next hzero =>
    refine ⟨hf.guarded, ?_⟩
    rw [hf.panicked, ← h.guarded, hzero]
    simp
  · next hpos =>
    refine ⟨h.guarded, ?_⟩
    rw [← h.guarded]
    simp [hpos]

/-! ### Futures

A future that suspends takes a guard with it, and one that returns or is cancelled gives it back. -/

/-- The loop of `recv` leaves one more guard when it is suspended. -/
theorem attempt_spec (kind : Kind σ α) (s : Channel σ) (receiver seen waker : Nat) :
    (s.attempt kind receiver seen waker).1.recvs = s.recvs ∧
    (s.attempt kind receiver seen waker).1.panicked = s.panicked ∧
    (s.attempt kind receiver seen waker).1.guards =
      s.guards + if (s.attempt kind receiver seen waker).2.isSome then 1 else 0 := by
  unfold attempt
  generalize kind.tryRecv s.shared seen = outcome
  obtain ⟨seen', result⟩ := outcome
  cases result with
  | ok value => exact ⟨rfl, rfl, rfl⟩
  | error e => cases e <;> exact ⟨rfl, rfl, rfl⟩

theorem Quiet.recv (h : Quiet s) (receiver seen waker : Nat) :
    Quiet (s.recv kind receiver seen waker) := by
  obtain ⟨hrecvs, hpanicked, hguards⟩ := attempt_spec kind s receiver seen waker
  have hguarded : s.guards = s.recvs.length := h.guarded
  unfold Channel.recv
  split
  · next s₁ heq =>
    rw [heq] at hrecvs hpanicked hguards
    refine ⟨?_, hpanicked.trans h.panicked⟩
    show s₁.guards = s₁.recvs.length
    simp only at hrecvs hguards
    rw [hrecvs, hguards, hguarded]
    rfl
  · next s₁ listener heq =>
    rw [heq] at hrecvs hpanicked hguards
    refine ⟨?_, hpanicked.trans h.panicked⟩
    show s₁.guards = (s₁.recvs.push { receiver, listener }).1.length
    simp only at hrecvs hguards
    rw [Slots.length_push, hrecvs, hguards, hguarded]
    rfl

theorem Quiet.poll (h : Quiet s) {key : Nat} {r : Recv} (hget : s.recvs.get key = some r)
    (l : EventListener Nat) (seen waker : Nat) : Quiet (s.poll kind key r l seen waker) := by
  unfold Channel.poll
  split
  · exact h.of_eq rfl rfl rfl
  · next event _ =>
    obtain ⟨hrecvs, hpanicked, hguards⟩ :=
      attempt_spec kind (({ s with event } : Channel σ).leave r) r.receiver seen waker
    have hguarded : s.guards = s.recvs.length := h.guarded
    have hlength := Slots.length_remove hget
    split
    · next s₁ heq =>
      rw [heq] at hrecvs hpanicked hguards
      simp only [leave] at hrecvs hpanicked hguards
      refine ⟨?_, hpanicked.trans h.panicked⟩
      show s₁.guards = (s₁.recvs.remove key).length
      rw [hrecvs, hguards, hguarded]
      simp
      omega
    · next s₁ listener heq =>
      rw [heq] at hrecvs hpanicked hguards
      simp only [leave] at hrecvs hpanicked hguards
      refine ⟨?_, hpanicked.trans h.panicked⟩
      show s₁.guards = (s₁.recvs.set key { r with listener }).length
      rw [hrecvs, Slots.length_set hget, hguards, hguarded]
      simp
      omega

theorem Quiet.cancel (h : Quiet s) {key : Nat} {r : Recv} (hget : s.recvs.get key = some r) :
    Quiet (s.cancel key r) := by
  refine ⟨?_, h.panicked⟩
  have hguarded : s.guards = s.recvs.length := h.guarded
  have hlength := Slots.length_remove hget
  show s.guards - 1 = (s.recvs.remove key).length
  omega

/-! ### One step

Calls are of two sorts: the ones that borrow exclusively panic while a guard is alive, and the others never
do. -/

theorem quiet_withReceiver {receiver : Nat} {alone : Bool} {f : Nat → Channel σ} {s' : Channel σ}
    (h : s.withReceiver receiver alone f = some s') (hf : ∀ seen, Quiet (f seen)) : Quiet s' := by
  unfold withReceiver at h
  split at h
  · cases h
  · obtain ⟨seen, -, rfl⟩ := Option.map_eq_some_iff.mp h
    exact hf seen

theorem borrowMut_withReceiver (h : Quiet s) {receiver : Nat} {alone : Bool}
    {f : Nat → Channel σ → Channel σ} {s' : Channel σ}
    (hexec : s.withReceiver receiver alone (fun seen => s.borrowMut (f seen)) = some s')
    (hf : ∀ seen, Quiet (f seen s)) :
    s'.Guarded ∧ (s'.panicked = true ↔ s.recvs.length ≠ 0) := by
  unfold withReceiver at hexec
  split at hexec
  · cases hexec
  · obtain ⟨seen, -, rfl⟩ := Option.map_eq_some_iff.mp hexec
    exact h.borrowMut (hf seen)

/-- What a call that borrows exclusively does. -/
theorem Quiet.exec_mut (h : Quiet s) {op : Op α} (hop : op.borrowsMut = true) {s' : Channel σ}
    (hexec : s.exec kind op = some s') :
    s'.Guarded ∧ (s'.panicked = true ↔ s.recvs.length ≠ 0) := by
  simp only [exec, h.panicked, Bool.false_eq_true, if_false] at hexec
  cases op with
  | send value =>
    simp only [Option.ite_none_left_eq_some, Option.some.injEq] at hexec
    obtain ⟨-, rfl⟩ := hexec
    refine h.borrowMut (Quiet.notifyIf ?_ _)
    exact h.of_eq rfl rfl rfl
  | cloneSender =>
    simp only [Option.ite_none_left_eq_some, Option.some.injEq] at hexec
    obtain ⟨-, rfl⟩ := hexec
    exact h.borrowMut (h.of_eq rfl rfl rfl)
  | dropSender =>
    simp only [Option.ite_none_left_eq_some, Option.some.injEq] at hexec
    obtain ⟨-, rfl⟩ := hexec
    refine h.borrowMut (Quiet.notifyIf ?_ _)
    exact h.of_eq rfl rfl rfl
  | cloneReceiver receiver => exact borrowMut_withReceiver h hexec fun _ => h.of_eq rfl rfl rfl
  | dropReceiver receiver => exact borrowMut_withReceiver h hexec fun _ => h.of_eq rfl rfl rfl
  | _ => cases hop

/-- The other calls never panic. -/
theorem Quiet.exec_shared (h : Quiet s) {op : Op α} (hop : op.borrowsMut = false) {s' : Channel σ}
    (hexec : s.exec kind op = some s') : Quiet s' := by
  simp only [exec, h.panicked, Bool.false_eq_true, if_false] at hexec
  cases op with
  | senderIsClosed =>
    simp only [Option.ite_none_left_eq_some, Option.some.injEq] at hexec
    exact hexec.2 ▸ h
  | tryRecv receiver => exact quiet_withReceiver hexec fun _ => h.of_eq rfl rfl rfl
  | tryRecvAny receiver =>
    obtain ⟨f, -, hexec⟩ := Option.bind_eq_some_iff.mp hexec
    exact quiet_withReceiver hexec fun _ => h.of_eq rfl rfl rfl
  | receiverIsClosed receiver => exact quiet_withReceiver hexec fun _ => h
  | recv receiver waker => exact quiet_withReceiver hexec fun seen => h.recv receiver seen waker
  | poll key waker =>
    simp only [Option.bind_eq_bind, Option.bind_eq_some_iff, Option.some.injEq] at hexec
    obtain ⟨r, hget, l, -, seen, -, rfl⟩ := hexec
    exact h.poll hget l seen waker
  | cancel key =>
    simp only [Option.bind_eq_bind, Option.bind_eq_some_iff, Option.some.injEq] at hexec
    obtain ⟨r, hget, rfl⟩ := hexec
    exact h.cancel hget
  | _ => cases hop

/-- **The panics of a step.** -/
theorem Quiet.exec (h : Quiet s) {op : Op α} {s' : Channel σ} (hexec : s.exec kind op = some s') :
    s'.Guarded ∧
      (s'.panicked = true ↔ op.borrowsMut = true ∧ s.recvs.length ≠ 0) := by
  cases hop : op.borrowsMut with
  | true =>
    obtain ⟨hguarded, hpanicked⟩ := h.exec_mut hop hexec
    exact ⟨hguarded, by simpa using hpanicked⟩
  | false =>
    have hquiet := h.exec_shared hop hexec
    exact ⟨hquiet.guarded, by simp [hquiet.panicked]⟩

/-! ### Runs

The guards are in order in every reachable state, so what was said of one step is true in every run. -/

/-- What the runs of a channel reach. -/
def Reachable (kind : Kind σ α) : Channel σ → Prop :=
  Run.Reachable (· = channel kind) anyStep (exec kind)

/-- No future is suspended when the shared part is changed. -/
def Free (s : Channel σ) (op : Op α) : Prop := op.borrowsMut = true → s.recvs.length = 0

theorem not_panicked_of_exec {op : Op α} {s' : Channel σ} (hexec : s.exec kind op = some s') :
    s.panicked = false := by
  unfold exec at hexec
  split at hexec
  · cases hexec
  · next h => simpa using h

theorem guarded (h : Reachable kind s) : s.Guarded := by
  unfold Reachable at h
  induction h with
  | init heq => exact heq ▸ rfl
  | step _ _ hexec ih => exact (Quiet.exec ⟨ih, not_panicked_of_exec hexec⟩ hexec).1

/-- Any run of any kind of channel: a step panics if and only if it changes the shared part while a
future is suspended. -/
theorem panics_iff (h : Reachable kind s) {op : Op α} {s' : Channel σ}
    (hexec : s.exec kind op = some s') :
    s'.panicked = true ↔ op.borrowsMut = true ∧ s.recvs.length ≠ 0 :=
  (Quiet.exec ⟨guarded h, not_panicked_of_exec hexec⟩ hexec).2

theorem not_panicked (h : Run.Reachable (· = channel kind) Free (exec kind) s) :
    s.panicked = false := by
  have hquiet : Quiet s := by
    induction h with
    | init heq => exact heq ▸ ⟨rfl, rfl⟩
    | step _ hfree hexec ih =>
      obtain ⟨hguarded, hpanics⟩ := ih.exec hexec
      refine ⟨hguarded, ?_⟩
      rw [← Bool.not_eq_true, hpanics]
      exact fun ⟨hop, hrecvs⟩ => hrecvs (hfree hop)
  exact hquiet.panicked

end Channel

/-! ## Both channels

Nothing above depends on which of the two channels it is. -/

/-- **Borrow conflicts of the single-threaded channels.** In every run of a oneshot or watch channel a
step panics if and only if it sends, clones or drops a handle while some `recv` is suspended. A run
without such a step never panics. -/
theorem borrow_conflict_iff :
    (∀ (s : Channel (Oneshot α)) (op : Op α) (s' : Channel (Oneshot α)),
      Channel.Reachable oneshot s → s.exec oneshot op = some s' →
        (s'.panicked = true ↔ op.borrowsMut = true ∧ s.recvs.length ≠ 0)) ∧
    (∀ (s : Channel (Watch.State α)) (op : Op α) (s' : Channel (Watch.State α)),
      Channel.Reachable watch s → s.exec watch op = some s' →
        (s'.panicked = true ↔ op.borrowsMut = true ∧ s.recvs.length ≠ 0)) ∧
    (∀ s : Channel (Oneshot α),
      Run.Reachable (· = channel oneshot) Channel.Free (Channel.exec (oneshot (α := α))) s →
        s.panicked = false) ∧
    ∀ s : Channel (Watch.State α),
      Run.Reachable (· = channel watch) Channel.Free (Channel.exec (watch (α := α))) s →
        s.panicked = false :=
  ⟨fun _ _ _ h hexec => Channel.panics_iff h hexec, fun _ _ _ h hexec => Channel.panics_iff h hexec,
    fun _ h => Channel.not_panicked h, fun _ h => Channel.not_panicked h⟩

instance : DecidableRel (Channel.Free (σ := σ) (α := α)) := fun s op =>
  inferInstanceAs (Decidable (op.borrowsMut = true → s.recvs.length = 0))

/-! ## A receiver that waits

If it gives up before the value is sent, all is well; otherwise the sender panics. -/

/-- A receiver that stops waiting in time. -/
theorem no_conflict_after_cancel : ∃ s : Channel (Oneshot Nat),
    Run.Reachable (· = channel oneshot) Channel.Free (Channel.exec (oneshot (α := Nat))) s ∧
    s.shared.container = some 7 ∧ s.panicked = false := by
  have hrun : ∃ s : Channel (Oneshot Nat),
      Run.Reachable (· = channel oneshot) Channel.Free (Channel.exec (oneshot (α := Nat))) s ∧
      decide (s.shared.container = some 7) = true :=
    exists_reachable (some (channel oneshot)) (fun _ h => (Option.some.inj h).symm)
      [.recv 0 0, .poll 0 0, .cancel 0, .send 7] (by decide +kernel)
  obtain ⟨s, hs, hp⟩ := hrun
  exact ⟨s, hs, of_decide_eq_true hp, borrow_conflict_iff.2.2.1 s hs⟩

/-- **A send that should wake a receiver panics.** In both channels: a receiver is suspended, and the
value it waits for is sent. -/
theorem send_to_suspended_panics :
    (∃ s s' : Channel (Oneshot Nat), Channel.Reachable oneshot s ∧
      s.exec oneshot (.send 7) = some s' ∧ s'.panicked = true) ∧
    ∃ s s' : Channel (Watch.State Nat), Channel.Reachable watch s ∧
      s.exec watch (.send 7) = some s' ∧ s'.panicked = true := by
  refine ⟨⟨(channel oneshot).recv oneshot 0 Watch.initialReceiverVersion 0, _,
    .step (i := .recv 0 0) (.init rfl) trivial rfl, rfl, rfl⟩, ?_⟩
  exact ⟨(channel watch).recv watch 0 Watch.initialReceiverVersion 0, _,
    .step (i := .recv 0 0) (.init rfl) trivial rfl, rfl, rfl⟩

end Aquic.Sync.Guards
