import Aquic.Lib.Run
import Aquic.Sync.Oneshot

/-!
# The single-threaded unbounded queue

`sync/mpsc/unbounded/st.rs`. The senders and the receiver share a cell behind an `Rc`, and there is
no counter of the senders: the receiver takes the channel for closed when the strong count is one.
The destructor of a sender runs *before* its reference is released, so the last sender sees a count of
two when it wakes the receiver, and the receiver sees a count of one when it looks again.

The handles are what exists outside of the cell. Nothing else runs between two polls of a task, so a
step of the machine is one call on a handle that returns, or one poll of `recv`. A future of `recv`
that was polled may be dropped at any time; it leaves its waker in the cell. The destructors of the
values do not touch the channel.
-/

namespace Aquic.Sync.Unbounded

open Run

variable {α : Type}

/-- The receiver, and the future of `recv` that borrows it. -/
inductive Receiver where
  | idle
  /-- Suspended in `recv`, with the waker of its last poll. -/
  | suspended (waker : Nat)
  | dropped
  deriving DecidableEq, Repr

/-- What a poll of `recv` returns. -/
inductive Polled (α : Type) where
  | pending
  | ready (value : Option α)
  deriving DecidableEq, Repr

/-- `Shared`, its reference counter, and the handles. -/
structure Channel (α : Type) where
  deque : List α
  receiverWaker : Option Nat
  receiverExists : Bool
  /-- `Rc::strong_count`. -/
  strongCount : Nat
  /-- The number of senders. -/
  senders : Nat
  receiver : Receiver
  /-- History: the values that were sent. -/
  sent : List α
  /-- History: the values that the receiver got. -/
  delivered : List α
  /-- History: the wakers that were woken since the last poll of `recv`. -/
  woken : List Nat
  deriving DecidableEq, Repr

def channel : Channel α where
  deque := []
  receiverWaker := none
  receiverExists := true
  strongCount := 2
  senders := 1
  receiver := .idle
  sent := []
  delivered := []
  woken := []

namespace Channel

/-! ## The source -/

/-- `receiver_waker.take()`, and `wake` of what was there. -/
def wake (s : Channel α) : Channel α :=
  { s with receiverWaker := none, woken := s.woken ++ s.receiverWaker.toList }

/-- `Sender::send`; an error returns the value. -/
def send (s : Channel α) (value : α) : Channel α × Except α Unit :=
  if !s.receiverExists then
    (s, .error value)
  else
    ({ s with deque := s.deque ++ [value], sent := s.sent ++ [value] }.wake, .ok ())

/-- `Sender::clone`. -/
def clone (s : Channel α) : Channel α :=
  { s with strongCount := s.strongCount + 1, senders := s.senders + 1 }

/-- `Sender::drop`; the sender still counts. -/
def senderDrop (s : Channel α) : Channel α :=
  if s.strongCount = 2 ∧ s.receiverExists = true then s.wake else s

/-- The `Rc` of a handle is dropped, after the destructor of the handle. -/
def release (s : Channel α) : Channel α := { s with strongCount := s.strongCount - 1 }

/-- A sender goes out of scope. -/
def dropSender (s : Channel α) : Channel α :=
  { s.senderDrop.release with senders := s.senders - 1 }

/-- `Receiver::is_closed`. -/
def isClosed (s : Channel α) : Bool := s.strongCount == 1

/-- One poll of the future of `recv`. -/
def pollRecv (s : Channel α) (waker : Nat) : Channel α × Polled α :=
  match s.deque with
  | value :: deque =>
    ({ s with deque, delivered := s.delivered ++ [value] }, .ready (some value))
  | [] =>
    if s.isClosed then
      (s, .ready none)
    else
      ({ s with receiverWaker := some waker }, .pending)

/-- `Receiver::try_recv`. -/
def tryRecv (s : Channel α) : Channel α × Except TryRecvError α :=
  match s.deque with
  | value :: deque => ({ s with deque, delivered := s.delivered ++ [value] }, .ok value)
  | [] => (s, .error (if s.isClosed then .closed else .empty))

/-- `Receiver::drop`; the receiver still counts. -/
def receiverDrop (s : Channel α) : Channel α :=
  { s with deque := [], receiverWaker := none, receiverExists := false }

/-- The receiver goes out of scope. -/
def dropReceiver (s : Channel α) : Channel α :=
  { s.receiverDrop.release with receiver := .dropped }

/-- The task of the receiver is polled in `recv`: the call is its first poll, or one more. -/
def recv (s : Channel α) (waker : Nat) : Channel α :=
  match s.pollRecv waker with
  | (s, .pending) => { s with receiver := .suspended waker, woken := [] }
  | (s, .ready _) => { s with receiver := .idle }

end Channel

/-! ## Runs -/

inductive Op (α : Type) where
  | send (value : α)
  | clone
  | dropSender
  /-- `recv` is polled with a waker. -/
  | recv (waker : Nat)
  /-- The future of `recv` is dropped. -/
  | cancel
  | tryRecv
  | dropReceiver
  deriving DecidableEq, Repr

namespace Channel

/-- One call; `none` if nobody can make it. -/
def exec (s : Channel α) : Op α → Option (Channel α)
  | .send value => if 0 < s.senders then some (s.send value).1 else none
  | .clone => if 0 < s.senders then some s.clone else none
  | .dropSender => if 0 < s.senders then some s.dropSender else none
  | .recv waker => if s.receiver ≠ .dropped then some (s.recv waker) else none
  | .cancel =>
    match s.receiver with
    | .suspended _ => some { s with receiver := .idle }
    | _ => none
  | .tryRecv => if s.receiver = .idle then some s.tryRecv.1 else none
  | .dropReceiver => if s.receiver = .idle then some s.dropReceiver else none

def Reachable (s : Channel α) : Prop := Run.Reachable (· = channel) anyStep exec s

/-! ## The invariant -/

/-- What holds between the polls. -/
structure Consistent (s : Channel α) : Prop where
  /-- The handles are the references. -/
  count : s.strongCount = s.senders + if s.receiverExists then 1 else 0
  alive : s.receiverExists = true ↔ s.receiver ≠ .dropped
  /-- A waker is stored only while there is something to wait for. -/
  stored : s.receiverWaker.isSome = true →
    s.receiverExists = true ∧ s.deque = [] ∧ 0 < s.senders
  /-- Who is suspended can be woken, or was. -/
  awake : ∀ waker, s.receiver = .suspended waker →
    s.receiverWaker = some waker ∨ waker ∈ s.woken
  fifo : s.receiverExists = true → s.sent = s.delivered ++ s.deque
  delivered : s.delivered <+: s.sent

section

variable {s s' : Channel α}

theorem consistent_channel : (channel : Channel α).Consistent where
  count := rfl
  alive := by simp [channel]
  stored h := absurd h (by simp [channel])
  awake waker h := by cases h
  fifo _ := rfl
  delivered := List.prefix_refl _

/-- The waker that was stored has been woken. -/
theorem awake_wake (h : s.Consistent) {waker : Nat} (hreceiver : s.receiver = .suspended waker) :
    waker ∈ s.wake.woken := by
  show waker ∈ s.woken ++ s.receiverWaker.toList
  rcases h.awake waker hreceiver with hstored | hwoken
  · rw [hstored]
    exact List.mem_append_right _ List.mem_cons_self
  · exact List.mem_append_left _ hwoken

theorem Consistent.wake (h : s.Consistent) : s.wake.Consistent where
  count := h.count
  alive := h.alive
  stored hstored := absurd hstored (by simp [Channel.wake])
  awake _ hreceiver := .inr (awake_wake h hreceiver)
  fifo := h.fifo
  delivered := h.delivered

theorem send_of_exists (hexists : s.receiverExists = true) (value : α) :
    s.send value =
      ({ s with deque := s.deque ++ [value], sent := s.sent ++ [value] }.wake, .ok ()) := by
  simp [send, hexists]

theorem send_of_not_exists (hexists : s.receiverExists = false) (value : α) :
    s.send value = (s, .error value) := by
  simp [send, hexists]

theorem Consistent.send (h : s.Consistent) (value : α) : (s.send value).1.Consistent := by
  cases hexists : s.receiverExists with
  | false =>
    rw [send_of_not_exists hexists]
    exact h
  | true =>
    rw [send_of_exists hexists]
    refine ⟨h.count, h.alive, ?_, ?_, ?_, ?_⟩
    · intro hstored
      simp [Channel.wake] at hstored
    · intro waker hreceiver
      exact .inr (awake_wake h hreceiver)
    · intro _
      show s.sent ++ [value] = s.delivered ++ (s.deque ++ [value])
      rw [h.fifo hexists, List.append_assoc]
    · exact h.delivered.trans (List.prefix_append ..)

theorem Consistent.clone (h : s.Consistent) : s.clone.Consistent where
  count := by
    show s.strongCount + 1 = s.senders + 1 + if s.receiverExists then 1 else 0
    rw [h.count]
    omega
  alive := h.alive
  stored hstored := by
    obtain ⟨hexists, hdeque, -⟩ := h.stored hstored
    exact ⟨hexists, hdeque, Nat.succ_pos _⟩
  awake := h.awake
  fifo := h.fifo
  delivered := h.delivered

/-- **The last sender wakes the receiver.** Its destructor leaves no waker, and that of another one
does nothing. -/
theorem senderDrop_cases (h : s.Consistent) (hsenders : 0 < s.senders) :
    s.senderDrop = s.wake ∨ s.senderDrop = s ∧ (s.receiverWaker.isSome = true → 1 < s.senders) := by
  unfold senderDrop
  split
  · exact .inl rfl
  · next hother =>
    refine .inr ⟨rfl, ?_⟩
    intro hstored
    obtain ⟨hexists, -, -⟩ := h.stored hstored
    have hcount := h.count
    rw [hexists, if_pos rfl] at hcount
    -- with one sender and the receiver the count would be two
    have hne : s.strongCount ≠ 2 := fun heq => hother ⟨heq, hexists⟩
    omega

/-- What the release of a sender leaves, if no other sender waits for a wake-up. -/
theorem Consistent.release (h : s.Consistent) (hsenders : 0 < s.senders)
    (hstored : s.receiverWaker.isSome = true → 1 < s.senders) :
    { s.release with senders := s.senders - 1 }.Consistent where
  count := by
    show s.strongCount - 1 = s.senders - 1 + if s.receiverExists then 1 else 0
    rw [h.count]
    omega
  alive := h.alive
  stored hwaker := by
    obtain ⟨hexists, hdeque, -⟩ := h.stored hwaker
    exact ⟨hexists, hdeque, Nat.sub_pos_of_lt (hstored hwaker)⟩
  awake := h.awake
  fifo := h.fifo
  delivered := h.delivered

theorem Consistent.dropSender (h : s.Consistent) (hsenders : 0 < s.senders) :
    s.dropSender.Consistent := by
  unfold Channel.dropSender
  rcases senderDrop_cases h hsenders with heq | ⟨heq, hstored⟩ <;> rw [heq]
  · apply h.wake.release hsenders
    intro hwaker
    simp [Channel.wake] at hwaker
  · exact h.release hsenders hstored

/-- The receiver of a consistent channel sees whether a sender exists. -/
theorem isClosed_iff (h : s.Consistent) (hreceiver : s.receiver ≠ .dropped) :
    s.isClosed = true ↔ s.senders = 0 := by
  have hcount := h.count
  rw [h.alive.mpr hreceiver, if_pos rfl] at hcount
  rw [isClosed, beq_iff_eq]
  omega

/-- The value at the front goes to the receiver. -/
theorem Consistent.popFront (h : s.Consistent) (hreceiver : s.receiver ≠ .dropped) {value : α}
    {deque : List α} (hdeque : s.deque = value :: deque) :
    { s with deque, delivered := s.delivered ++ [value], receiver := .idle }.Consistent where
  count := h.count
  alive := by
    simp only [ne_eq, reduceCtorEq, not_false_eq_true, iff_true]
    exact h.alive.mpr hreceiver
  stored hstored := by
    rw [(h.stored hstored).2.1] at hdeque
    cases hdeque
  awake waker hsuspended := by cases hsuspended
  fifo _ := by
    show s.sent = s.delivered ++ [value] ++ deque
    rw [h.fifo (h.alive.mpr hreceiver), hdeque, List.append_assoc, List.singleton_append]
  delivered := by
    rw [h.fifo (h.alive.mpr hreceiver), hdeque]
    exact ⟨deque, by rw [List.append_assoc, List.singleton_append]⟩

/-- A call of `recv` ends without a value, or is given up. -/
theorem Consistent.idle (h : s.Consistent) (hreceiver : s.receiver ≠ .dropped) :
    { s with receiver := .idle }.Consistent where
  count := h.count
  alive := by
    simp only [ne_eq, reduceCtorEq, not_false_eq_true, iff_true]
    exact h.alive.mpr hreceiver
  stored := h.stored
  awake waker hsuspended := by cases hsuspended
  fifo := h.fifo
  delivered := h.delivered

theorem Consistent.recv (h : s.Consistent) (hreceiver : s.receiver ≠ .dropped) (waker : Nat) :
    (s.recv waker).Consistent := by
  have hfifo := h.fifo
  unfold Channel.recv pollRecv
  cases hdeque : s.deque with
  | cons value deque => exact h.popFront hreceiver hdeque
  | nil =>
    cases hclosed : s.isClosed with
    | true => exact h.idle hreceiver
    | false =>
      -- the queue is empty, and a sender is there to wake the receiver
      have hsenders : 0 < s.senders := by
        apply Nat.pos_of_ne_zero
        intro hzero
        rw [(isClosed_iff h hreceiver).mpr hzero] at hclosed
        cases hclosed
      refine ⟨h.count, ?_, ?_, ?_, ?_, h.delivered⟩
      · show s.receiverExists = true ↔ Receiver.suspended waker ≠ .dropped
        simp only [ne_eq, reduceCtorEq, not_false_eq_true, iff_true]
        exact h.alive.mpr hreceiver
      · intro _
        exact ⟨h.alive.mpr hreceiver, rfl, hsenders⟩
      · intro waker' hsuspended
        cases hsuspended
        exact .inl rfl
      · rw [hdeque] at hfifo
        exact hfifo

theorem Consistent.tryRecv (h : s.Consistent) (hreceiver : s.receiver = .idle) :
    s.tryRecv.1.Consistent := by
  unfold Channel.tryRecv
  cases hdeque : s.deque with
  | cons value deque =>
    have hpop := h.popFront (by simp [hreceiver]) hdeque
    rwa [← hreceiver] at hpop
  | nil => exact h

theorem Consistent.dropReceiver (h : s.Consistent) (hreceiver : s.receiver = .idle) :
    s.dropReceiver.Consistent where
  count := by
    show s.strongCount - 1 = s.senders + 0
    have hcount := h.count
    rw [h.alive.mpr (by simp [hreceiver]), if_pos rfl] at hcount
    omega
  alive := by simp [Channel.dropReceiver, receiverDrop, Channel.release]
  stored hstored := by cases hstored
  awake waker hsuspended := by cases hsuspended
  fifo hexists := by cases hexists
  delivered := h.delivered

/-- **Every call keeps the channel consistent.** -/
theorem Consistent.exec {op : Op α} (h : s.Consistent) (hexec : s.exec op = some s') :
    s'.Consistent := by
  cases op with
  | send value =>
    simp only [Channel.exec, Option.ite_none_right_eq_some, Option.some.injEq] at hexec
    obtain ⟨-, rfl⟩ := hexec
    exact h.send value
  | clone =>
    simp only [Channel.exec, Option.ite_none_right_eq_some, Option.some.injEq] at hexec
    obtain ⟨-, rfl⟩ := hexec
    exact h.clone
  | dropSender =>
    simp only [Channel.exec, Option.ite_none_right_eq_some, Option.some.injEq] at hexec
    obtain ⟨hsenders, rfl⟩ := hexec
    exact h.dropSender hsenders
  | recv waker =>
    simp only [Channel.exec, Option.ite_none_right_eq_some, Option.some.injEq] at hexec
    obtain ⟨hreceiver, rfl⟩ := hexec
    exact h.recv hreceiver waker
  | cancel =>
    simp only [Channel.exec] at hexec
    cases hreceiver : s.receiver with
    | suspended waker =>
      rw [hreceiver] at hexec
      cases hexec
      exact h.idle (by simp [hreceiver])
    | idle | dropped =>
      rw [hreceiver] at hexec
      cases hexec
  | tryRecv =>
    simp only [Channel.exec, Option.ite_none_right_eq_some, Option.some.injEq] at hexec
    obtain ⟨hreceiver, rfl⟩ := hexec
    exact h.tryRecv hreceiver
  | dropReceiver =>
    simp only [Channel.exec, Option.ite_none_right_eq_some, Option.some.injEq] at hexec
    obtain ⟨hreceiver, rfl⟩ := hexec
    exact h.dropReceiver hreceiver

theorem Reachable.consistent (h : s.Reachable) : s.Consistent := by
  apply Run.Reachable.invariant _ _ h
  · rintro s rfl
    exact consistent_channel
  · intro s op s' hs _ hexec
    exact hs.exec hexec

/-! ## What the receiver is told -/

theorem pollRecv_eq_none_iff (h : s.Consistent) (hreceiver : s.receiver ≠ .dropped) (waker : Nat) :
    (s.pollRecv waker).2 = .ready none ↔ s.deque = [] ∧ s.senders = 0 := by
  rw [← isClosed_iff h hreceiver]
  unfold pollRecv
  cases hdeque : s.deque with
  | cons value deque => simp
  | nil => cases hclosed : s.isClosed <;> simp

theorem tryRecv_eq_closed_iff (h : s.Consistent) (hreceiver : s.receiver ≠ .dropped) :
    s.tryRecv.2 = .error .closed ↔ s.deque = [] ∧ s.senders = 0 := by
  rw [← isClosed_iff h hreceiver]
  unfold Channel.tryRecv
  cases hdeque : s.deque with
  | cons value deque => simp
  | nil => cases hclosed : s.isClosed <;> simp

end

/-- The queue detects that it is closed, and loses no wake-up. -/
structure DetectsClosure (s : Channel α) : Prop where
  /-- Who waits for a wake-up has a reason to wait. -/
  waits : ∀ waker, s.receiver = .suspended waker → s.receiverWaker = some waker →
    s.deque = [] ∧ 0 < s.senders
  /-- Who has no reason to wait was woken. -/
  woken : ∀ waker, s.receiver = .suspended waker → s.deque ≠ [] ∨ s.senders = 0 →
    waker ∈ s.woken
  recv_none : s.receiver ≠ .dropped → ∀ waker,
    ((s.pollRecv waker).2 = .ready none ↔ s.deque = [] ∧ s.senders = 0)
  tryRecv_closed : s.receiver ≠ .dropped →
    (s.tryRecv.2 = .error .closed ↔ s.deque = [] ∧ s.senders = 0)
  /-- The values arrive in the order in which they were sent: what is queued comes next. -/
  fifo : s.receiver ≠ .dropped → s.sent = s.delivered ++ s.deque
  recv_some : ∀ value deque, s.deque = value :: deque → ∀ waker,
    (s.pollRecv waker).2 = .ready (some value) ∧ (s.pollRecv waker).1.deque = deque ∧
      s.tryRecv.2 = .ok value ∧ s.tryRecv.1.deque = deque
  /-- Everything was delivered when closure is reported. -/
  delivered : s.receiver ≠ .dropped → ∀ waker,
    (s.pollRecv waker).2 = .ready none ∨ s.tryRecv.2 = .error .closed → s.delivered = s.sent
  send_error : s.receiver = .dropped → ∀ value, s.send value = (s, .error value)
  /-- While the receiver exists, a send appends its value, and takes the waker that is stored and wakes
  it. -/
  send_ok : s.receiver ≠ .dropped → ∀ value, (s.send value).2 = .ok () ∧
    (s.send value).1.deque = s.deque ++ [value] ∧ (s.send value).1.sent = s.sent ++ [value] ∧
    (s.send value).1.receiverWaker = none ∧
    (s.send value).1.woken = s.woken ++ s.receiverWaker.toList

/-- **Closure is detected and no wake-up is lost**, in every run with any number of senders. -/
theorem detectsClosure {s : Channel α} (h : s.Reachable) : s.DetectsClosure := by
  have hs := h.consistent
  have hfifo : s.receiver ≠ .dropped → s.sent = s.delivered ++ s.deque :=
    fun hreceiver => hs.fifo (hs.alive.mpr hreceiver)
  refine ⟨?_, ?_, ?_, ?_, hfifo, ?_, ?_, ?_, ?_⟩
  · intro waker _ hstored
    exact (hs.stored (by rw [hstored]; rfl)).2
  · intro waker hsuspended hreason
    rcases hs.awake waker hsuspended with hstored | hwoken
    · obtain ⟨-, hdeque, hsenders⟩ := hs.stored (by rw [hstored]; rfl)
      rcases hreason with hne | hzero
      · exact absurd hdeque hne
      · omega
    · exact hwoken
  · intro hreceiver waker
    exact pollRecv_eq_none_iff hs hreceiver waker
  · intro hreceiver
    exact tryRecv_eq_closed_iff hs hreceiver
  · intro value deque hdeque waker
    simp [pollRecv, Channel.tryRecv, hdeque]
  · intro hreceiver waker hclosed
    rw [pollRecv_eq_none_iff hs hreceiver, tryRecv_eq_closed_iff hs hreceiver, or_self] at hclosed
    rw [hfifo hreceiver, hclosed.1, List.append_nil]
  · intro hreceiver value
    apply send_of_not_exists
    rw [← Bool.not_eq_true, hs.alive]
    exact not_not_intro hreceiver
  · intro hreceiver value
    rw [send_of_exists (hs.alive.mpr hreceiver)]
    exact ⟨rfl, rfl, rfl, rfl, rfl⟩

/-- Two senders, of which the last one is dropped while the receiver is suspended. -/
theorem detectsClosure_last_sender : ∃ s : Channel Nat, s.Reachable ∧ s.receiver = .suspended 7 ∧
    s.senders = 0 ∧ 7 ∈ s.woken ∧ (s.pollRecv 8).2 = .ready none ∧ s.delivered = s.sent := by
  have hrun : ∃ s : Channel Nat, s.Reachable ∧
      decide (s.receiver = .suspended 7 ∧ s.senders = 0 ∧ s.deque = []) = true :=
    exists_reachable (some channel) (fun _ h => (Option.some.inj h).symm)
      [.clone, .send 1, .recv 5, .dropSender, .recv 7, .dropSender] (by decide +kernel)
  obtain ⟨s, hs, hp⟩ := hrun
  obtain ⟨hsuspended, hsenders, hdeque⟩ := of_decide_eq_true hp
  have hdetects := detectsClosure hs
  have halive : s.receiver ≠ .dropped := by simp [hsuspended]
  have hnone := (hdetects.recv_none halive 8).mpr ⟨hdeque, hsenders⟩
  exact ⟨s, hs, hsuspended, hsenders, hdetects.woken 7 hsuspended (.inr hsenders), hnone,
    hdetects.delivered halive 8 (.inl hnone)⟩

end Channel

end Aquic.Sync.Unbounded
