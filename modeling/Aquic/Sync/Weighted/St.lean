import Aquic.Lib.Run
import Aquic.Sync.Event
import Aquic.Sync.Weighted.Books

/-!
# The single-threaded weighted channel

`sync/mpsc/weighted/st.rs`. A call of `send` that finds no capacity creates a listener of the event
and is suspended; when it is polled again and its listener is ready it starts over. The receiver
notifies all listeners when the weight it has just removed would fit again, and when it is dropped.

Between two polls nothing else runs, so one step of the machine is one call that returns, or one poll
of a suspended `send`. A future of `recv` that is pending has changed nothing, so it is left out, and
so are the senders of the channel: a call of `send` borrows one of them.
-/

namespace Aquic.Sync.Weighted

open Collections
open Relation (ReflTransGen)
open Run
open Word

variable {α : Type}

namespace St

/-- A call of `send` that awaits its listener. -/
structure Suspended (α : Type) where
  value : α
  weight : Nat
  listener : Nat
  deriving DecidableEq, Repr

/-- The channel, with its callers. -/
structure Channel (α : Type) where
  event : Event Nat
  occupation : Nat
  bound : Nat
  /-- The unbounded queue. -/
  queue : List (α × Nat)
  receiverExists : Bool
  sends : Slots (Suspended α)
  /-- History: all values that were enqueued. -/
  enqueued : List α
  /-- History: all values the receiver got. -/
  received : List α
  deriving DecidableEq, Repr

def channel (bound : Nat) : Channel α where
  event := .new
  occupation := 0
  bound := max bound 1
  queue := []
  receiverExists := true
  sends := .empty
  enqueued := []
  received := []

namespace Channel

/-- `self.sender.send((value, weight))` of a caller that has reserved the weight. -/
def enqueue (s : Channel α) (value : α) (weight : Nat) : Channel α × SendResult :=
  if s.receiverExists then
    ({ s with queue := s.queue ++ [(value, weight)], enqueued := s.enqueued ++ [value] }, .ok)
  else
    ({ s with occupation := 0, event := s.event.notifyAll.1 }, .closed)

/-- The loop of `send`, from its head to the next suspension: the result, or the listener that is
awaited. -/
def attempt (s : Channel α) (value : α) (weight waker : Nat) : Channel α × (SendResult ⊕ Nat) :=
  if !s.receiverExists then
    (s, .inl .closed)
  else if hasCapacity s.occupation weight s.bound then
    let (s, result) :=
      { s with occupation := wrappingAdd 64 s.occupation weight }.enqueue value weight
    (s, .inl result)
  else
    let (event, key) := s.event.listen
    -- a new listener is pending (`Event.poll_listen`)
    let (event, _) := event.poll key
      { targetEpoch := event.epoch, waker := none, notified := false } waker
    ({ s with event }, .inr key)

/-- `send`, up to its first suspension. -/
def send (s : Channel α) (value : α) (weight waker : Nat) : Channel α :=
  match s.attempt value weight waker with
  | (s, .inl _) => s
  | (s, .inr listener) => { s with sends := (s.sends.push { value, weight, listener }).1 }

/-- A suspended `send` is polled. -/
def poll (s : Channel α) (key : Nat) (c : Suspended α) (l : EventListener Nat) (waker : Nat) :
    Channel α :=
  match s.event.poll c.listener l waker with
  | (event, false) => { s with event }
  | (event, true) =>
    match { s with event := event.drop c.listener }.attempt c.value c.weight waker with
    | (s, .inl _) => { s with sends := s.sends.remove key }
    | (s, .inr listener) => { s with sends := s.sends.set key { c with listener } }

/-- A suspended `send` is dropped. -/
def cancel (s : Channel α) (key : Nat) (c : Suspended α) : Channel α :=
  { s with event := s.event.drop c.listener, sends := s.sends.remove key }

def trySend (s : Channel α) (value : α) (weight : Nat) : Channel α × SendResult :=
  if !s.receiverExists then
    (s, .closed)
  else if !hasCapacity s.occupation weight s.bound then
    (s, .full)
  else
    { s with occupation := wrappingAdd 64 s.occupation weight }.enqueue value weight

/-- What `recv` and `try_recv` do with the item they get from the queue. -/
def release (s : Channel α) (weight : Nat) : Channel α :=
  let s := { s with occupation := wrappingSub 64 s.occupation weight }
  if hasCapacity s.occupation weight s.bound then
    { s with event := s.event.notifyAll.1 }
  else
    s

/-- A poll of `recv`: with an empty queue it is pending, or returns `None`. -/
def recv (s : Channel α) : Channel α :=
  match s.queue with
  | [] => s
  | (value, weight) :: rest =>
    { s with queue := rest, received := s.received ++ [value] }.release weight

/-- With an empty queue `try_recv` fails. -/
def tryRecv (s : Channel α) : Channel α :=
  match s.queue with
  | [] => s
  | (value, weight) :: rest =>
    { s with queue := rest, received := s.received ++ [value] }.release weight

/-- The drop of the receiver, and then that of the unbounded receiver it owns. -/
def dropReceiver (s : Channel α) : Channel α :=
  { s with
    occupation := 0
    event := s.event.notifyAll.1
    queue := []
    receiverExists := false }

end Channel

inductive Op (α : Type) where
  | send (value : α) (weight waker : Nat)
  | poll (key waker : Nat)
  | cancel (key : Nat)
  | trySend (value : α) (weight : Nat)
  | recv
  | tryRecv
  | dropReceiver
  deriving DecidableEq, Repr

/-- A weight is a machine word, and a receiver that is dropped is not used any more. -/
def Channel.exec (s : Channel α) : Op α → Option (Channel α)
  | .send value weight waker =>
    if weight < 2 ^ 64 then some (s.send value weight waker) else none
  | .poll key waker => do
    let c ← s.sends.get key
    let l ← s.event.listeners.get c.listener
    some (s.poll key c l waker)
  | .cancel key => do
    let c ← s.sends.get key
    some (s.cancel key c)
  | .trySend value weight =>
    if weight < 2 ^ 64 then some (s.trySend value weight).1 else none
  | .recv => if s.receiverExists then some s.recv else none
  | .tryRecv => if s.receiverExists then some s.tryRecv else none
  | .dropReceiver => if s.receiverExists then some s.dropReceiver else none

/-- What the runs of a channel with this bound reach. -/
def Reachable (bound : Nat) : Channel α → Prop :=
  Run.Reachable (· = channel bound) anyStep Channel.exec

namespace Channel

/-! ## What a call does -/

/-- The item is reserved and enqueued. -/
def accept (s : Channel α) (value : α) (weight : Nat) : Channel α :=
  { s with
    occupation := wrappingAdd 64 s.occupation weight
    queue := s.queue ++ [(value, weight)]
    enqueued := s.enqueued ++ [value] }

/-- A new listener is created and polled. -/
def wait (s : Channel α) (waker : Nat) : Channel α :=
  { s with event := (s.event.listen.1.poll s.event.listen.2
      { targetEpoch := s.event.listen.1.epoch, waker := none, notified := false } waker).1 }

theorem attempt_cases (s : Channel α) (value : α) (weight waker : Nat) :
    s.receiverExists = false ∧ s.attempt value weight waker = (s, .inl .closed) ∨
    s.receiverExists = true ∧ hasCapacity s.occupation weight s.bound = true ∧
      s.attempt value weight waker = (s.accept value weight, .inl .ok) ∨
    s.receiverExists = true ∧ hasCapacity s.occupation weight s.bound = false ∧
      s.attempt value weight waker = (s.wait waker, .inr s.event.listen.2) := by
  cases hexists : s.receiverExists with
  | false => exact .inl ⟨rfl, by simp [attempt, hexists]⟩
  | true =>
    refine .inr ?_
    cases hcap : hasCapacity s.occupation weight s.bound with
    | true => exact .inl ⟨rfl, rfl, by simp [attempt, enqueue, accept, hexists, hcap]⟩
    | false => exact .inr ⟨rfl, rfl, by simp [attempt, wait, hexists, hcap]⟩

theorem trySend_cases (s : Channel α) (value : α) (weight : Nat) :
    (s.trySend value weight).1 = s ∨
      s.receiverExists = true ∧ hasCapacity s.occupation weight s.bound = true ∧
        s.trySend value weight = (s.accept value weight, .ok) := by
  cases hexists : s.receiverExists with
  | false => exact .inl (by simp [trySend, hexists])
  | true =>
    cases hcap : hasCapacity s.occupation weight s.bound with
    | true => exact .inr ⟨rfl, rfl, by simp [trySend, enqueue, accept, hexists, hcap]⟩
    | false => exact .inl (by simp [trySend, hexists, hcap])

theorem recv_cases (s : Channel α) :
    s.recv = s ∨ ∃ value weight rest, s.queue = (value, weight) :: rest ∧
      s.recv = { s with
        queue := rest
        received := s.received ++ [value]
        occupation := wrappingSub 64 s.occupation weight
        event := if hasCapacity (wrappingSub 64 s.occupation weight) weight s.bound then
          s.event.notifyAll.1 else s.event } := by
  unfold recv
  split
  · exact .inl rfl
  · next value weight rest hqueue =>
    refine .inr ⟨value, weight, rest, hqueue, ?_⟩
    simp only [release]
    split <;> rfl

/-! ## The books -/

def books (s : Channel α) : Books α where
  occupation := s.occupation
  reserved := []
  queue := s.queue
  taken := none
  enqueued := s.enqueued
  received := s.received

theorem accept_steps {s : Channel α} {value : α} {weight : Nat} (hweight : weight < 2 ^ 64)
    (hcap : hasCapacity s.occupation weight s.bound = true) :
    ReflTransGen (Books.Step s.bound) s.books (s.accept value weight).books :=
  (ReflTransGen.single (Books.Step.reserve (value, weight) hcap hweight)).tail
    (Books.Step.enqueue (List.Perm.refl _))

/-- The receiver takes an item and releases it. -/
theorem recv_steps (s : Channel α) : ReflTransGen (Books.Step s.bound) s.books s.recv.books := by
  rcases s.recv_cases with heq | ⟨value, weight, rest, hqueue, heq⟩ <;> rw [heq]
  exact (ReflTransGen.single (Books.Step.take hqueue rfl)).tail
    (Books.Step.release (value, weight) rfl)

/-- The books are sound as long as there is a receiver. -/
structure Accounted (bound : Nat) (s : Channel α) : Prop where
  bound_eq : s.bound = max bound 1
  weights : ∀ key c, s.sends.get key = some c → c.weight < 2 ^ 64
  books : s.receiverExists = true → s.books.Sound s.bound

variable {bound : Nat} {s s' : Channel α}

theorem accounted_channel (bound : Nat) : Accounted bound (channel bound : Channel α) where
  bound_eq := rfl
  weights key c h := by simp [channel, Slots.empty, Slots.get] at h
  books _ := Books.Sound.empty _

theorem Accounted.remove (h : Accounted bound s) (event : Event Nat) (key : Nat) :
    Accounted bound { s with event, sends := s.sends.remove key } where
  bound_eq := h.bound_eq
  weights key' c hget := by
    simp only [Slots.get_remove] at hget
    split at hget
    · cases hget
    · exact h.weights key' c hget
  books := h.books

theorem Accounted.accept (h : Accounted bound s) (hexists : s.receiverExists = true) {value : α}
    {weight : Nat} (hweight : weight < 2 ^ 64)
    (hcap : hasCapacity s.occupation weight s.bound = true) :
    Accounted bound (s.accept value weight) where
  bound_eq := h.bound_eq
  weights := h.weights
  books _ := (h.books hexists).steps (accept_steps hweight hcap)

theorem Accounted.attempt (h : Accounted bound s) {weight : Nat} (hweight : weight < 2 ^ 64)
    (value : α) (waker : Nat) : Accounted bound (s.attempt value weight waker).1 := by
  rcases s.attempt_cases value weight waker with
    ⟨-, heq⟩ | ⟨hexists, hcap, heq⟩ | ⟨-, -, heq⟩ <;> rw [heq]
  · exact h
  · exact h.accept hexists hweight hcap
  · exact ⟨h.bound_eq, h.weights, h.books⟩

theorem Accounted.recv (h : Accounted bound s) (hexists : s.receiverExists = true) :
    Accounted bound s.recv := by
  have hsound := (h.books hexists).steps s.recv_steps
  rcases s.recv_cases with heq | ⟨value, weight, rest, -, heq⟩ <;> rw [heq] at hsound ⊢
  · exact h
  · exact ⟨h.bound_eq, h.weights, fun _ => hsound⟩

/-- Suspending a call under its key. -/
theorem Accounted.suspend (h : Accounted bound s) {sends : Slots (Suspended α)} {key : Nat}
    {c : Suspended α} (hweight : c.weight < 2 ^ 64)
    (hsends : ∀ k, sends.get k = if k = key then some c else s.sends.get k) :
    Accounted bound { s with sends } where
  bound_eq := h.bound_eq
  weights key' c' hget := by
    simp only [hsends] at hget
    split at hget
    · exact Option.some.inj hget ▸ hweight
    · exact h.weights key' c' hget
  books := h.books

theorem sends_attempt (s : Channel α) (value : α) (weight waker : Nat) :
    (s.attempt value weight waker).1.sends = s.sends := by
  rcases s.attempt_cases value weight waker with ⟨-, heq⟩ | ⟨-, -, heq⟩ | ⟨-, -, heq⟩ <;>
    rw [heq] <;> rfl

theorem Accounted.send (h : Accounted bound s) {weight : Nat} (hweight : weight < 2 ^ 64)
    (value : α) (waker : Nat) : Accounted bound (s.send value weight waker) := by
  have hattempt := h.attempt hweight value waker
  unfold Channel.send
  split
  · next s₁ _ heq => rwa [heq] at hattempt
  · next s₁ listener heq =>
    rw [heq] at hattempt
    exact hattempt.suspend (c := { value, weight, listener }) hweight fun _ => Slots.get_push ..

theorem Accounted.poll (h : Accounted bound s) {key : Nat} {c : Suspended α}
    (hget : s.sends.get key = some c) (l : EventListener Nat) (waker : Nat) :
    Accounted bound (s.poll key c l waker) := by
  have hweight := h.weights key c hget
  unfold Channel.poll
  split
  · exact ⟨h.bound_eq, h.weights, h.books⟩
  · next event _ =>
    have hdropped : Accounted bound { s with event := event.drop c.listener } :=
      ⟨h.bound_eq, h.weights, h.books⟩
    have hattempt := hdropped.attempt hweight c.value waker
    have hsends := sends_attempt { s with event := event.drop c.listener } c.value c.weight waker
    split
    · next s₁ _ heq =>
      rw [heq] at hattempt
      exact hattempt.remove s₁.event key
    · next s₁ listener heq =>
      rw [heq] at hattempt hsends
      refine hattempt.suspend (c := { c with listener }) hweight (Slots.get_set ?_ _)
      simp only at hsends
      simp [hsends, hget]

theorem Accounted.step (h : Accounted bound s) {op : Op α} (hexec : s.exec op = some s') :
    Accounted bound s' := by
  cases op with
  | send value weight waker =>
    simp only [exec, Option.ite_none_right_eq_some, Option.some.injEq] at hexec
    exact hexec.2 ▸ h.send hexec.1 value waker
  | poll key waker =>
    simp only [exec, Option.bind_eq_bind, Option.bind_eq_some_iff, Option.some.injEq] at hexec
    obtain ⟨c, hget, l, -, rfl⟩ := hexec
    exact h.poll hget l waker
  | cancel key =>
    simp only [exec, Option.bind_eq_bind, Option.bind_eq_some_iff, Option.some.injEq] at hexec
    obtain ⟨c, -, rfl⟩ := hexec
    exact h.remove _ key
  | trySend value weight =>
    simp only [exec, Option.ite_none_right_eq_some, Option.some.injEq] at hexec
    obtain ⟨hweight, rfl⟩ := hexec
    rcases s.trySend_cases value weight with heq | ⟨hexists, hcap, heq⟩ <;> rw [heq]
    · exact h
    · exact h.accept hexists hweight hcap
  | recv | tryRecv =>
    simp only [exec, Option.ite_none_right_eq_some, Option.some.injEq] at hexec
    exact hexec.2 ▸ h.recv hexec.1
  | dropReceiver =>
    simp only [exec, Option.ite_none_right_eq_some, Option.some.injEq] at hexec
    obtain ⟨-, rfl⟩ := hexec
    exact ⟨h.bound_eq, h.weights, fun hexists => absurd hexists Bool.false_ne_true⟩

theorem accounted (h : Reachable bound s) : Accounted bound s :=
  Run.Reachable.invariant (fun _ h => h ▸ accounted_channel bound)
    (fun _ _ _ hinv _ hexec => hinv.step hexec) h

/-! ## No sender sleeps while it could proceed -/

/-- The listener will be reached by the next notification, and whoever awaits it has been notified or
cannot proceed. -/
structure Waits (s : Channel α) (c : Suspended α) : Prop where
  reached : s.event.Reached c.listener
  sleeps : s.event.isNotified c.listener = true ∨
    s.receiverExists = true ∧ hasCapacity s.occupation c.weight s.bound = false

/-- The suspended calls `sends` wait, each with a listener of its own. -/
structure AllWait (s : Channel α) (sends : Slots (Suspended α)) : Prop where
  waits : ∀ key c, sends.get key = some c → s.Waits c
  distinct : ∀ key key' c c', sends.get key = some c → sends.get key' = some c' →
    c.listener = c'.listener → key = key'

variable {sends : Slots (Suspended α)}

theorem AllWait.mono (h : AllWait s sends) (hwaits : ∀ c, s.Waits c → s'.Waits c) :
    AllWait s' sends :=
  ⟨fun key c hget => hwaits c (h.waits key c hget), h.distinct⟩

/-- Who waits does not depend on who is suspended. -/
theorem AllWait.with_sends (h : AllWait s sends) (sends' : Slots (Suspended α)) :
    AllWait { s with sends := sends' } sends :=
  h.mono fun _ hc => ⟨hc.reached, hc.sleeps⟩

/-- What does not fit does not fit either after more has been admitted. -/
theorem hasCapacity_eq_false_of_le {occupation occupation' weight bound : Nat}
    (h : hasCapacity occupation weight bound = false) (hle : occupation ≤ occupation') :
    hasCapacity occupation' weight bound = false := by
  rw [← Bool.not_eq_true, hasCapacity_iff] at h ⊢
  omega

theorem Waits.accept {c : Suspended α} (h : s.Waits c) (value : α) {weight : Nat}
    (hweight : weight < 2 ^ 64) (hcap : hasCapacity s.occupation weight s.bound = true) :
    (s.accept value weight).Waits c := by
  refine ⟨h.reached, h.sleeps.imp_right fun ⟨hexists, hfull⟩ => ⟨hexists, ?_⟩⟩
  refine hasCapacity_eq_false_of_le hfull ?_
  have hadd := wrappingAdd_of_lt (add_lt_of_hasCapacity hweight hcap)
  show s.occupation ≤ wrappingAdd 64 s.occupation weight
  omega

/-- After a notification nobody sleeps. -/
theorem Waits.notifyAll {c : Suspended α} (h : s.Waits c) (hevent : s'.event = s.event.notifyAll.1) :
    s'.Waits c := by
  obtain ⟨hnotified, hreached⟩ := h.reached.notifyAll
  exact ⟨hevent ▸ hreached, .inl (hevent ▸ hnotified)⟩

/-- A listener is created and polled: the others are left alone. -/
theorem Waits.wait {c : Suspended α} (h : s.Waits c) (waker : Nat) : (s.wait waker).Waits c := by
  have hget := s.event.get_listen_self
  obtain ⟨hreached, hnotified⟩ := h.reached.listen
  refine ⟨hreached.poll hget waker, h.sleeps.imp_left fun hold => ?_⟩
  exact (Event.isNotified_poll hget waker _).trans (hnotified.trans hold)

/-- The new listener waits, too. -/
theorem reached_wait (s : Channel α) (waker : Nat) :
    (s.wait waker).event.Reached s.event.listen.2 := by
  have hget := s.event.get_listen_self
  refine ⟨(Event.isSome_get_poll hget waker _).trans (by rw [hget]; rfl), .inr ?_⟩
  exact Event.mem_list_of_poll waker (Event.poll_listen s.event waker)

/-- A call returns or is dropped, and its listener with it. -/
theorem AllWait.drop (h : AllWait s sends) {key : Nat} {c : Suspended α}
    (hget : sends.get key = some c) :
    AllWait { s with event := s.event.drop c.listener } (sends.remove key) := by
  have hrest : ∀ k c', (sends.remove key).get k = some c' → k ≠ key ∧ sends.get k = some c' := by
    intro k c' hk
    rw [Slots.get_remove] at hk
    split at hk
    · cases hk
    · next hne => exact ⟨hne, hk⟩
  refine ⟨fun k c' hk => ?_, fun k k' c' c'' hk hk' => ?_⟩
  · obtain ⟨hne, hk⟩ := hrest k c' hk
    have hlistener : c'.listener ≠ c.listener := fun heq => hne (h.distinct _ _ _ _ hk hget heq)
    have hwaits := h.waits k c' hk
    obtain ⟨hreached, hnotified⟩ := hwaits.reached.drop hlistener
    exact ⟨hreached, hwaits.sleeps.imp_left hnotified.trans⟩
  · exact h.distinct _ _ _ _ (hrest _ _ hk).2 (hrest _ _ hk').2

/-- A call is suspended with a new listener. -/
theorem AllWait.suspend (h : AllWait s sends) (key waker : Nat)
    {sends' : Slots (Suspended α)} {c : Suspended α} (hlistener : c.listener = s.event.listen.2)
    (hexists : s.receiverExists = true) (hfull : hasCapacity s.occupation c.weight s.bound = false)
    (hsends : ∀ k, sends'.get k = if k = key then some c else sends.get k) :
    AllWait (s.wait waker) sends' := by
  have hold : ∀ k c', sends.get k = some c' → c'.listener ≠ c.listener := fun k c' hk =>
    hlistener ▸ (h.waits k c' hk).reached.ne_listen
  refine ⟨fun k c' hk => ?_, fun k k' c' c'' hk hk' heq => ?_⟩
  · rw [hsends] at hk
    split at hk
    · obtain rfl := Option.some.inj hk
      exact ⟨hlistener ▸ reached_wait s waker, .inr ⟨hexists, hfull⟩⟩
    · exact (h.waits k c' hk).wait waker
  · rw [hsends] at hk hk'
    split at hk <;> split at hk'
    · next hkey hkey' => exact hkey.trans hkey'.symm
    · obtain rfl := Option.some.inj hk
      exact absurd heq.symm (hold _ _ hk')
    · obtain rfl := Option.some.inj hk'
      exact absurd heq (hold _ _ hk)
    · exact h.distinct _ _ _ _ hk hk' heq

/-- **The receiver notifies when it matters.** It looks at the weight it has removed and not at the
weights that wait; but when it stays silent it has removed an item of weight zero from a channel that
is over its bound, and the occupation is what it was. -/
theorem AllWait.recv (h : AllWait s sends) (haccount : Accounted bound s)
    (hexists : s.receiverExists = true) : AllWait s.recv sends := by
  rcases s.recv_cases with heq | ⟨value, weight, rest, hqueue, heq⟩ <;> rw [heq]
  · exact h
  · have hsound := haccount.books hexists
    have hlt : s.occupation < 2 ^ 64 := hsound.lt
    have hexact : Budget.Exact s.bound s.occupation (weight :: rest.map Prod.snd) := by
      have hcharged : s.books.charged.map Prod.snd = weight :: rest.map Prod.snd := by
        simp [Books.charged, books, hqueue]
      exact hcharged ▸ hsound.exact
    have hle := hexact.le
    have hsub : wrappingSub 64 s.occupation weight = s.occupation - weight := wrappingSub_of_le hle
    split
    · exact h.mono fun c hc => hc.notifyAll rfl
    · next hsilent =>
      simp only [hsub, hasCapacity_iff, not_or] at hsilent
      have hzero : weight = 0 := hexact.eq_zero_of_give (by omega) hsilent.1
      have hsame : wrappingSub 64 s.occupation weight = s.occupation := by omega
      exact h.mono fun c hc => ⟨hc.reached, by simpa only [hsame] using hc.sleeps⟩

theorem AllWait.step (h : AllWait s s.sends) (haccount : Accounted bound s) {op : Op α}
    (hexec : s.exec op = some s') : AllWait s' s'.sends := by
  cases op with
  | send value weight waker =>
    simp only [exec, Option.ite_none_right_eq_some, Option.some.injEq] at hexec
    obtain ⟨hweight, rfl⟩ := hexec
    unfold Channel.send
    rcases s.attempt_cases value weight waker with
      ⟨-, heq⟩ | ⟨-, hcap, heq⟩ | ⟨hexists, hfull, heq⟩ <;> simp only [heq]
    · exact h
    · exact h.mono fun c hc => hc.accept _ hweight hcap
    · exact (h.suspend _ _ (c := ⟨value, weight, s.event.listen.2⟩) rfl hexists hfull
        fun _ => Slots.get_push ..).with_sends _
  | poll key waker =>
    simp only [exec, Option.bind_eq_bind, Option.bind_eq_some_iff, Option.some.injEq] at hexec
    obtain ⟨c, hget, l, hl, rfl⟩ := hexec
    unfold Channel.poll
    split
    · next event heq =>
      have hevent : event = (s.event.poll c.listener l waker).1 := by rw [heq]
      refine h.mono fun c' hc' => ⟨hevent ▸ hc'.reached.poll hl waker, hc'.sleeps.imp_left ?_⟩
      exact fun hnotified => hevent ▸ (Event.isNotified_poll hl waker _).trans hnotified
    · next event heq =>
      have hevent : event = s.event := by
        rcases s.event.poll_cases c.listener l waker with hready | ⟨-, _, -, -, hpending⟩
        · exact (Prod.mk.inj (heq.symm.trans hready)).1
        · cases (Prod.mk.inj (heq.symm.trans hpending)).2
      subst hevent
      have hweight := haccount.weights key c hget
      have hdropped := h.drop hget
      generalize hs : ({ s with event := s.event.drop c.listener } : Channel α) = s₁ at hdropped ⊢
      have hsends : s₁.sends = s.sends := hs ▸ rfl
      rcases s₁.attempt_cases c.value c.weight waker with
        ⟨-, heq⟩ | ⟨-, hcap, heq⟩ | ⟨hexists, hfull, heq⟩ <;> simp only [heq]
      · exact hsends ▸ hdropped.with_sends _
      · have haccept := hdropped.mono fun c' hc' => hc'.accept c.value hweight hcap
        have hsends' : (s₁.accept c.value c.weight).sends = s.sends := hsends
        exact hsends' ▸ haccept.with_sends _
      · refine (hdropped.suspend key waker
          (c := ⟨c.value, c.weight, s₁.event.listen.2⟩) rfl hexists hfull fun k => ?_).with_sends _
        have hold : (s.sends.get key).isSome = true := by rw [hget]; rfl
        have hsends' : (s₁.wait waker).sends = s.sends := hsends
        rw [hsends', Slots.get_set hold, Slots.get_remove]
        split <;> rfl
  | cancel key =>
    simp only [exec, Option.bind_eq_bind, Option.bind_eq_some_iff, Option.some.injEq] at hexec
    obtain ⟨c, hget, rfl⟩ := hexec
    exact (h.drop hget).with_sends _
  | trySend value weight =>
    simp only [exec, Option.ite_none_right_eq_some, Option.some.injEq] at hexec
    obtain ⟨hweight, rfl⟩ := hexec
    rcases s.trySend_cases value weight with heq | ⟨-, hcap, heq⟩ <;> rw [heq]
    · exact h
    · exact h.mono fun c hc => hc.accept _ hweight hcap
  | recv | tryRecv =>
    simp only [exec, Option.ite_none_right_eq_some, Option.some.injEq] at hexec
    obtain ⟨hexists, rfl⟩ := hexec
    have hsends : s.recv.sends = s.sends := by
      rcases s.recv_cases with heq | ⟨_, _, _, -, heq⟩ <;> rw [heq]
    show s.recv.AllWait s.recv.sends
    rw [hsends]
    exact h.recv haccount hexists
  | dropReceiver =>
    simp only [exec, Option.ite_none_right_eq_some, Option.some.injEq] at hexec
    obtain ⟨-, rfl⟩ := hexec
    exact h.mono fun c hc => hc.notifyAll rfl

theorem allWait_channel (bound : Nat) : AllWait (channel bound : Channel α) (channel bound).sends where
  waits key c hget := by simp [channel, Slots.empty, Slots.get] at hget
  distinct key key' c c' hget := by simp [channel, Slots.empty, Slots.get] at hget

theorem allWait (h : Reachable bound s) : AllWait s s.sends := by
  unfold Reachable at h
  induction h with
  | init heq => exact heq ▸ allWait_channel bound
  | step hreach _ hexec ih => exact ih.step (accounted hreach) hexec

end Channel

/-- **No sender sleeps while it could proceed.** Between any two polls: a suspended `send` whose
listener has not been notified waits for a receiver that exists, in a channel that has no capacity for
it. -/
theorem no_sender_sleeps {bound : Nat} {s : Channel α} (h : Reachable bound s) {key : Nat}
    {c : Suspended α} (hsuspended : s.sends.get key = some c)
    (hnotified : s.event.isNotified c.listener = false) :
    s.receiverExists = true ∧ hasCapacity s.occupation c.weight s.bound = false := by
  refine ((Channel.allWait h).waits key c hsuspended).sleeps.resolve_left ?_
  rw [hnotified]
  exact Bool.false_ne_true

/-- A zero weight waits as well, behind an item that is heavier than the bound. -/
theorem zero_weight_waits :
    ∃ (s : Channel Nat) (c : Suspended Nat), Reachable 1 s ∧ s.sends.get 0 = some c ∧
      s.event.isNotified c.listener = false ∧ s.receiverExists = true ∧
      hasCapacity s.occupation c.weight s.bound = false := by
  have hrun : ∃ s : Channel Nat, Reachable 1 s ∧
      decide (s.sends.get 0 = some ⟨9, 0, 0⟩ ∧ s.event.isNotified 0 = false) = true :=
    exists_reachable (some (channel 1)) (fun _ h => (Option.some.inj h).symm)
      [.send 7 0 0, .send 8 5 0, .send 9 0 1, .recv] (by decide +kernel)
  obtain ⟨s, hs, hp⟩ := hrun
  obtain ⟨hsuspended, hnotified⟩ := of_decide_eq_true hp
  exact ⟨s, _, hs, hsuspended, hnotified, no_sender_sleeps hs hsuspended hnotified⟩

end St

end Aquic.Sync.Weighted
