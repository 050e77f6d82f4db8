import Aquic.Lib.Collections
import Aquic.Lib.Run
import Aquic.Sync.Weighted.Books

/-!
# The multi-threaded weighted channel

`sync/mpsc/weighted/mt.rs`. Any number of calls of `send` and `try_send` run concurrently with the
receiver; every access to the shared occupation, to the unbounded queue and to the event is one
atomic step, and the steps interleave arbitrarily. `Pc` is the access a call makes next, with the
local variables it still needs.

A call that has found no capacity registers a listener, and looks at the channel once more before it
parks on it. The listener is registered and possibly notified while it does so, hence the flag of
`rechecking`, `reloading` and `parked`. A listener that was notified and is dropped may hand its
notification on to another one; the model lets any registered listener be notified at any time
(`Op.wake`).

The receiver is dropped in three steps: the body of its `Drop` resets the occupation, then notifies,
and only then the unbounded receiver is dropped and the queue becomes disconnected.
-/

namespace Aquic.Sync.Weighted

open Collections
open Relation (ReflTransGen)
open Run
open Word

variable {α : Type}

/-! ## The parties

The calls and the receiver, each at a place in its code, and what they share. -/

namespace Mt

/-- What a call of `send` or `try_send` does next. -/
inductive Pc where
  /-- `send`: load the occupation. -/
  | loading
  /-- `send`, head of the loop: check for closure, then look for capacity in what was loaded. -/
  | checking (current : Nat)
  /-- `try_send`: check for closure. -/
  | tryChecking
  /-- `try_send`: load the occupation and look for capacity. -/
  | tryLoading
  /-- There is capacity: compare and exchange. -/
  | reserving (current : Nat)
  /-- There is no capacity: register a listener. -/
  | listening
  /-- Check for closure once more. -/
  | rechecking (notified : Bool)
  /-- Load the occupation and look for capacity once more. -/
  | reloading (notified : Bool)
  /-- Suspended on the listener. -/
  | parked (notified : Bool)
  /-- The weight is reserved: send the item to the queue. -/
  | enqueuing
  /-- The queue was closed: reset the occupation. -/
  | clearing
  /-- The queue was closed: notify. -/
  | notifying
  | returned (result : SendResult)
  deriving DecidableEq, Repr

structure Call (α : Type) where
  value : α
  weight : Nat
  /-- Whether this is a call of `try_send`. -/
  isTry : Bool
  pc : Pc
  deriving DecidableEq, Repr

/-- What the receiver does next. -/
inductive ReceiverPc (α : Type) where
  | idle
  /-- `recv` or `try_recv` got an item: subtract its weight from the occupation. -/
  | releasing (value : α) (weight : Nat)
  /-- Its weight would fit again: notify. -/
  | notifying (value : α)
  /-- `drop`: reset the occupation. -/
  | dropping
  /-- `drop`: notify. -/
  | dropNotifying
  /-- Drop the unbounded receiver. -/
  | dropInner
  | gone
  deriving DecidableEq, Repr

/-- The channel, with its callers. -/
structure Channel (α : Type) where
  occupation : Nat
  bound : Nat
  /-- The unbounded queue. -/
  queue : List (α × Nat)
  calls : Slots (Call α)
  receiver : ReceiverPc α
  /-- History: all values that were enqueued. -/
  enqueued : List α
  /-- History: all values the receiver has returned. -/
  received : List α
  deriving DecidableEq, Repr

def channel (bound : Nat) : Channel α where
  occupation := 0
  bound := max bound 1
  queue := []
  calls := .empty
  receiver := .idle
  enqueued := []
  received := []

/-! ## One access

A party does its next access, and goes on to the place where the code goes on with what it has read. -/

/-- The receiver is alive: its drop has not begun. -/
def ReceiverPc.isAlive : ReceiverPc α → Bool
  | .idle => true
  | .releasing .. => true
  | .notifying _ => true
  | _ => false

/-- A notification reaches every listener that is registered. -/
def Pc.notify : Pc → Pc
  | .rechecking _ => .rechecking true
  | .reloading _ => .reloading true
  | .parked _ => .parked true
  | pc => pc

def Call.notify (c : Call α) : Call α := { c with pc := c.pc.notify }

/-- Where a call goes on with an occupation that it has just read. -/
def Call.resume (c : Call α) (current bound : Nat) : Pc :=
  if c.isTry then
    if hasCapacity current c.weight bound then .reserving current else .returned .full
  else
    .checking current

namespace Channel

/-- `is_closed` of a sender: the queue is disconnected. -/
def isClosed (s : Channel α) : Bool :=
  match s.receiver with
  | .gone => true
  | _ => false

/-- `event.notify(usize::MAX)`. -/
def notifyAll (s : Channel α) : Channel α := { s with calls := s.calls.map Call.notify }

/-- The call goes on at `pc`. -/
def goto (s : Channel α) (key : Nat) (c : Call α) (pc : Pc) : Channel α :=
  { s with calls := s.calls.set key { c with pc } }

/-! ### The calls

A call of `try_send` returns where a call of `send` goes on to wait. -/

/-- The next step of a call; `weak` makes the compare-and-exchange fail for no reason. -/
def callStep (s : Channel α) (key : Nat) (c : Call α) (weak : Bool) : Option (Channel α) :=
  match c.pc with
  | .loading => some (s.goto key c (.checking s.occupation))
  | .checking current =>
    if s.isClosed then
      some (s.goto key c (.returned .closed))
    else if hasCapacity current c.weight s.bound then
      some (s.goto key c (.reserving current))
    else
      some (s.goto key c .listening)
  | .tryChecking =>
    if s.isClosed then some (s.goto key c (.returned .closed)) else some (s.goto key c .tryLoading)
  | .tryLoading => some (s.goto key c (c.resume s.occupation s.bound))
  | .reserving current =>
    if s.occupation = current ∧ weak = false then
      some { s.goto key c .enqueuing with occupation := wrappingAdd 64 current c.weight }
    else
      some (s.goto key c (c.resume s.occupation s.bound))
  | .listening => some (s.goto key c (.rechecking false))
  | .rechecking notified =>
    if s.isClosed then
      some (s.goto key c (.returned .closed))
    else
      some (s.goto key c (.reloading notified))
  | .reloading notified =>
    if hasCapacity s.occupation c.weight s.bound then
      some (s.goto key c (.checking s.occupation))
    else
      some (s.goto key c (.parked notified))
  | .parked false => none
  | .parked true => some (s.goto key c (.checking s.occupation))
  | .enqueuing =>
    if s.isClosed then
      some (s.goto key c .clearing)
    else
      some { s.goto key c (.returned .ok) with
        queue := s.queue ++ [(c.value, c.weight)], enqueued := s.enqueued ++ [c.value] }
  | .clearing => some { s.goto key c .notifying with occupation := 0 }
  | .notifying => some (s.goto key c (.returned .closed)).notifyAll
  | .returned _ => none

/-! ### The receiver

It releases the weight of an item after it has taken the item out of the queue, in a step of its own. -/

/-- `recv` or `try_recv` asks the queue; without an item they change nothing. -/
def take (s : Channel α) : Channel α :=
  match s.queue with
  | [] => s
  | (value, weight) :: rest => { s with queue := rest, receiver := .releasing value weight }

/-- The call of the receiver in progress returns. -/
def deliver (s : Channel α) (value : α) : Channel α :=
  { s with receiver := .idle, received := s.received ++ [value] }

/-- The next step of the receiver. -/
def receiverStep (s : Channel α) : Option (Channel α) :=
  match s.receiver with
  | .idle => none
  | .releasing value weight =>
    -- `previous - weight` is what is stored
    let s := { s with occupation := wrappingSub 64 s.occupation weight }
    if hasCapacity s.occupation weight s.bound then
      some { s with receiver := .notifying value }
    else
      some (s.deliver value)
  | .notifying value => some (s.notifyAll.deliver value)
  | .dropping => some { s with occupation := 0, receiver := .dropNotifying }
  | .dropNotifying => some { s.notifyAll with receiver := .dropInner }
  | .dropInner => some { s with queue := [], receiver := .gone }
  | .gone => none

end Channel

/-! ## Interleavings

A call begins, a party takes a step, or a suspended call is dropped: in any order. -/

inductive Op (α : Type) where
  | send (value : α) (weight : Nat)
  | trySend (value : α) (weight : Nat)
  /-- A call takes its next step. -/
  | call (key : Nat) (weak : Bool)
  /-- A suspended call is dropped. -/
  | cancel (key : Nat)
  /-- The listener of a call is notified on behalf of another one. -/
  | wake (key : Nat)
  | recv
  | tryRecv
  /-- The receiver takes its next step. -/
  | receiver
  | dropReceiver
  deriving DecidableEq, Repr

def Channel.exec (s : Channel α) : Op α → Option (Channel α)
  | .send value weight =>
    if weight < 2 ^ 64 then
      some { s with calls := (s.calls.push { value, weight, isTry := false, pc := .loading }).1 }
    else none
  | .trySend value weight =>
    if weight < 2 ^ 64 then
      some { s with calls := (s.calls.push { value, weight, isTry := true, pc := .tryChecking }).1 }
    else none
  | .call key weak => do
    let c ← s.calls.get key
    s.callStep key c weak
  | .cancel key => do
    let c ← s.calls.get key
    match c.pc with
    | .parked _ => some { s with calls := s.calls.remove key }
    | _ => none
  | .wake key => do
    let c ← s.calls.get key
    some { s with calls := s.calls.set key c.notify }
  | .recv =>
    match s.receiver with
    | .idle => some s.take
    | _ => none
  | .tryRecv =>
    match s.receiver with
    | .idle => some s.take
    | _ => none
  | .receiver => s.receiverStep
  | .dropReceiver =>
    match s.receiver with
    | .idle => some { s with receiver := .dropping }
    | _ => none

/-- What the runs of a channel with this bound reach. -/
def Reachable (bound : Nat) : Channel α → Prop :=
  Run.Reachable (· = channel bound) anyStep Channel.exec

namespace Channel

/-! ## The steps of a call

What a step amounts to for the channel, with the checks behind it: the proofs below look at these five cases
instead of the code. -/

/-- What a step of a call can do, with what it has checked. -/
inductive CallStep (s : Channel α) (key : Nat) (c : Call α) : Channel α → Prop
  /-- Nothing but the call itself changes. -/
  | goto (pc : Pc) : (c.pc = .enqueuing → s.isClosed = true) → pc ≠ .enqueuing → pc ≠ .notifying →
      (∀ current, pc = .reserving current → hasCapacity current c.weight s.bound = true) →
      (pc = .clearing → s.isClosed = true) →
      (pc = .parked false →
        c.pc = .reloading false ∧ hasCapacity s.occupation c.weight s.bound = false) →
      CallStep s key c (s.goto key c pc)
  | reserve : c.pc = .reserving s.occupation →
      CallStep s key c { s.goto key c .enqueuing with
        occupation := wrappingAdd 64 s.occupation c.weight }
  | enqueue : c.pc = .enqueuing → s.isClosed = false →
      CallStep s key c { s.goto key c (.returned .ok) with
        queue := s.queue ++ [(c.value, c.weight)], enqueued := s.enqueued ++ [c.value] }
  | clear : c.pc = .clearing → CallStep s key c { s.goto key c .notifying with occupation := 0 }
  | notify : c.pc = .notifying → CallStep s key c (s.goto key c (.returned .closed)).notifyAll

theorem CallStep.resume {s : Channel α} {key : Nat} {c : Call α} (hpc : c.pc ≠ .enqueuing) :
    CallStep s key c (s.goto key c (c.resume s.occupation s.bound)) := by
  refine .goto _ (fun h => absurd h hpc) ?_ ?_ ?_ ?_ ?_ <;> unfold Call.resume <;> grind

theorem callStep_sound {s s' : Channel α} {key : Nat} {c : Call α} {weak : Bool}
    (h : s.callStep key c weak = some s') : CallStep s key c s' := by
  cases hpc : c.pc with
  | loading | listening =>
    simp only [callStep, hpc, Option.some.injEq] at h
    subst h
    refine .goto _ ?_ ?_ ?_ ?_ ?_ ?_ <;> simp [hpc]
  | checking current =>
    simp only [callStep, hpc] at h
    split at h
    · cases h
      refine .goto _ ?_ ?_ ?_ ?_ ?_ ?_ <;> simp [hpc]
    · split at h
      · next hcap =>
        cases h
        refine .goto _ ?_ ?_ ?_ ?_ ?_ ?_ <;> simp [hpc, hcap]
      · cases h
        refine .goto _ ?_ ?_ ?_ ?_ ?_ ?_ <;> simp [hpc]
  | tryChecking | rechecking notified =>
    simp only [callStep, hpc] at h
    split at h <;> cases h <;> refine .goto _ ?_ ?_ ?_ ?_ ?_ ?_ <;> simp [hpc]
  | tryLoading =>
    simp only [callStep, hpc, Option.some.injEq] at h
    exact h ▸ .resume (by simp [hpc])
  | reserving current =>
    simp only [callStep, hpc] at h
    split at h
    · next heq =>
      obtain ⟨rfl, -⟩ := heq
      cases h
      exact .reserve hpc
    · cases h
      exact .resume (by simp [hpc])
  | reloading notified =>
    simp only [callStep, hpc] at h
    split at h
    · cases h
      refine .goto _ ?_ ?_ ?_ ?_ ?_ ?_ <;> simp [hpc]
    · next hcap =>
      cases h
      refine .goto _ ?_ ?_ ?_ ?_ ?_ ?_ <;> simp [hpc, hcap]
  | parked notified =>
    cases notified with
    | false => simp [callStep, hpc] at h
    | true =>
      simp only [callStep, hpc, Option.some.injEq] at h
      subst h
      refine .goto _ ?_ ?_ ?_ ?_ ?_ ?_ <;> simp [hpc]
  | enqueuing =>
    simp only [callStep, hpc] at h
    split at h
    · next hclosed =>
      cases h
      refine .goto _ ?_ ?_ ?_ ?_ ?_ ?_ <;> simp [hclosed]
    · next hopen =>
      cases h
      exact .enqueue hpc (by simpa using hopen)
  | clearing =>
    simp only [callStep, hpc, Option.some.injEq] at h
    exact h ▸ .clear hpc
  | notifying =>
    simp only [callStep, hpc, Option.some.injEq] at h
    exact h ▸ .notify hpc
  | returned result => simp [callStep, hpc] at h

end Channel

/-! ## The books

Who holds the weight that is in the occupation: the queue, a call that has reserved it, or the receiver. -/

/-- The item whose weight the call has reserved. -/
def Call.reserved (c : Call α) : Option (α × Nat) :=
  match c.pc with
  | .enqueuing => some (c.value, c.weight)
  | _ => none

/-- The item whose weight the receiver has to release. -/
def ReceiverPc.taken : ReceiverPc α → Option (α × Nat)
  | .releasing value weight => some (value, weight)
  | _ => none

/-- The value the receiver is about to return. -/
def ReceiverPc.inHand : ReceiverPc α → List α
  | .releasing value _ => [value]
  | .notifying value => [value]
  | _ => []

theorem Call.reserved_of_ne {c : Call α} (h : c.pc ≠ .enqueuing) : c.reserved = none := by
  unfold Call.reserved
  split
  · next heq => exact absurd heq h
  · rfl

theorem Call.reserved_of_eq {c : Call α} (h : c.pc = .enqueuing) :
    c.reserved = some (c.value, c.weight) := by
  simp [Call.reserved, h]

theorem Pc.notify_eq_of_ne {pc pc' : Pc} (h : pc.notify = pc')
    (hne : ∀ notified, pc' ≠ .rechecking notified ∧ pc' ≠ .reloading notified ∧
      pc' ≠ .parked notified) : pc = pc' := by
  cases pc <;> simp_all [Pc.notify]

theorem Call.reserved_notify (c : Call α) : c.notify.reserved = c.reserved := by
  unfold Call.reserved Call.notify
  cases hpc : c.pc <;> rfl

namespace Channel

/-! ### Steps of the books

Most accesses change nothing in the books. The exchange of the occupation reserves, the queue takes over what
was reserved, the receiver takes an item, and in the end it releases the weight. -/

def books (s : Channel α) : Books α where
  occupation := s.occupation
  reserved := s.calls.collect Call.reserved
  queue := s.queue
  taken := s.receiver.taken
  enqueued := s.enqueued
  received := s.received ++ s.receiver.inHand

theorem not_isAlive_of_isClosed {s : Channel α} (h : s.isClosed = true) :
    ¬ s.receiver.isAlive = true := by
  unfold isClosed at h
  cases hreceiver : s.receiver <;> simp_all [ReceiverPc.isAlive]

section

variable {s : Channel α} {key : Nat} {c : Call α} {bound : Nat}

theorem goto_steps (hget : s.calls.get key = some c) (hold : c.pc ≠ .enqueuing) {pc : Pc}
    (hnew : pc ≠ .enqueuing) :
    ReflTransGen (Books.Step bound) s.books (s.goto key c pc).books := by
  have hperm := Slots.collect_set hget { c with pc } Call.reserved
  rw [Call.reserved_of_ne hold, Call.reserved_of_ne hnew] at hperm
  exact .single (.reorder hperm.symm)

theorem reserve_steps (hget : s.calls.get key = some c) (hpc : c.pc = .reserving s.occupation)
    (hweight : c.weight < 2 ^ 64) (hcap : hasCapacity s.occupation c.weight bound = true) :
    ReflTransGen (Books.Step bound) s.books
      ({ s.goto key c .enqueuing with
        occupation := wrappingAdd 64 s.occupation c.weight } : Channel α).books := by
  have hperm := Slots.collect_set hget { c with pc := .enqueuing } Call.reserved
  rw [Call.reserved_of_ne (by simp [hpc]), Call.reserved_of_eq rfl] at hperm
  exact (ReflTransGen.single (Books.Step.reserve (c.value, c.weight) hcap hweight)).tail
    (.reorder hperm.symm)

theorem enqueue_steps (hget : s.calls.get key = some c) (hpc : c.pc = .enqueuing) :
    ReflTransGen (Books.Step bound) s.books
      ({ s.goto key c (.returned .ok) with
        queue := s.queue ++ [(c.value, c.weight)]
        enqueued := s.enqueued ++ [c.value] } : Channel α).books := by
  have hperm := Slots.collect_set hget { c with pc := .returned .ok } Call.reserved
  rw [Call.reserved_of_eq hpc, Call.reserved_of_ne (by simp)] at hperm
  exact .single (Books.Step.enqueue hperm.symm)

theorem books_notifyAll (s : Channel α) : s.notifyAll.books = s.books := by
  have hcollect : s.notifyAll.calls.collect Call.reserved = s.calls.collect Call.reserved := by
    refine (Slots.collect_map ..).trans (congrArg _ ?_)
    funext c
    exact c.reserved_notify
  unfold books
  rw [hcollect]
  rfl

theorem take_steps (hidle : s.receiver = .idle) :
    ReflTransGen (Books.Step bound) s.books s.take.books := by
  unfold take
  split
  · exact .refl
  · next value weight rest hqueue =>
    have htaken : s.books.taken = none := by simp [books, hidle, ReceiverPc.taken]
    have hreceived : s.books.received = s.received := by simp [books, hidle, ReceiverPc.inHand]
    have hstep : Books.Step bound s.books _ := .take hqueue htaken
    rw [hreceived] at hstep
    exact .single hstep

theorem release_steps {value : α} {weight : Nat} (hpc : s.receiver = .releasing value weight)
    {s' : Channel α} (h : s.receiverStep = some s') :
    ReflTransGen (Books.Step bound) s.books s'.books := by
  have htaken : s.books.taken = some (value, weight) := by simp [books, hpc, ReceiverPc.taken]
  have hstep : Books.Step bound s.books _ := .release (value, weight) htaken
  simp only [receiverStep, hpc] at h
  split at h
  · cases h
    refine .single ?_
    simpa [books, hpc, ReceiverPc.taken, ReceiverPc.inHand] using hstep
  · cases h
    refine .single ?_
    simpa [books, hpc, ReceiverPc.taken, ReceiverPc.inHand, deliver] using hstep

end

/-! ## The invariant

The books are sound, and the place of a call tells what it has found. -/

/-- What is true of every call. -/
structure CallOk (s : Channel α) (c : Call α) : Prop where
  weight : c.weight < 2 ^ 64
  reserving : ∀ current, c.pc = .reserving current →
    hasCapacity current c.weight s.bound = true
  closed : c.pc = .clearing ∨ c.pc = .notifying → s.isClosed = true

/-- The books are sound as long as the receiver is alive. -/
structure Accounted (bound : Nat) (s : Channel α) : Prop where
  bound_eq : s.bound = max bound 1
  calls : ∀ key c, s.calls.get key = some c → s.CallOk c
  books : s.receiver.isAlive = true → s.books.Sound s.bound

variable {bound : Nat} {s s' : Channel α} {key : Nat} {c : Call α}

theorem accounted_channel (bound : Nat) : Accounted bound (channel bound : Channel α) where
  bound_eq := rfl
  calls key c h := by simp [channel, Slots.empty, Slots.get] at h
  books _ := Books.Sound.empty _

theorem CallOk.mono (h : s.CallOk c) (hbound : s'.bound = s.bound)
    (hclosed : s.isClosed = true → s'.isClosed = true) : s'.CallOk c :=
  ⟨h.weight, hbound ▸ h.reserving, fun hpc => hclosed (h.closed hpc)⟩

theorem CallOk.notify (h : s.CallOk c) : s.CallOk c.notify where
  weight := h.weight
  reserving current hpc := h.reserving current (Pc.notify_eq_of_ne hpc (by simp))
  closed hpc := by
    refine h.closed (hpc.imp (Pc.notify_eq_of_ne · ?_) (Pc.notify_eq_of_ne · ?_)) <;> simp

/-- How the invariant goes on: the books take steps, and no call is new. -/
theorem Accounted.frame (h : Accounted bound s) (hbound : s'.bound = s.bound)
    (hclosed : s.isClosed = true → s'.isClosed = true)
    (hcalls : ∀ k c', s'.calls.get k = some c' → s.CallOk c')
    (hbooks : s'.receiver.isAlive = true → s.receiver.isAlive = true ∧
      ReflTransGen (Books.Step s.bound) s.books s'.books) : Accounted bound s' where
  bound_eq := hbound.trans h.bound_eq
  calls k c' hk := (hcalls k c' hk).mono hbound hclosed
  books halive := by
    obtain ⟨halive, hsteps⟩ := hbooks halive
    exact hbound ▸ (h.books halive).steps hsteps

theorem calls_notifyAll (h : ∀ k c', s.calls.get k = some c' → s.CallOk c') :
    ∀ k c', s.notifyAll.calls.get k = some c' → s.CallOk c' := by
  intro k c' hk
  simp only [Channel.notifyAll, Slots.get_map, Option.map_eq_some_iff] at hk
  obtain ⟨c, hk, rfl⟩ := hk
  exact (h k c hk).notify

/-- The calls after one of them has gone on. -/
theorem calls_set (h : Accounted bound s) (hget : s.calls.get key = some c) {c₁ : Call α}
    (hok : s.CallOk c₁) : ∀ k c', (s.calls.set key c₁).get k = some c' → s.CallOk c' := by
  intro k c' hk
  rw [Slots.get_set (by simp [hget])] at hk
  split at hk
  · exact Option.some.inj hk ▸ hok
  · exact h.calls k c' hk

/-! ### Each operation

The invariant is kept by a step of a call, by a step of the receiver, and by what begins a new call. -/

theorem Accounted.callStep (h : Accounted bound s) (hget : s.calls.get key = some c)
    (hstep : CallStep s key c s') : Accounted bound s' := by
  have hok := h.calls key c hget
  cases hstep with
  | goto pc hold hnew hnotifying hreserving hclearing _ =>
    have hok' : s.CallOk { c with pc } := ⟨hok.weight, hreserving, fun hpc =>
      hpc.elim hclearing fun heq => absurd heq hnotifying⟩
    refine h.frame rfl id (calls_set h hget hok') fun halive => ⟨halive, ?_⟩
    have hopen : c.pc ≠ .enqueuing := fun heq => not_isAlive_of_isClosed (hold heq) halive
    exact goto_steps hget hopen hnew
  | reserve hpc =>
    have hok' : s.CallOk { c with pc := .enqueuing } := ⟨hok.weight, by simp, by simp⟩
    refine h.frame rfl id (calls_set h hget hok') fun halive => ⟨halive, ?_⟩
    exact reserve_steps hget hpc hok.weight (hok.reserving _ hpc)
  | enqueue hpc _ =>
    have hok' : s.CallOk { c with pc := .returned .ok } := ⟨hok.weight, by simp, by simp⟩
    refine h.frame rfl id (calls_set h hget hok') fun halive => ⟨halive, ?_⟩
    exact enqueue_steps hget hpc
  | clear hpc =>
    have hclosed := hok.closed (.inl hpc)
    have hok' : s.CallOk { c with pc := .notifying } := ⟨hok.weight, by simp, fun _ => hclosed⟩
    exact h.frame rfl id (calls_set h hget hok')
      fun halive => absurd halive (not_isAlive_of_isClosed hclosed)
  | notify hpc =>
    have hclosed := hok.closed (.inr hpc)
    have hok' : s.CallOk { c with pc := .returned .closed } := ⟨hok.weight, by simp, by simp⟩
    have hcalls : ∀ k c', (s.goto key c (.returned .closed)).calls.get k = some c' →
        (s.goto key c (.returned .closed)).CallOk c' := fun k c' hk =>
      (calls_set h hget hok' k c' hk).mono rfl id
    exact h.frame rfl id (fun k c' hk => (calls_notifyAll hcalls k c' hk).mono rfl id)
      fun halive => absurd halive (not_isAlive_of_isClosed hclosed)

theorem Accounted.receiverStep (h : Accounted bound s) (hstep : s.receiverStep = some s') :
    Accounted bound s' := by
  cases hpc : s.receiver with
  | idle | gone => simp [Channel.receiverStep, hpc] at hstep
  | releasing value weight =>
    have hsteps : ReflTransGen (Books.Step s.bound) s.books s'.books := release_steps hpc hstep
    have hframe : s'.bound = s.bound ∧ s'.calls = s.calls := by
      simp only [Channel.receiverStep, hpc] at hstep
      split at hstep <;> cases hstep <;> exact ⟨rfl, rfl⟩
    exact h.frame hframe.1 (by simp [isClosed, hpc]) (hframe.2 ▸ h.calls)
      fun _ => ⟨by simp [hpc, ReceiverPc.isAlive], hsteps⟩
  | notifying value =>
    simp only [Channel.receiverStep, hpc, Option.some.injEq] at hstep
    subst hstep
    refine h.frame rfl (by simp [isClosed, hpc]) (calls_notifyAll h.calls) fun _ => ?_
    have hbooks : (s.notifyAll.deliver value).books = s.books := by
      rw [← s.books_notifyAll]
      simp [Channel.books, deliver, Channel.notifyAll, hpc, ReceiverPc.taken, ReceiverPc.inHand]
    exact ⟨by simp [hpc, ReceiverPc.isAlive], hbooks ▸ .refl⟩
  | dropping | dropInner =>
    simp only [Channel.receiverStep, hpc, Option.some.injEq] at hstep
    subst hstep
    exact h.frame rfl (by simp [isClosed, hpc]) h.calls
      fun halive => absurd halive Bool.false_ne_true
  | dropNotifying =>
    simp only [Channel.receiverStep, hpc, Option.some.injEq] at hstep
    subst hstep
    exact h.frame rfl (by simp [isClosed, hpc]) (calls_notifyAll h.calls)
      fun halive => absurd halive Bool.false_ne_true

/-- A call begins. -/
theorem Accounted.push (h : Accounted bound s) {c : Call α} (hweight : c.weight < 2 ^ 64)
    (hpc : c.pc = .loading ∨ c.pc = .tryChecking) :
    Accounted bound { s with calls := (s.calls.push c).1 } := by
  have hok : s.CallOk c := by
    refine ⟨hweight, fun current heq => ?_, fun heq => ?_⟩
    · simp [heq] at hpc
    · rcases heq with heq | heq <;> simp [heq] at hpc
  refine h.frame rfl id ?_ fun halive => ⟨halive, ?_⟩
  · intro k c' hk
    rw [Slots.get_push] at hk
    split at hk
    · exact Option.some.inj hk ▸ hok
    · exact h.calls k c' hk
  · have hcollect : (s.calls.push c).1.collect Call.reserved = s.calls.collect Call.reserved := by
      rw [Slots.collect_push, Call.reserved_of_ne (by rcases hpc with h | h <;> simp [h])]
      exact List.append_nil _
    unfold Channel.books
    rw [hcollect]

theorem Accounted.take (h : Accounted bound s) (hidle : s.receiver = .idle) :
    Accounted bound s.take := by
  have hframe : s.take.bound = s.bound ∧ s.take.calls = s.calls := by
    unfold Channel.take
    split <;> exact ⟨rfl, rfl⟩
  exact h.frame hframe.1 (by simp [isClosed, hidle]) (hframe.2 ▸ h.calls)
    fun _ => ⟨by simp [hidle, ReceiverPc.isAlive], take_steps hidle⟩

theorem Accounted.step (h : Accounted bound s) {op : Op α} (hexec : s.exec op = some s') :
    Accounted bound s' := by
  cases op with
  | send value weight =>
    simp only [exec, Option.ite_none_right_eq_some, Option.some.injEq] at hexec
    exact hexec.2 ▸ h.push hexec.1 (.inl rfl)
  | trySend value weight =>
    simp only [exec, Option.ite_none_right_eq_some, Option.some.injEq] at hexec
    exact hexec.2 ▸ h.push hexec.1 (.inr rfl)
  | call key weak =>
    simp only [exec, Option.bind_eq_bind, Option.bind_eq_some_iff] at hexec
    obtain ⟨c, hget, hstep⟩ := hexec
    exact h.callStep hget (callStep_sound hstep)
  | cancel key =>
    simp only [exec, Option.bind_eq_bind, Option.bind_eq_some_iff] at hexec
    obtain ⟨c, hget, hstep⟩ := hexec
    split at hstep
    · next hpc =>
      cases hstep
      refine h.frame rfl id (fun k c' hk => ?_) fun halive => ⟨halive, ?_⟩
      · rw [Slots.get_remove] at hk
        split at hk
        · cases hk
        · exact h.calls k c' hk
      · have hperm := Slots.collect_remove hget Call.reserved
        rw [Call.reserved_of_ne (by simp [hpc])] at hperm
        exact .single (.reorder hperm.symm)
    · cases hstep
  | wake key =>
    simp only [exec, Option.bind_eq_bind, Option.bind_eq_some_iff, Option.some.injEq] at hexec
    obtain ⟨c, hget, rfl⟩ := hexec
    refine h.frame rfl id (calls_set h hget (h.calls key c hget).notify) fun halive => ⟨halive, ?_⟩
    have hperm := Slots.collect_set hget c.notify Call.reserved
    rw [Call.reserved_notify] at hperm
    exact .single (.reorder (List.perm_append_left_iff _ |>.mp hperm).symm)
  | recv | tryRecv =>
    simp only [exec] at hexec
    split at hexec
    · next hidle => exact Option.some.inj hexec ▸ h.take hidle
    · cases hexec
  | receiver => exact h.receiverStep hexec
  | dropReceiver =>
    simp only [exec] at hexec
    split at hexec
    · next hidle =>
      cases hexec
      exact h.frame rfl (by simp [isClosed, hidle]) h.calls
        fun halive => absurd halive Bool.false_ne_true
    · cases hexec

theorem accounted (h : Reachable bound s) : Accounted bound s :=
  Run.Reachable.invariant (fun _ h => h ▸ accounted_channel bound)
    (fun _ _ _ hinv _ hexec => hinv.step hexec) h

end Channel

end Mt

end Aquic.Sync.Weighted
