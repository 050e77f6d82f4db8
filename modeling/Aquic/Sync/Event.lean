import Aquic.Lib.Collections
import Mathlib.Algebra.Group.Nat.Defs

/-!
# The event

`sync/util/event.rs`: the single-threaded event. A listener remembers the epoch in which it was
created; `notify_all` starts a new epoch and notifies the waiters of the listeners that have been
polled, which it finds in an intrusive list. Here the address of a listener is a key that is never
used again, and the list is a list of such keys.

A waiter is linked by the first poll that finds it pending, and unlinked by `notify_all` or when the
listener is dropped.
-/

namespace Aquic.Sync

open Collections

/-- `EventListener`, with the state of its waiter. -/
structure EventListener (ω : Type) where
  targetEpoch : Nat
  waker : Option ω
  notified : Bool
  deriving DecidableEq, Repr

structure Event (ω : Type) where
  epoch : Nat
  /-- The linked waiters, the oldest first. -/
  list : List Nat
  /-- All listeners that exist. -/
  listeners : Slots (EventListener ω)
  deriving DecidableEq, Repr

namespace Event

variable {ω : Type}

def new : Event ω where
  epoch := 0
  list := []
  listeners := .empty

def listen (e : Event ω) : Event ω × Nat :=
  let (listeners, key) := e.listeners.push
    { targetEpoch := e.epoch, waker := none, notified := false }
  ({ e with listeners }, key)

/-- One round of the loop of `notify_all`. -/
def notifyOne (listeners : Slots (EventListener ω)) (key : Nat) :
    Slots (EventListener ω) × List ω :=
  match listeners.get key with
  | none => (listeners, [])
  | some l => (listeners.set key { l with notified := true, waker := none }, l.waker.toList)

/-- The loop of `notify_all`; the wakers are the ones it wakes, in this order. -/
def notifyLoop : List Nat → Slots (EventListener ω) → Slots (EventListener ω) × List ω
  | [], listeners => (listeners, [])
  | key :: list, listeners =>
    let (listeners, woken) := notifyOne listeners key
    let (listeners, rest) := notifyLoop list listeners
    (listeners, woken ++ rest)

def notifyAll (e : Event ω) : Event ω × List ω :=
  let (listeners, woken) := notifyLoop e.list e.listeners
  ({ epoch := (e.epoch + 1) % 2 ^ 64, list := [], listeners }, woken)

/-- `EventListener::poll`; `true` is `Poll::Ready`. -/
def poll (e : Event ω) (key : Nat) (l : EventListener ω) (waker : ω) : Event ω × Bool :=
  if e.epoch ≠ l.targetEpoch then
    (e, true)
  else if l.notified then
    (e, true)
  else
    ({ e with
        list := if key ∈ e.list then e.list else e.list ++ [key]
        listeners := e.listeners.set key { l with waker := some waker } }, false)

/-- `EventListener::drop`. -/
def drop (e : Event ω) (key : Nat) : Event ω :=
  { e with list := e.list.erase key, listeners := e.listeners.remove key }

/-- The listener was notified since it exists. -/
def isNotified (e : Event ω) (key : Nat) : Bool := (e.listeners.get key).any (·.notified)

/-! ## What the operations do to a listener -/

/-- A round of the loop touches the listener of its waiter only. -/
theorem get_notifyOne (listeners : Slots (EventListener ω)) (key key' : Nat) :
    (notifyOne listeners key).1.get key' = if key' = key then
      (listeners.get key).map fun l => { l with notified := true, waker := none }
    else listeners.get key' := by
  unfold notifyOne
  split
  · next hget =>
    split
    · next heq => rw [heq, hget]; rfl
    · rfl
  · next l hget => rw [Slots.get_set (by simp [hget]), hget]; rfl

@[simp]
theorem isSome_get_notifyOne (listeners : Slots (EventListener ω)) (key key' : Nat) :
    ((notifyOne listeners key).1.get key').isSome = (listeners.get key').isSome := by
  rw [get_notifyOne]
  split
  · next heq => rw [heq, Option.isSome_map]
  · rfl

theorem any_get_notifyOne {listeners : Slots (EventListener ω)} {key key' : Nat}
    (h : (listeners.get key').any (·.notified) = true ∨ key' = key)
    (hexists : (listeners.get key').isSome = true) :
    ((notifyOne listeners key).1.get key').any (·.notified) = true := by
  rw [get_notifyOne]
  split
  · next heq =>
    obtain ⟨l, hget⟩ := Option.isSome_iff_exists.mp hexists
    rw [← heq, hget]
    rfl
  · next hne => exact h.resolve_right hne

/-- The loop reaches every waiter of the list. -/
theorem any_get_notifyLoop {list : List Nat} {listeners : Slots (EventListener ω)} {key : Nat}
    (h : (listeners.get key).any (·.notified) = true ∨ key ∈ list)
    (hexists : (listeners.get key).isSome = true) :
    ((notifyLoop list listeners).1.get key).any (·.notified) = true := by
  induction list generalizing listeners with
  | nil => exact h.resolve_right List.not_mem_nil
  | cons first list ih =>
    have hexists' := (isSome_get_notifyOne listeners first key).trans hexists
    refine ih ?_ hexists'
    rcases h with h | h
    · exact .inl (any_get_notifyOne (.inl h) hexists)
    · rcases List.mem_cons.mp h with heq | hmem
      · exact .inl (any_get_notifyOne (.inr heq) hexists)
      · exact .inr hmem

theorem isSome_get_notifyLoop (list : List Nat) (listeners : Slots (EventListener ω)) (key : Nat) :
    ((notifyLoop list listeners).1.get key).isSome = (listeners.get key).isSome := by
  induction list generalizing listeners with
  | nil => rfl
  | cons first list ih => exact (ih _).trans (isSome_get_notifyOne ..)

/-- The listener is in the list or has been notified: the next notification will have reached it. -/
def Reached (e : Event ω) (key : Nat) : Prop :=
  (e.listeners.get key).isSome = true ∧ (e.isNotified key = true ∨ key ∈ e.list)

/-- **A notification reaches every listener that waits.** -/
theorem Reached.notifyAll {e : Event ω} {key : Nat} (h : e.Reached key) :
    e.notifyAll.1.isNotified key = true ∧ e.notifyAll.1.Reached key := by
  have hnotified : e.notifyAll.1.isNotified key = true := any_get_notifyLoop h.2 h.1
  exact ⟨hnotified, (isSome_get_notifyLoop ..).trans h.1, .inl hnotified⟩

@[simp]
theorem get_listen (e : Event ω) (key : Nat) :
    e.listen.1.listeners.get key = if key = e.listen.2 then
      some { targetEpoch := e.epoch, waker := none, notified := false } else e.listeners.get key :=
  Slots.get_push ..

theorem get_listen_self (e : Event ω) :
    e.listen.1.listeners.get e.listen.2 =
      some { targetEpoch := e.listen.1.epoch, waker := none, notified := false } := by
  rw [get_listen, if_pos rfl]
  rfl

/-- A new listener has a new key. -/
theorem get_listen_key (e : Event ω) : e.listeners.get e.listen.2 = none :=
  Slots.get_push_key e.listeners { targetEpoch := e.epoch, waker := none, notified := false }

theorem Reached.ne_listen {e : Event ω} {key : Nat} (h : e.Reached key) : key ≠ e.listen.2 := by
  intro heq
  have := h.1
  rw [heq, get_listen_key] at this
  cases this

theorem Reached.listen {e : Event ω} {key : Nat} (h : e.Reached key) :
    e.listen.1.Reached key ∧ e.listen.1.isNotified key = e.isNotified key := by
  have hget : e.listen.1.listeners.get key = e.listeners.get key := by
    rw [get_listen, if_neg h.ne_listen]
  refine ⟨⟨hget ▸ h.1, ?_⟩, by rw [isNotified, hget, isNotified]⟩
  rcases h.2 with hnotified | hlist
  · exact .inl (by rw [isNotified, hget]; exact hnotified)
  · exact .inr hlist

/-- A listener that was just created is pending. -/
theorem poll_listen (e : Event ω) (waker : ω) :
    (e.listen.1.poll e.listen.2 { targetEpoch := e.epoch, waker := none, notified := false }
      waker).2 = false := by
  simp [poll, listen]

section

variable {e : Event ω} {key : Nat} {l : EventListener ω}

/-- A pending poll stores the waker and links the listener. -/
theorem poll_cases (e : Event ω) (key : Nat) (l : EventListener ω) (waker : ω) :
    e.poll key l waker = (e, true) ∨
      l.notified = false ∧ ∃ list, key ∈ list ∧ e.list ⊆ list ∧
        e.poll key l waker = ({ e with
          list, listeners := e.listeners.set key { l with waker := some waker } }, false) := by
  unfold poll
  split
  · exact .inl rfl
  · split
    · exact .inl rfl
    · next hnotified =>
      refine .inr ⟨by simpa using hnotified, _, ?_, ?_, rfl⟩
      · split
        · assumption
        · exact List.mem_append_right _ List.mem_cons_self
      · split
        · exact List.Subset.refl _
        · exact List.subset_append_left ..

/-- A poll changes at most the waker of a listener. -/
theorem get_poll (hget : e.listeners.get key = some l) (waker : ω) (key' : Nat) :
    ((e.poll key l waker).1.listeners.get key').map (·.notified) =
      (e.listeners.get key').map (·.notified) := by
  rcases poll_cases e key l waker with h | ⟨-, list, -, -, h⟩ <;> rw [h]
  rw [Slots.get_set (by simp [hget])]
  split
  · next heq => rw [heq, hget]; rfl
  · rfl

theorem list_poll (e : Event ω) (key : Nat) (l : EventListener ω) (waker : ω) :
    e.list ⊆ (e.poll key l waker).1.list := by
  rcases poll_cases e key l waker with h | ⟨-, list, -, hsubset, h⟩ <;> rw [h]
  · exact List.Subset.refl _
  · exact hsubset

theorem isNotified_poll (hget : e.listeners.get key = some l) (waker : ω) (key' : Nat) :
    (e.poll key l waker).1.isNotified key' = e.isNotified key' := by
  have h := get_poll hget waker key'
  unfold isNotified
  generalize (e.poll key l waker).1.listeners.get key' = x at h ⊢
  generalize e.listeners.get key' = y at h ⊢
  cases x <;> cases y <;> simp_all

theorem isSome_get_poll (hget : e.listeners.get key = some l) (waker : ω) (key' : Nat) :
    ((e.poll key l waker).1.listeners.get key').isSome = (e.listeners.get key').isSome := by
  have h := congrArg Option.isSome (get_poll hget waker key')
  simpa only [Option.isSome_map] using h

theorem Reached.poll (hget : e.listeners.get key = some l) (waker : ω) {key' : Nat}
    (h : e.Reached key') : (e.poll key l waker).1.Reached key' := by
  refine ⟨(isSome_get_poll hget ..).trans h.1, ?_⟩
  rcases h.2 with hnotified | hlist
  · exact .inl ((isNotified_poll hget ..).trans hnotified)
  · exact .inr (list_poll _ _ _ _ hlist)

/-- A pending poll leaves the listener in the list. -/
theorem mem_list_of_poll (waker : ω) (h : (e.poll key l waker).2 = false) :
    key ∈ (e.poll key l waker).1.list := by
  rcases poll_cases e key l waker with heq | ⟨-, list, hmem, -, heq⟩ <;> rw [heq] at h ⊢
  · cases h
  · exact hmem

theorem Reached.drop {key' : Nat} (h : e.Reached key') (hne : key' ≠ key) :
    (e.drop key).Reached key' ∧ (e.drop key).isNotified key' = e.isNotified key' := by
  have hget : (e.drop key).listeners.get key' = e.listeners.get key' := by
    simp [Event.drop, hne]
  refine ⟨⟨hget ▸ h.1, ?_⟩, by rw [isNotified, hget, isNotified]⟩
  rcases h.2 with hnotified | hlist
  · exact .inl (by rw [isNotified, hget]; exact hnotified)
  · exact .inr ((List.mem_erase_of_ne hne).mpr hlist)

end

end Event

end Aquic.Sync
