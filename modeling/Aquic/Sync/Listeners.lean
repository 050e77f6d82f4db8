import Aquic.Lib.Run
import Aquic.Lib.Trace
import Aquic.Sync.Event

/-!
# The listeners of an event

Any number of listeners of the event of `sync/util/event.rs`: each is created, polled any number of
times, and dropped, with calls of `notify_all` in between. A listener is decided by two things in the
source, the epoch it was created in and the flag of its waiter, and found through the list of waiters.
Here both are compared with the history of the run, which knows nothing of epochs, flags and lists.

The epoch is a `usize` that wraps, so a listener could be pending again after 2⁶⁴ notifications.
-/

namespace Aquic.Sync

open Collections
open Run
open Trace

namespace Listeners

/-- What happens to an event and its listeners. -/
inductive Mark (ω : Type) where
  | listen (key : Nat)
  | poll (key : Nat) (waker : ω)
  | notifyAll
  | drop (key : Nat)
  deriving DecidableEq, Repr

variable {ω : Type}

namespace Mark

def isListen (key : Nat) : Mark ω → Bool
  | listen key' => key' == key
  | _ => false

def isPoll (key : Nat) : Mark ω → Bool
  | poll key' _ => key' == key
  | _ => false

def isNotifyAll : Mark ω → Bool
  | notifyAll => true
  | _ => false

def isDrop (key : Nat) : Mark ω → Bool
  | drop key' => key' == key
  | _ => false

/-- The waker of a poll of the listener. -/
def waker (key : Nat) : Mark ω → Option ω
  | poll key' waker => if key' = key then some waker else none
  | _ => none

end Mark

/-! ## What the history says of a listener -/

section

variable (key : Nat) (history : List (Mark ω))

/-- It was created and not dropped. -/
def isLive : Bool := since (Mark.isListen key) (Mark.isDrop key) history

/-- It was created, and there was no `notify_all` since its creation. -/
def isFresh : Bool := since (Mark.isListen key) Mark.isNotifyAll history

def isPolled : Bool := history.any (Mark.isPoll key)

/-- The waker of its latest poll. -/
def latestWaker : Option ω := history.reverse.findSome? (Mark.waker key)

variable (m : Mark ω)

@[simp]
theorem isLive_concat :
    isLive key (history ++ [m]) = (m.isListen key || (isLive key history && !m.isDrop key)) :=
  since_concat ..

@[simp]
theorem isFresh_concat :
    isFresh key (history ++ [m]) = (m.isListen key || (isFresh key history && !m.isNotifyAll)) :=
  since_concat ..

@[simp]
theorem isPolled_concat :
    isPolled key (history ++ [m]) = (isPolled key history || m.isPoll key) := by
  simp [isPolled]

@[simp]
theorem latestWaker_concat :
    latestWaker key (history ++ [m]) = (m.waker key).or (latestWaker key history) := by
  simp [latestWaker, List.findSome?_cons, Option.or]
  cases m.waker key <;> rfl

end

/-- The event, and the history. -/
structure Recorded (ω : Type) where
  event : Event ω
  history : List (Mark ω)
  deriving DecidableEq, Repr

inductive Op (ω : Type) where
  | listen
  | poll (key : Nat) (waker : ω)
  | notifyAll
  | drop (key : Nat)
  deriving DecidableEq, Repr

namespace Recorded

def new : Recorded ω where
  event := .new
  history := []

def record (s : Recorded ω) (event : Event ω) (m : Mark ω) : Recorded ω where
  event
  history := s.history ++ [m]

@[simp]
theorem event_record (s : Recorded ω) (event : Event ω) (m : Mark ω) :
    (s.record event m).event = event := rfl

@[simp]
theorem history_record (s : Recorded ω) (event : Event ω) (m : Mark ω) :
    (s.record event m).history = s.history ++ [m] := rfl

/-- One call; `none` if the listener does not exist. -/
def exec (s : Recorded ω) : Op ω → Option (Recorded ω)
  | .listen => some (s.record s.event.listen.1 (.listen s.event.listen.2))
  | .poll key waker =>
    (s.event.listeners.get key).map fun l =>
      s.record (s.event.poll key l waker).1 (.poll key waker)
  | .notifyAll => some (s.record s.event.notifyAll.1 .notifyAll)
  | .drop key =>
    (s.event.listeners.get key).map fun _ => s.record (s.event.drop key) (.drop key)

def Reachable (s : Recorded ω) : Prop := Run.Reachable (· = new) anyStep exec s

/-- The number of notifications. -/
def notifications (s : Recorded ω) : Nat := s.history.countP Mark.isNotifyAll

@[simp]
theorem notifications_record (s : Recorded ω) (event : Event ω) (m : Mark ω) :
    (s.record event m).notifications = s.notifications + if m.isNotifyAll then 1 else 0 := by
  simp [notifications, record, List.countP_append, List.countP_singleton]

end Recorded

/-! ## What a notification does to the waiters -/

section

variable {listeners : Slots (EventListener ω)}

theorem get_notifyOne_of_ne {first key : Nat} (hne : key ≠ first) :
    (Event.notifyOne listeners first).1.get key = listeners.get key := by
  rw [Event.get_notifyOne, if_neg hne]

theorem targetEpoch_notifyOne (first key : Nat) :
    ((Event.notifyOne listeners first).1.get key).map (·.targetEpoch) =
      (listeners.get key).map (·.targetEpoch) := by
  rw [Event.get_notifyOne]
  split
  · next heq => rw [heq, Option.map_map]; rfl
  · rfl

variable (listeners) in
theorem targetEpoch_notifyLoop (list : List Nat) (key : Nat) :
    ((Event.notifyLoop list listeners).1.get key).map (·.targetEpoch) =
      (listeners.get key).map (·.targetEpoch) := by
  induction list generalizing listeners with
  | nil => rfl
  | cons first list ih => exact (ih _).trans (targetEpoch_notifyOne first key)

theorem length_notifyOne (first : Nat) :
    (Event.notifyOne listeners first).1.slots.length = listeners.slots.length := by
  unfold Event.notifyOne
  cases hget : listeners.get first with
  | none => rfl
  | some l => exact List.length_set

theorem length_notifyLoop (list : List Nat) :
    (Event.notifyLoop list listeners).1.slots.length = listeners.slots.length := by
  induction list generalizing listeners with
  | nil => rfl
  | cons first list ih =>
    exact ih.trans (length_notifyOne first)

/-- The loop wakes the wakers of the waiters in the list, in its order. -/
theorem notifyLoop_woken {list : List Nat} (hnodup : list.Nodup) :
    (Event.notifyLoop list listeners).2 =
      list.filterMap fun key => (listeners.get key).bind (·.waker) := by
  induction list generalizing listeners with
  | nil => rfl
  | cons first list ih =>
    obtain ⟨hfirst, hnodup⟩ := List.nodup_cons.mp hnodup
    have hrest : (list.filterMap fun key =>
          ((Event.notifyOne listeners first).1.get key).bind (·.waker)) =
        list.filterMap fun key => (listeners.get key).bind (·.waker) := by
      apply List.filterMap_congr
      intro key hkey
      rw [get_notifyOne_of_ne (ne_of_mem_of_not_mem hkey hfirst)]
    show (Event.notifyOne listeners first).2 ++
      (Event.notifyLoop list (Event.notifyOne listeners first).1).2 = _
    rw [ih hnodup, hrest, List.filterMap_cons]
    unfold Event.notifyOne
    cases hget : listeners.get first with
    | none => rfl
    | some l => cases hwaker : l.waker <;> simp [hwaker]

end

/-! ## The invariant -/

namespace Recorded

/-- What the event knows is what the history says. -/
structure Faithful (s : Recorded ω) : Prop where
  epoch : s.event.epoch = s.notifications
  live : ∀ key, (s.event.listeners.get key).isSome = isLive key s.history
  /-- Keys that were not handed out do not occur. -/
  polled_lt : ∀ key, isPolled key s.history = true → key < s.event.listeners.slots.length
  target_le : ∀ key l, s.event.listeners.get key = some l → l.targetEpoch ≤ s.notifications
  target_eq : ∀ key l, s.event.listeners.get key = some l →
    (isFresh key s.history = true ↔ l.targetEpoch = s.notifications)
  notified : ∀ key l, s.event.listeners.get key = some l → l.notified = true →
    isFresh key s.history = false
  nodup : s.event.list.Nodup
  linked : ∀ key, key ∈ s.event.list ↔
    isLive key s.history = true ∧ isPolled key s.history = true ∧ isFresh key s.history = true
  waker : ∀ key l, s.event.listeners.get key = some l → key ∈ s.event.list →
    l.waker = latestWaker key s.history

theorem faithful_new : (new : Recorded ω).Faithful where
  epoch := rfl
  live key := rfl
  polled_lt key h := by cases h
  target_le key l h := by cases h
  target_eq key l h := by cases h
  notified key l h := by cases h
  nodup := List.nodup_nil
  linked key := by
    constructor
    · intro h
      cases h
    · rintro ⟨h, -⟩
      cases h
  waker key l h := by cases h

section

variable {s s' : Recorded ω}

theorem Faithful.listen (h : s.Faithful) :
    (s.record s.event.listen.1 (.listen s.event.listen.2)).Faithful where
  epoch := by
    rw [notifications_record]
    exact h.epoch
  live key := by
    simp only [event_record, history_record, isLive_concat, Mark.isListen, Mark.isDrop,
      Event.get_listen, ← h.live key]
    by_cases heq : key = s.event.listen.2
    · simp [heq]
    · simp [heq, Ne.symm heq]
  polled_lt key hpolled := by
    simp only [history_record, isPolled_concat, Mark.isPoll, Bool.or_false] at hpolled
    have hlt := h.polled_lt key hpolled
    show key < (s.event.listeners.slots ++ _).length
    rw [List.length_append]
    omega
  target_le key l hget := by
    rw [notifications_record]
    rw [event_record, Event.get_listen] at hget
    split at hget
    · cases hget
      exact Nat.le_of_eq h.epoch
    · exact h.target_le key l hget
  target_eq key l hget := by
    rw [event_record, Event.get_listen] at hget
    simp only [notifications_record, history_record, isFresh_concat, Mark.isListen,
      Mark.isNotifyAll]
    by_cases heq : key = s.event.listen.2
    · rw [if_pos heq] at hget
      cases hget
      simp [heq, h.epoch]
    · rw [if_neg heq] at hget
      simpa [Ne.symm heq] using h.target_eq key l hget
  notified key l hget hnotified := by
    rw [event_record, Event.get_listen] at hget
    by_cases heq : key = s.event.listen.2
    · rw [if_pos heq] at hget
      cases hget
      cases hnotified
    · rw [if_neg heq] at hget
      simpa [Mark.isListen, Mark.isNotifyAll, Ne.symm heq] using h.notified key l hget hnotified
  nodup := h.nodup
  linked key := by
    have hlinked := h.linked key
    by_cases heq : key = s.event.listen.2
    · -- the key is new: it was not polled
      have hpolled : isPolled key s.history = false := by
        apply eq_false_of_ne_true
        intro hpolled
        exact absurd (h.polled_lt key hpolled) (by simp [heq, Event.listen, Slots.push])
      show key ∈ s.event.list ↔ _
      simp [hlinked, hpolled, Mark.isPoll]
    · show key ∈ s.event.list ↔ _
      simp [hlinked, Mark.isListen, Mark.isDrop, Mark.isPoll, Mark.isNotifyAll, Ne.symm heq]
  waker key l hget hlist := by
    have hlist : key ∈ s.event.list := hlist
    rw [event_record, Event.get_listen] at hget
    have hne : key ≠ s.event.listen.2 := by
      intro heq
      have hlive := h.live key
      rw [((h.linked key).mp hlist).1, heq, Event.get_listen_key] at hlive
      cases hlive
    rw [if_neg hne] at hget
    simpa [Mark.waker] using h.waker key l hget hlist

/-- **A listener is ready when it was notified.** -/
theorem Faithful.poll_ready_iff (h : s.Faithful) {key : Nat} {l : EventListener ω}
    (hget : s.event.listeners.get key = some l) (waker : ω) :
    (s.event.poll key l waker).2 = true ↔ isFresh key s.history = false := by
  have htarget := h.target_eq key l hget
  have hnotified := h.notified key l hget
  unfold Event.poll
  rw [h.epoch]
  split
  · next hne =>
    simp only [true_iff]
    apply eq_false_of_ne_true
    intro hfresh
    exact hne (htarget.mp hfresh).symm
  · next heq =>
    have hfresh := htarget.mpr (not_not.mp heq).symm
    split
    · next hflag => simpa using hnotified hflag
    · simp [hfresh]

/-- What a poll of a listener that was not notified does. -/
theorem Faithful.poll_pending (h : s.Faithful) {key : Nat} {l : EventListener ω}
    (hget : s.event.listeners.get key = some l) (hfresh : isFresh key s.history = true)
    (waker : ω) :
    (s.event.poll key l waker).1 = { s.event with
      list := if key ∈ s.event.list then s.event.list else s.event.list ++ [key]
      listeners := s.event.listeners.set key { l with waker := some waker } } := by
  have hepoch : ¬s.event.epoch ≠ l.targetEpoch := by
    rw [h.epoch, (h.target_eq key l hget).mp hfresh]
    exact not_not_intro rfl
  have hflag : ¬l.notified = true := by
    intro hflag
    rw [h.notified key l hget hflag] at hfresh
    cases hfresh
  unfold Event.poll
  rw [if_neg hepoch, if_neg hflag]

/-- A listener that is ready is polled: nothing changes. -/
theorem Faithful.poll_ready (h : s.Faithful) {key : Nat} {l : EventListener ω}
    (hget : s.event.listeners.get key = some l) (hfresh : isFresh key s.history = false)
    (waker : ω) : (s.event.poll key l waker).1 = s.event := by
  have hready := (h.poll_ready_iff hget waker).mpr hfresh
  rcases Event.poll_cases s.event key l waker with heq | ⟨-, list, -, -, heq⟩ <;>
    rw [heq] at hready ⊢
  cases hready

/-- The mark of a poll does not create, notify or drop. -/
theorem polled_iff {key key' : Nat} {waker : ω} {history : List (Mark ω)} :
    isPolled key' (history ++ [.poll key waker]) = true ↔
      isPolled key' history = true ∨ key = key' := by
  simp [Mark.isPoll]

theorem Faithful.polled_lt_poll (h : s.Faithful) {key : Nat} {l : EventListener ω}
    (hget : s.event.listeners.get key = some l) {waker : ω} {key' : Nat}
    (hpolled : isPolled key' (s.history ++ [.poll key waker]) = true) :
    key' < s.event.listeners.slots.length := by
  rcases polled_iff.mp hpolled with hpolled | rfl
  · exact h.polled_lt key' hpolled
  · exact Slots.lt_of_get hget

theorem Faithful.poll_of_notified (h : s.Faithful) {key : Nat} {l : EventListener ω}
    (hget : s.event.listeners.get key = some l) (hfresh : isFresh key s.history = false)
    (waker : ω) : (s.record s.event (.poll key waker)).Faithful where
  epoch := by
    rw [notifications_record]
    exact h.epoch
  live key' := by simp [h.live key', Mark.isListen, Mark.isDrop]
  polled_lt key' hpolled := h.polled_lt_poll hget hpolled
  target_le key' l' hget' := by
    rw [notifications_record]
    exact h.target_le key' l' hget'
  target_eq key' l' hget' := by
    simpa [Mark.isListen, Mark.isNotifyAll] using h.target_eq key' l' hget'
  notified key' l' hget' hflag := by
    simpa [Mark.isListen, Mark.isNotifyAll] using h.notified key' l' hget' hflag
  nodup := h.nodup
  linked key' := by
    have hlinked := h.linked key'
    by_cases heq : key = key'
    · subst heq
      simp [hlinked, hfresh, Mark.isListen, Mark.isNotifyAll]
    · simp [hlinked, Mark.isListen, Mark.isDrop, Mark.isPoll, Mark.isNotifyAll, heq]
  waker key' l' hget' hlist := by
    have hlist : key' ∈ s.event.list := hlist
    have hne : key ≠ key' := by
      rintro rfl
      rw [((h.linked key).mp hlist).2.2] at hfresh
      cases hfresh
    simpa [Mark.waker, hne] using h.waker key' l' hget' hlist

theorem Faithful.poll_of_fresh (h : s.Faithful) {key : Nat} {l : EventListener ω}
    (hget : s.event.listeners.get key = some l) (hfresh : isFresh key s.history = true)
    (waker : ω) :
    (s.record (s.event.poll key l waker).1 (.poll key waker)).Faithful := by
  rw [h.poll_pending hget hfresh waker]
  have hlive : isLive key s.history = true := by rw [← h.live key, hget]; rfl
  -- at every key there is the listener that was there, with a new waker if it is the one polled
  have hold : ∀ key' l', (s.event.listeners.set key { l with waker := some waker }).get key' =
      some l' → ∃ l₀, s.event.listeners.get key' = some l₀ ∧ l'.targetEpoch = l₀.targetEpoch ∧
        l'.notified = l₀.notified ∧ l'.waker = if key' = key then some waker else l₀.waker := by
    intro key' l' hget'
    rw [Slots.get_set (by simp [hget])] at hget'
    by_cases heq : key' = key
    · subst heq
      rw [if_pos rfl] at hget'
      cases hget'
      exact ⟨l, hget, rfl, rfl, (if_pos rfl).symm⟩
    · rw [if_neg heq] at hget'
      exact ⟨l', hget', rfl, rfl, (if_neg heq).symm⟩
  have hmem : ∀ key', (key' ∈ if key ∈ s.event.list then s.event.list
      else s.event.list ++ [key]) ↔ key' ∈ s.event.list ∨ key' = key := by
    intro key'
    split
    · next hin =>
      constructor
      · exact .inl
      · rintro (hin' | rfl)
        · exact hin'
        · exact hin
    · rw [List.mem_append, List.mem_singleton]
  constructor
  · rw [notifications_record]
    exact h.epoch
  · intro key'
    simp only [event_record, history_record, isLive_concat, ← h.live key',
      Slots.get_set (show (s.event.listeners.get key).isSome = true by simp [hget])]
    by_cases heq : key' = key
    · simp [heq, hget, Mark.isListen, Mark.isDrop]
    · simp [heq, Mark.isListen, Mark.isDrop]
  · intro key' hpolled
    have hlt := h.polled_lt_poll hget hpolled
    simpa [Slots.set] using hlt
  · intro key' l' hget'
    obtain ⟨l₀, hget₀, htarget, -, -⟩ := hold key' l' hget'
    rw [notifications_record, htarget]
    exact h.target_le key' l₀ hget₀
  · intro key' l' hget'
    obtain ⟨l₀, hget₀, htarget, -, -⟩ := hold key' l' hget'
    rw [htarget]
    simpa [Mark.isListen, Mark.isNotifyAll] using h.target_eq key' l₀ hget₀
  · intro key' l' hget' hflag
    obtain ⟨l₀, hget₀, -, hnotified, -⟩ := hold key' l' hget'
    rw [hnotified] at hflag
    simpa [Mark.isListen, Mark.isNotifyAll] using h.notified key' l₀ hget₀ hflag
  · show (if key ∈ s.event.list then s.event.list else s.event.list ++ [key]).Nodup
    split
    · exact h.nodup
    · next hnew => exact List.nodup_append.mpr ⟨h.nodup, List.nodup_singleton _, by grind⟩
  · intro key'
    rw [event_record, history_record, hmem, polled_iff, h.linked key']
    simp only [isLive_concat, isFresh_concat, Mark.isListen, Mark.isDrop, Mark.isNotifyAll,
      Bool.false_or, Bool.not_false, Bool.and_true]
    by_cases heq : key = key'
    · subst heq
      simp [hlive, hfresh]
    · simp [heq, Ne.symm heq]
  · intro key' l' hget' hlist
    obtain ⟨l₀, hget₀, -, -, hwaker⟩ := hold key' l' hget'
    rw [hwaker, history_record, latestWaker_concat]
    by_cases heq : key = key'
    · simp [Mark.waker, heq]
    · have hlist₀ := ((hmem key').mp hlist).resolve_right (Ne.symm heq)
      simp [Mark.waker, heq, Ne.symm heq, h.waker key' l₀ hget₀ hlist₀]

theorem Faithful.poll (h : s.Faithful) {key : Nat} {l : EventListener ω}
    (hget : s.event.listeners.get key = some l) (waker : ω) :
    (s.record (s.event.poll key l waker).1 (.poll key waker)).Faithful := by
  cases hfresh : isFresh key s.history with
  | false =>
    rw [h.poll_ready hget hfresh waker]
    exact h.poll_of_notified hget hfresh waker
  | true => exact h.poll_of_fresh hget hfresh waker

theorem Faithful.notifyAll (h : s.Faithful) (hcount : s.notifications + 1 < 2 ^ 64) :
    (s.record s.event.notifyAll.1 .notifyAll).Faithful := by
  -- nobody is fresh any more
  have hstale : ∀ key, isFresh key (s.history ++ [.notifyAll]) = false := by
    simp [Mark.isListen, Mark.isNotifyAll]
  have htarget : ∀ key l, s.event.notifyAll.1.listeners.get key = some l →
      l.targetEpoch ≤ s.notifications := by
    intro key l hget
    have heq := targetEpoch_notifyLoop s.event.listeners s.event.list key
    have hget : (Event.notifyLoop s.event.list s.event.listeners).1.get key = some l := hget
    rw [hget] at heq
    obtain ⟨l₀, hget₀, htarget⟩ := Option.map_eq_some_iff.mp heq.symm
    show (fun l : EventListener ω => l.targetEpoch) l ≤ _
    rw [← htarget]
    exact h.target_le key l₀ hget₀
  have hnext : (s.record s.event.notifyAll.1 .notifyAll).notifications = s.notifications + 1 := by
    rw [notifications_record]
    rfl
  constructor
  · show (s.event.epoch + 1) % 2 ^ 64 = _
    rw [hnext, h.epoch, Nat.mod_eq_of_lt hcount]
  · intro key
    have hsome := Event.isSome_get_notifyLoop s.event.list s.event.listeners key
    simp only [history_record, isLive_concat, Mark.isListen, Mark.isDrop, Bool.false_or,
      Bool.not_false, Bool.and_true, ← h.live key]
    exact hsome
  · intro key hpolled
    simp only [history_record, isPolled_concat, Mark.isPoll, Bool.or_false] at hpolled
    show key < (Event.notifyLoop s.event.list s.event.listeners).1.slots.length
    rw [length_notifyLoop]
    exact h.polled_lt key hpolled
  · intro key l hget
    rw [hnext]
    exact Nat.le_succ_of_le (htarget key l hget)
  · intro key l hget
    have hle := htarget key l hget
    rw [hnext, history_record, hstale]
    constructor
    · intro hfresh
      cases hfresh
    · omega
  · intro key l _ _
    exact hstale key
  · exact List.nodup_nil
  · intro key
    rw [history_record, hstale]
    constructor
    · intro hlist
      cases hlist
    · rintro ⟨-, -, hfresh⟩
      cases hfresh
  · intro key l _ hlist
    cases hlist

theorem Faithful.drop (h : s.Faithful) (key : Nat) :
    (s.record (s.event.drop key) (.drop key)).Faithful := by
  have hold : ∀ key' l, (s.event.drop key).listeners.get key' = some l →
      key' ≠ key ∧ s.event.listeners.get key' = some l := by
    intro key' l hget
    rw [Event.drop, Slots.get_remove] at hget
    split at hget
    · cases hget
    · next hne => exact ⟨hne, hget⟩
  constructor
  · rw [notifications_record]
    exact h.epoch
  · intro key'
    simp only [event_record, history_record, isLive_concat, Event.drop, Slots.get_remove,
      ← h.live key', Mark.isListen, Mark.isDrop]
    by_cases heq : key' = key
    · simp [heq]
    · simp [heq, Ne.symm heq]
  · intro key' hpolled
    simp only [history_record, isPolled_concat, Mark.isPoll, Bool.or_false] at hpolled
    have hlt := h.polled_lt key' hpolled
    simpa [Event.drop, Slots.remove] using hlt
  · intro key' l hget
    rw [notifications_record]
    exact h.target_le key' l (hold key' l hget).2
  · intro key' l hget
    simpa [Mark.isListen, Mark.isNotifyAll] using h.target_eq key' l (hold key' l hget).2
  · intro key' l hget hflag
    simpa [Mark.isListen, Mark.isNotifyAll] using h.notified key' l (hold key' l hget).2 hflag
  · exact h.nodup.erase key
  · intro key'
    show key' ∈ s.event.list.erase key ↔ _
    rw [h.nodup.mem_erase_iff, h.linked key', and_comm]
    by_cases heq : key' = key
    · simp [heq, Mark.isListen, Mark.isDrop]
    · simp [heq, Ne.symm heq, Mark.isListen, Mark.isDrop, Mark.isPoll, Mark.isNotifyAll]
  · intro key' l hget hlist
    have hlist : key' ∈ s.event.list := List.mem_of_mem_erase hlist
    simpa [Mark.waker] using h.waker key' l (hold key' l hget).2 hlist

/-- One call, before the epoch wraps. -/
theorem Faithful.exec {op : Op ω} (h : s.Faithful) (hexec : s.exec op = some s')
    (hcount : s'.notifications < 2 ^ 64) : s'.Faithful := by
  cases op with
  | listen =>
    cases hexec
    exact h.listen
  | poll key waker =>
    obtain ⟨l, hget, rfl⟩ := Option.map_eq_some_iff.mp hexec
    exact h.poll hget waker
  | notifyAll =>
    cases hexec
    apply h.notifyAll
    rw [notifications_record] at hcount
    exact hcount
  | drop key =>
    obtain ⟨l, hget, rfl⟩ := Option.map_eq_some_iff.mp hexec
    exact h.drop key

theorem notifications_mono {op : Op ω} (hexec : s.exec op = some s') :
    s.notifications ≤ s'.notifications := by
  cases op with
  | listen | notifyAll =>
    cases hexec
    rw [notifications_record]
    exact Nat.le_add_right ..
  | poll key _ | drop key =>
    obtain ⟨l, -, rfl⟩ := Option.map_eq_some_iff.mp hexec
    rw [notifications_record]
    exact Nat.le_add_right ..

theorem Reachable.faithful (h : s.Reachable) (hcount : s.notifications < 2 ^ 64) :
    s.Faithful := by
  revert hcount
  apply Run.Reachable.invariant _ _ h
  · rintro s rfl _
    exact faithful_new
  · intro s op s' ih _ hexec hcount
    exact (ih (Nat.lt_of_le_of_lt (notifications_mono hexec) hcount)).exec hexec hcount

end

/-- A listener has a latest waker exactly if it has been polled. -/
theorem isSome_latestWaker (key : Nat) (history : List (Mark ω)) :
    (latestWaker key history).isSome = isPolled key history := by
  have hwaker : (fun m : Mark ω => (m.waker key).isSome) = Mark.isPoll key := by
    funext m
    cases m with
    | poll key' waker => by_cases heq : key' = key <;> simp [Mark.waker, Mark.isPoll, heq]
    | listen | notifyAll | drop => rfl
  rw [latestWaker, List.isSome_findSome?, hwaker, List.any_reverse, isPolled]

/-- A notification wakes the latest wakers of the linked listeners, each once. -/
theorem Faithful.woken {s : Recorded ω} (h : s.Faithful) :
    s.event.notifyAll.2 = s.event.list.filterMap (latestWaker · s.history) := by
  show (Event.notifyLoop s.event.list s.event.listeners).2 = _
  rw [notifyLoop_woken h.nodup]
  apply List.filterMap_congr
  intro key hkey
  have hlive := h.live key
  rw [((h.linked key).mp hkey).1] at hlive
  obtain ⟨l, hget⟩ := Option.isSome_iff_exists.mp hlive
  rw [hget]
  exact h.waker key l hget hkey

/-- No notification is missed. -/
structure MissesNothing (s : Recorded ω) : Prop where
  /-- The listeners that exist are those that were created and not dropped. -/
  live : ∀ key, (s.event.listeners.get key).isSome = isLive key s.history
  /-- A listener is ready exactly if there was a `notify_all` since its creation. -/
  ready : ∀ key l, s.event.listeners.get key = some l → ∀ waker,
    ((s.event.poll key l waker).2 = true ↔ isFresh key s.history = false)
  /-- The latest waker of a pending listener is woken. -/
  wakes : ∀ key, isLive key s.history = true → isFresh key s.history = true →
    ∀ waker, latestWaker key s.history = some waker → waker ∈ s.event.notifyAll.2
  /-- No other wakers are woken, and no listener twice. -/
  woken : s.event.notifyAll.2.map some = s.event.list.map (latestWaker · s.history)
  nodup : s.event.list.Nodup
  /-- The waiters are the pending listeners that have been polled. -/
  linked : ∀ key, key ∈ s.event.list ↔
    isLive key s.history = true ∧ isPolled key s.history = true ∧ isFresh key s.history = true

/-- **The event misses no notification**, in every run with fewer than 2⁶⁴ of them. -/
theorem missesNothing {s : Recorded ω} (h : s.Reachable) (hcount : s.notifications < 2 ^ 64) :
    s.MissesNothing := by
  have hs := h.faithful hcount
  refine ⟨hs.live, ?_, ?_, ?_, hs.nodup, hs.linked⟩
  · intro key l hget waker
    exact hs.poll_ready_iff hget waker
  · intro key hlive hfresh waker hwaker
    have hpolled : isPolled key s.history = true := by
      rw [← isSome_latestWaker, hwaker]
      rfl
    have hlinked := (hs.linked key).mpr ⟨hlive, hpolled, hfresh⟩
    rw [hs.woken]
    exact List.mem_filterMap.mpr ⟨key, hlinked, hwaker⟩
  · rw [hs.woken, List.map_filterMap]
    rw [← List.filterMap_eq_map]
    apply List.filterMap_congr
    intro key hkey
    have hsome := (isSome_latestWaker key s.history).trans ((hs.linked key).mp hkey).2.1
    obtain ⟨waker, hwaker⟩ := Option.isSome_iff_exists.mp hsome
    simp [hwaker]

/-- Of three listeners one was notified, one is pending and one was dropped. -/
theorem missesNothing_stages : ∃ s : Recorded Nat, s.Reachable ∧ s.notifications = 1 ∧
    isFresh 0 s.history = false ∧ s.event.list = [1] ∧ 6 ∈ s.event.notifyAll.2 := by
  have hrun : ∃ s : Recorded Nat, s.Reachable ∧ decide (s.notifications = 1 ∧
      isFresh 0 s.history = false ∧ s.event.list = [1] ∧ isLive 1 s.history = true ∧
      isFresh 1 s.history = true ∧ latestWaker 1 s.history = some 6) = true :=
    exists_reachable (some new) (fun _ h => (Option.some.inj h).symm)
      [.listen, .poll 0 3, .notifyAll, .poll 0 4, .listen, .poll 1 5, .listen, .poll 2 5, .poll 1 6,
        .drop 2] (by decide +kernel)
  obtain ⟨s, hs, hp⟩ := hrun
  obtain ⟨hone, hnotified, hlist, hlive, hfresh, hwaker⟩ := of_decide_eq_true hp
  have hmisses := missesNothing hs (by rw [hone]; decide)
  exact ⟨s, hs, hone, hnotified, hlist, hmisses.wakes 1 hlive hfresh 6 hwaker⟩

end Recorded

end Listeners

end Aquic.Sync
