import Aquic.Backend.Time
import Aquic.Util.Timer.Keys
import Mathlib.Data.List.ReduceOption

/-!
# Events that are awaited

An event that was scheduled is pending in the wheel until it is cancelled or comes up, and has fired until it is
handled. In between it is never lost.
-/

namespace Aquic.Timer.WheelTimer

variable {α : Type*} {t t' : WheelTimer α} {x y : α} {key : TimerKey}

/-- The wheel holds the event. -/
def Pending (t : WheelTimer α) (x : α) : Prop :=
  ∃ key, t.lookup key = some x

theorem issued_of_lookup (h : t.lookup key = some x) : t.Issued key := by
  obtain ⟨level, hlevel, hlookup⟩ := lookup_eq_some.mp h
  exact ⟨level, hlevel, Level.bucketIndex_lt_of_lookup hlookup,
    .inr (Option.isSome_of_eq_some hlookup)⟩

/-- An event stays if its own key is not cancelled. -/
theorem Pending.foldl_cancel [Inhabited α] {keys : List TimerKey} (h : t.Pending x)
    (hissued : ∀ key ∈ keys, t.Issued key) (hkeys : ∀ key ∈ keys, t.lookup key ≠ some x) :
    (keys.foldl cancel t).Pending x := by
  obtain ⟨key, hlookup⟩ := h
  have hne : key ∉ keys := fun hmem => hkeys key hmem hlookup
  refine ⟨key, ?_⟩
  clear hkeys
  induction keys generalizing t with
  | nil => exact hlookup
  | cons cancelled keys ih =>
    rw [List.mem_cons, not_or] at hne
    obtain ⟨hother, hne⟩ := hne
    have hcancelled := hissued cancelled List.mem_cons_self
    apply ih
    · intro issued hmem
      exact (hissued issued (List.mem_cons_of_mem _ hmem)).cancel hcancelled
    · rw [lookup_cancel hcancelled, if_neg hother]
      exact hlookup
    · exact hne

theorem Adds.pending_self (h : Adds t t' key x) : t'.Pending x :=
  ⟨key, by rw [h.lookup, if_pos rfl]⟩

theorem Adds.pending (h : Adds t t' key x) (hpending : t.Pending y) : t'.Pending y := by
  obtain ⟨key', hlookup⟩ := hpending
  have hne : key' ≠ key := by
    rintro rfl
    exact h.fresh (issued_of_lookup hlookup)
  refine ⟨key', ?_⟩
  rw [h.lookup, if_neg hne]
  exact hlookup

theorem pending_iff_countP_pos [DecidableEq α] :
    t.Pending x ↔ 0 < t.countP fun y => decide (y = x) := by
  rw [countP_pos_iff]
  constructor
  · rintro ⟨key, hlookup⟩
    exact ⟨key, x, hlookup, decide_eq_true rfl⟩
  · rintro ⟨key, y, hlookup, hy⟩
    obtain rfl := of_decide_eq_true hy
    exact ⟨key, hlookup⟩

/-- What is no longer in the wheel has come out. -/
theorem Detaches.pending_or_out [DecidableEq α] {out : List (List α)} (h : Detaches t t' out)
    (hpending : t.Pending x) : t'.Pending x ∨ x ∈ out.flatten := by
  rw [pending_iff_countP_pos, ← h.countP] at hpending
  rcases Nat.add_pos_iff_pos_or_pos.mp hpending with hleft | hout
  · exact .inl (pending_iff_countP_pos.mpr hleft)
  · obtain ⟨y, hmem, hy⟩ := List.countP_pos_iff.mp hout
    obtain rfl := of_decide_eq_true hy
    exact .inr hmem

end Aquic.Timer.WheelTimer

namespace Aquic.Backend.EventTimer

open Aquic.Timer

variable {E : Type} {t : EventTimer E} {event : E}

/-- The event has come up, and waits to be handled. -/
def Fired (t : EventTimer E) (event : E) : Prop :=
  some event ∈ t.firedEvents.flatten

def Awaits (t : EventTimer E) (event : E) : Prop :=
  t.timer.Pending (some event) ∨ t.Fired event

theorem mem_popFiredEvents (h : t.Fired event) : event ∈ t.popFiredEvents.2 := by
  obtain ⟨bucket, hbucket, hevent⟩ := List.mem_flatten.mp h
  unfold popFiredEvents
  rw [List.reduceOption_mem_iff, List.mem_flatten]
  exact ⟨bucket.reverse, List.mem_map_of_mem (List.mem_reverse.mpr hbucket), List.mem_reverse.mpr hevent⟩

theorem awaits_popFiredEvents (h : t.Awaits event) :
    t.popFiredEvents.1.Awaits event ∨ event ∈ t.popFiredEvents.2 := by
  rcases h with hpending | hfired
  · exact .inl (.inl hpending)
  · exact .inr (mem_popFiredEvents hfired)

/-- An event that comes up is no longer in the wheel, but has fired. -/
theorem Awaits.tick [DecidableEq E]
    (hdetaches : WheelTimer.Detaches t.timer (t.timer.progress t.clock).1 (t.timer.progress t.clock).2)
    (h : t.Awaits event) : t.tick.Awaits event := by
  have hfired (h : t.Fired event ∨ some event ∈ (t.timer.progress t.clock).2.flatten) :
      t.tick.Fired event := by
    show _ ∈ (t.firedEvents ++ (t.timer.progress t.clock).2).flatten
    rw [List.flatten_append, List.mem_append]
    exact h
  rcases h with hpending | hbefore
  · rcases hdetaches.pending_or_out hpending with hleft | hout
    · exact .inl hleft
    · exact .inr (hfired (.inr hout))
  · exact .inr (hfired (.inl hbefore))

theorem reschedule_firedEvents (t : EventTimer E) (event : E) (due : Instant)
    (previousKey : Option TimerKey) :
    (t.reschedule event due previousKey).1.firedEvents = t.firedEvents := by
  unfold reschedule
  split <;> rfl

end Aquic.Backend.EventTimer
