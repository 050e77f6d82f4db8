import Aquic.Backend.Event
import Mathlib.Algebra.Group.Nat.Defs
import Mathlib.Logic.Function.Basic
import Mathlib.Logic.Relation

/-!
# One terminal event for each connection

What the terminal events of a backend are for: each connection that was announced by a `New` event is
ended by exactly one `Closed` or `Halted` event, and is not forgotten before that.

A `Roster` is all that matters for this: the live connections, each with the flag that its terminal
event was sent, and the events so far. Both backends go through the steps of a roster, whatever else
they do.
-/

namespace Aquic.Backend

variable {Id : Type}

/-- How many connections were announced. -/
def registrations (events : List (Event Id)) : Nat :=
  events.countP fun e => e.introduces.isSome

/-- Events that announce nothing. -/
theorem countP_introduces_append {events events' : List (Event Id)}
    (h : ∀ e ∈ events', e.introduces = none) (p : Option Id → Bool) (hp : p none = false) :
    (events ++ events').countP (fun e => p e.introduces) = events.countP fun e => p e.introduces := by
  have hnone : events'.countP (fun e => p e.introduces) = 0 := by
    refine List.countP_eq_zero.mpr fun e he => ?_
    rw [h e he, hp]
    exact Bool.false_ne_true
  rw [List.countP_append, hnone, Nat.add_zero]

variable [DecidableEq Id]

/-- The number of terminal events of a connection. -/
def terminations (id : Id) (events : List (Event Id)) : Nat :=
  events.countP fun e => e.terminates = some id

/-- How often a connection was announced. -/
def introductions (id : Id) (events : List (Event Id)) : Nat :=
  events.countP fun e => e.introduces = some id

/-- **Exactly one terminal event**: at most one, and one when an announced connection is gone. -/
def EndedOnce (id : Id) (live : Prop) (events : List (Event Id)) : Prop :=
  terminations id events ≤ 1 ∧
    (0 < introductions id events → ¬ live → terminations id events = 1)

structure Roster (Id : Type) where
  /-- The live connections: was the terminal event sent? -/
  sent : Id → Option Bool
  /-- The events so far. -/
  events : List (Event Id)
  /-- Connections that went without a word. -/
  replaced : List Id

namespace Roster

def Live (r : Roster Id) (id : Id) : Prop := (r.sent id).isSome

inductive Step : Roster Id → Roster Id → Prop
  /-- Events of other kinds. -/
  | push (r : Roster Id) {events : List (Event Id)}
      (hordinary : ∀ e ∈ events, e.Ordinary r.Live) : Step r { r with events := r.events ++ events }
  | register (r : Roster Id) {id : Id} (hfree : r.sent id = none) (isServer : Bool) :
      Step r
        { r with
          sent := Function.update r.sent id (some false)
          events := r.events ++ [.connection (.new id isServer)] }
  | report (r : Roster Id) {id : Id} (hunsent : r.sent id = some false) {e : Event Id}
      (hterminates : e.terminates = some id) :
      Step r
        { r with sent := Function.update r.sent id (some true), events := r.events ++ [e] }
  /-- A connection is forgotten only after its terminal event. -/
  | forget (r : Roster Id) {id : Id} (hsent : r.sent id = some true) :
      Step r { r with sent := Function.update r.sent id none }
  | replace (r : Roster Id) (id : Id) :
      Step r
        { r with sent := Function.update r.sent id none, replaced := r.replaced ++ [id] }

/-- Announcements and terminal events balance, up to the connections that are still open. -/
def Balanced (r : Roster Id) : Prop :=
  r.replaced = [] → ∀ id, introductions id r.events =
    terminations id r.events + if r.sent id = some false then 1 else 0

theorem Balanced.terminations_le {r : Roster Id} (h : r.Balanced) (hreplaced : r.replaced = [])
    (id : Id) : terminations id r.events ≤ introductions id r.events := by
  have := h hreplaced id
  omega

/-- A connection that is not live has all its terminal events. -/
theorem Balanced.terminations_eq {r : Roster Id} (h : r.Balanced) (hreplaced : r.replaced = [])
    {id : Id} (hid : r.sent id = none) :
    terminations id r.events = introductions id r.events := by
  have := h hreplaced id
  simp only [hid, reduceCtorEq, if_false] at this
  omega

theorem Balanced.perm {r : Roster Id} (h : r.Balanced) {events : List (Event Id)}
    (hperm : events.Perm r.events) : { r with events }.Balanced := by
  intro hreplaced id
  unfold introductions terminations
  rw [hperm.countP_eq, hperm.countP_eq]
  exact h hreplaced id

theorem Step.balanced {r r' : Roster Id} (hstep : Step r r') (h : r.Balanced) : r'.Balanced := by
  intro hreplaced id
  cases hstep with
  | replace id' => simp at hreplaced
  | push hordinary =>
    rename_i events
    have hbalance := h hreplaced id
    unfold introductions terminations at hbalance ⊢
    have hnone (p : Event Id → Bool) (hp : ∀ e ∈ events, p e = false) : events.countP p = 0 :=
      List.countP_eq_zero.mpr fun e he => by simp [hp e he]
    rw [List.countP_append, List.countP_append,
      hnone _ fun e he => by simp [(hordinary e he).introduces],
      hnone _ fun e he => by simp [(hordinary e he).terminates]]
    exact hbalance
  | register hfree isServer =>
    rename_i id'
    have hbalance := h hreplaced id
    unfold introductions terminations at hbalance ⊢
    rw [List.countP_append, List.countP_append, hbalance]
    by_cases hid : id = id'
    · subst hid
      simp [hfree, Event.terminates, Event.introduces]
    · simp [Function.update_of_ne hid, Event.terminates, Event.introduces, Ne.symm hid]
  | report hunsent hterminates =>
    rename_i id' e
    have hbalance := h hreplaced id
    have hintroduces := Event.introduces_of_terminates hterminates
    unfold introductions terminations at hbalance ⊢
    rw [List.countP_append, List.countP_append, hbalance]
    by_cases hid : id = id'
    · subst hid
      simp [hunsent, hterminates, hintroduces]
    · simp [Function.update_of_ne hid, hterminates, hintroduces, Ne.symm hid]
  | forget hsent =>
    rename_i id'
    have hbalance := h hreplaced id
    rw [hbalance]
    by_cases hid : id = id'
    · subst hid
      simp [hsent]
    · simp [Function.update_of_ne hid]

theorem Balanced.steps {r r' : Roster Id} (h : r.Balanced)
    (hsteps : Relation.ReflTransGen Step r r') : r'.Balanced := by
  induction hsteps with
  | refl => exact h
  | tail _ hstep ih => exact hstep.balanced ih

/-- A roster whose events come after earlier ones. -/
def after (earlier : List (Event Id)) (r : Roster Id) : Roster Id :=
  { r with events := earlier ++ r.events }

theorem Step.after {r r' : Roster Id} (hstep : Step r r') (earlier : List (Event Id)) :
    Step (r.after earlier) (r'.after earlier) := by
  unfold Roster.after
  cases hstep with
  | push hordinary =>
    rw [← List.append_assoc]
    exact .push { r with events := earlier ++ r.events } hordinary
  | register hfree isServer =>
    rw [← List.append_assoc]
    exact .register { r with events := earlier ++ r.events } hfree isServer
  | report hunsent hterminates =>
    rw [← List.append_assoc]
    exact .report { r with events := earlier ++ r.events } hunsent hterminates
  | forget hsent => exact .forget { r with events := earlier ++ r.events } hsent
  | replace id => exact .replace { r with events := earlier ++ r.events } id

end Roster

end Aquic.Backend
