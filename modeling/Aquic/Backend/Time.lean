import Aquic.Util.Timer.Steps

/-!
# The clock and timers of a backend

`backend/quiche/time.rs` and `backend/quinn/time.rs` wrap the wheel timer in the same way: a tick of
one millisecond, a first level of 64 ticks, events that become `None` when they are cancelled, and the
buckets that have fired and wait to be handled. With these parameters the timer cannot panic, so
`schedule` is a total function.
-/

namespace Aquic.Timer.WheelTimer

variable {α : Type*}

theorem extendLevels_parameters {t t' : WheelTimer α} {n : Nat} (h : t.extendLevels n = some t') :
    t'.startHz = t.startHz ∧ t'.startCoverage = t.startCoverage ∧ n ≤ t'.levels.length := by
  unfold extendLevels at h
  split at h
  · cases h
    exact ⟨rfl, rfl, ‹_›⟩
  · next hlt =>
    obtain ⟨level, -, rfl⟩ := Option.map_eq_some_iff.mp h
    exact ⟨rfl, rfl, by simp; omega⟩

theorem new_total {startHz startCoverage : Duration} (hle : startHz.nanos ≤ startCoverage.nanos)
    (h : (Level.new (bucketsCount startHz.nanos startCoverage.nanos) : Option (Level α)).isSome)
    (now : Instant) :
    ∃ t : WheelTimer α, new startHz startCoverage now = some t ∧ t.startHz = startHz ∧
      t.startCoverage = startCoverage := by
  obtain ⟨level, hlevel⟩ := Option.isSome_iff_exists.mp h
  rw [new, if_neg (by omega), extendLevels, if_neg (by simp), hlevel]
  exact ⟨_, rfl, rfl, rfl⟩

/-- `schedule` panics only where a level cannot be created, and it keeps the parameters. -/
theorem schedule_total {t : WheelTimer α}
    (h : (Level.new (bucketsCount t.startHz.nanos t.startCoverage.nanos) :
      Option (Level α)).isSome) (event : α) (due now : Instant) :
    ∃ t' key, t.schedule event due now = some (t', key) ∧ t'.startHz = t.startHz ∧
      t'.startCoverage = t.startCoverage := by
  obtain ⟨level, hlevel⟩ := Option.isSome_iff_exists.mp h
  generalize hi :
    findIndexByDuration t.startCoverage.nanos (due.saturatingDurationSince now).nanos = i
  have hensure : ∃ t₁, t.ensureLevel i = some t₁ ∧ t₁.startHz = t.startHz ∧
      t₁.startCoverage = t.startCoverage ∧ i < t₁.levels.length := by
    unfold ensureLevel
    split
    · have hsome : (t.extendLevels (i + 1)).isSome := by
        unfold extendLevels
        split <;> simp [hlevel]
      obtain ⟨t₁, ht₁⟩ := Option.isSome_iff_exists.mp hsome
      obtain ⟨hhz, hcov, hlen⟩ := extendLevels_parameters ht₁
      exact ⟨t₁, ht₁, hhz, hcov, hlen⟩
    · exact ⟨t, rfl, rfl, rfl, by omega⟩
  obtain ⟨t₁, ht₁, hhz, hcov, hlen⟩ := hensure
  simp only [schedule, hi, ht₁, Option.bind_eq_bind, Option.bind_some,
    List.getElem?_eq_getElem hlen]
  exact ⟨_, _, rfl, hhz, hcov⟩

end Aquic.Timer.WheelTimer

namespace Aquic.Backend

open Aquic.Timer

/-- `Duration::from_millis(1)`. -/
def tickDuration : Duration := ⟨10 ^ 6, by decide⟩

/-- `Duration::from_millis(64)`. -/
def firstCoverage : Duration := ⟨64 * 10 ^ 6, by decide⟩

/-- The part of `Time` that the two backends share. -/
structure EventTimer (E : Type) where
  timer : WheelTimer (Option E)
  startHz : timer.startHz = tickDuration
  startCoverage : timer.startCoverage = firstCoverage
  /-- Fired events that are ready to be handled, in the order in which they were pushed. -/
  firedEvents : List (List (Option E))
  /-- Current monotonical time. -/
  clock : Instant

namespace EventTimer

variable {E : Type}

theorem new_total (clock : Instant) :
    ∃ t : WheelTimer (Option E), WheelTimer.new tickDuration firstCoverage clock = some t ∧
      t.startHz = tickDuration ∧ t.startCoverage = firstCoverage :=
  WheelTimer.new_total (by decide) rfl clock

/-- `Time::new`. -/
def new (clock : Instant) : EventTimer E :=
  { timer := (WheelTimer.new tickDuration firstCoverage clock).get (by
      obtain ⟨t, h, -⟩ := new_total (E := E) clock
      simp [h])
    startHz := by
      obtain ⟨t, h, hhz, -⟩ := new_total (E := E) clock
      simp [h, hhz]
    startCoverage := by
      obtain ⟨t, h, -, hcov⟩ := new_total (E := E) clock
      simp [h, hcov]
    firedEvents := []
    clock }

theorem level_isSome (t : EventTimer E) :
    (Level.new (bucketsCount t.timer.startHz.nanos t.timer.startCoverage.nanos) :
      Option (Level (Option E))).isSome := by
  rw [t.startHz, t.startCoverage]
  rfl

theorem schedule_isSome (t : EventTimer E) (event : E) (due : Instant) :
    (t.timer.schedule (some event) due t.clock).isSome := by
  obtain ⟨t', key, h, -⟩ := WheelTimer.schedule_total t.level_isSome (some event) due t.clock
  simp [h]

/-- `Time::schedule`. -/
def schedule (t : EventTimer E) (event : E) (due : Instant) : EventTimer E × TimerKey :=
  let scheduled := (t.timer.schedule (some event) due t.clock).get (t.schedule_isSome event due)
  ({ t with
      timer := scheduled.1
      startHz := by
        obtain ⟨t', key, h, hhz, -⟩ :=
          WheelTimer.schedule_total t.level_isSome (some event) due t.clock
        simp [scheduled, h, hhz, t.startHz]
      startCoverage := by
        obtain ⟨t', key, h, -, hcov⟩ :=
          WheelTimer.schedule_total t.level_isSome (some event) due t.clock
        simp [scheduled, h, hcov, t.startCoverage] },
    scheduled.2)

/-- `Time::cancel`. -/
def cancel (t : EventTimer E) (key : TimerKey) : EventTimer E :=
  { t with
    timer := t.timer.cancel key
    startHz := by
      unfold WheelTimer.cancel
      split <;> exact t.startHz
    startCoverage := by
      unfold WheelTimer.cancel
      split <;> exact t.startCoverage }

/-- `Time::reschedule`. -/
def reschedule (t : EventTimer E) (event : E) (due : Instant) (previousKey : Option TimerKey) :
    EventTimer E × TimerKey :=
  match previousKey with
  | none => t.schedule event due
  | some key => (t.cancel key).schedule event due

/-- `Time::tick`. -/
def tick (t : EventTimer E) : EventTimer E :=
  { t with
    timer := (t.timer.progress t.clock).1
    startHz := (WheelTimer.progressLoop_parameters ..).1.trans t.startHz
    startCoverage := (WheelTimer.progressLoop_parameters ..).2.1.trans t.startCoverage
    firedEvents := t.firedEvents ++ (t.timer.progress t.clock).2 }

/-- `time.fired_events().pop()` until it is empty, and `bucket.pop()` until it is empty: the events
in the order in which they are handled. -/
def popFiredEvents (t : EventTimer E) : EventTimer E × List E :=
  ({ t with firedEvents := [] }, (t.firedEvents.reverse.map List.reverse).flatten.reduceOption)

theorem schedule_eq (t : EventTimer E) (event : E) (due : Instant) :
    t.timer.schedule (some event) due t.clock =
      some ((t.schedule event due).1.timer, (t.schedule event due).2) :=
  (Option.some_get _).symm

@[simp]
theorem schedule_clock (t : EventTimer E) (event : E) (due : Instant) :
    (t.schedule event due).1.clock = t.clock :=
  rfl

@[simp]
theorem cancel_clock (t : EventTimer E) (key : TimerKey) : (t.cancel key).clock = t.clock := rfl

@[simp]
theorem reschedule_clock (t : EventTimer E) (event : E) (due : Instant)
    (previousKey : Option TimerKey) : (t.reschedule event due previousKey).1.clock = t.clock := by
  unfold reschedule
  split <;> rfl

/-- `tick` on the wheel. -/
theorem tick_eq {t : EventTimer E} {timer : WheelTimer (Option E)} {fired : List (List (Option E))}
    (h : t.timer.progress t.clock = (timer, fired)) :
    ∃ startHz startCoverage, t.tick =
      { timer, startHz, startCoverage, firedEvents := t.firedEvents ++ fired, clock := t.clock } := by
  obtain rfl : (t.timer.progress t.clock).1 = timer := congrArg Prod.fst h
  obtain rfl : (t.timer.progress t.clock).2 = fired := congrArg Prod.snd h
  exact ⟨_, _, rfl⟩

/-- `reschedule` on the wheel. -/
theorem reschedule_eq (t : EventTimer E) (event : E) (due : Instant)
    (previousKey : Option TimerKey) :
    (previousKey.elim t.timer t.timer.cancel).schedule (some event) due t.clock =
      some ((t.reschedule event due previousKey).1.timer,
        (t.reschedule event due previousKey).2) := by
  cases previousKey with
  | none => exact t.schedule_eq event due
  | some key => exact (t.cancel key).schedule_eq event due

end EventTimer

end Aquic.Backend
