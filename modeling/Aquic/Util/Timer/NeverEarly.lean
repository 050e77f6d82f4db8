import Aquic.Lib.Run
import Aquic.Util.Timer.Generic
import Aquic.Util.Timer.Steps

/-!
# No event fires before it is due

A run of a wheel timer is any sequence of `schedule`, `progress` and `cancel` calls whose `now`
never goes back. To speak about *an* event of such a run, events are stamped with the instant they
were scheduled for. The timer never looks at its events, so forgetting the stamps turns such a run
into the run over the plain events (`calls_erase`).

`schedule` counts in ticks from the timer's clock, but measures the duration from `now`, and it
rounds up to whole ticks of a level. So the earliest clock at which the chosen bucket can come up is
a property of the state, `dueClock`, and the invariant is that no stamped event sits in a bucket
that comes up too early. It survives ticks, cancellations and level extensions without further ado;
`schedule` establishes it for the new event exactly when two things hold (`InTime`):

* the rounded-up duration is less than one revolution of the level — otherwise it wraps around to
  the bucket that is processed next;
* the timer is not further behind `now` than rounding up to level ticks makes up for.
-/

namespace Aquic.Timer

open Aquic.Word Aquic.Run

variable {α : Type*}

/-- An event with the instant it was scheduled for; a cancelled one is `none`. -/
abbrev Stamped (α : Type*) := Option (α × Instant)

/-- A timer in use: the last `now` it was called with, and every bucket pushed to `out` so far
together with the `now` of the `progress` call that pushed it. -/
structure Clocked (α : Type*) where
  timer : WheelTimer (Stamped α)
  now : Instant
  fired : List (Instant × List (Stamped α))
  deriving DecidableEq

/-- The calls of a run. -/
inductive Op (α : Type*) where
  | schedule (event : α) (due now : Instant)
  | progress (now : Instant)
  | cancel (key : TimerKey)

/-- One call. `now` never goes back, and a panicking call ends the run. -/
def Clocked.call (s : Clocked α) : Op α → Option (Clocked α)
  | .schedule event due now =>
    if s.now.nanos ≤ now.nanos then
      (s.timer.schedule (some (event, due)) due now).map fun r => { s with timer := r.1, now }
    else
      none
  | .progress now =>
    if s.now.nanos ≤ now.nanos then
      let progressed := s.timer.progress now
      some { timer := progressed.1, now, fired := s.fired ++ progressed.2.map (now, ·) }
    else
      none
  | .cancel key => some { s with timer := s.timer.cancel key }

/-- A timer right after `WheelTimer::new`. -/
def Clocked.new (hz coverage : Duration) (now : Instant) : Option (Clocked α) :=
  (WheelTimer.new hz coverage now).map fun timer => { timer, now, fired := [] }

/-- The initial states of the runs. -/
def Init (hz coverage : Duration) (s : Clocked α) : Prop :=
  ∃ now, Clocked.new hz coverage now = some s

/-- Forgets the stamp; a cancelled event is the default value. -/
def Stamped.erase [Inhabited α] (e : Stamped α) : α := e.elim default Prod.fst

/-- A timer over plain events, driven by the same calls, is the stamped one with the stamps
forgotten, and so is everything it pushes to `out`. -/
theorem calls_erase [Inhabited α] (t : WheelTimer (Stamped α)) (event : α) (due now : Instant)
    (key : TimerKey) :
    (t.map Stamped.erase).schedule event due now
        = (t.schedule (some (event, due)) due now).map (fun r => (r.1.map Stamped.erase, r.2)) ∧
      (t.map Stamped.erase).progress now
        = ((t.progress now).1.map Stamped.erase, (t.progress now).2.map (·.map Stamped.erase)) ∧
      (t.map Stamped.erase).cancel key = (t.cancel key).map Stamped.erase :=
  ⟨WheelTimer.schedule_map Stamped.erase t (some (event, due)) due now,
    WheelTimer.progress_map _ t now, WheelTimer.cancel_map (f := Stamped.erase) rfl t key⟩

/-! ## When a call is in time -/

namespace WheelTimer

/-- How far the timer is behind `now`: the ticks that are overdue have not been processed yet. -/
def lag (t : WheelTimer α) (now : Instant) : Nat := now.nanos - t.currentClock

/-- The same once `schedule` has created level `i` if necessary: that restarts the counter. -/
def ticksBeforeExtended (t : WheelTimer α) (i : Nat) : Nat :=
  if t.levels.length ≤ i then 2 ^ i - 1 else t.ticksBefore i

/-- What rounding up adds to a duration of `nanos` that becomes `ticks` ticks of level `i`. -/
def slack (t : WheelTimer α) (i ticks nanos : Nat) : Nat :=
  ticks * (t.startHz.nanos * 2 ^ i) - nanos + t.ticksBeforeExtended i * t.startHz.nanos

end WheelTimer

/-- The condition on a call: a scheduled duration is less than one revolution of its level, and,
unless the event is due already, the timer lags behind by no more than rounding up makes up for. -/
def InTime (s : Clocked α) : Op α → Prop
  | .schedule _ due now =>
    let hz := s.timer.startHz.nanos
    let coverage := s.timer.startCoverage.nanos
    let nanos := (due.saturatingDurationSince now).nanos
    let levelIndex := findIndexByDuration coverage nanos
    let ticks := durationToLevelTicks hz nanos levelIndex
    ticks < bucketsCount hz coverage ∧
      (due.nanos ≤ now.nanos ∨ s.timer.lag now ≤ s.timer.slack levelIndex ticks nanos)
  | _ => True

instance : DecidableRel (InTime (α := α))
  | _, .schedule .. => inferInstanceAs (Decidable (_ ∧ _))
  | _, .progress _ => .isTrue trivial
  | _, .cancel _ => .isTrue trivial

/-! ## The invariant -/

namespace WheelTimer

/-- No event waits in a bucket that comes up before the event is due. -/
def OnTime (t : WheelTimer (Stamped α)) (now : Nat) : Prop :=
  ∀ i l k, t.levels[i]? = some l → k < l.buckets.length → ∀ event due,
    some (event, due) ∈ l.upcoming k → due.nanos ≤ now ∨ due.nanos ≤ t.dueClock i k

/-- A tick never brings the due clock of a waiting event forward. -/
theorem advance_onTime {t : WheelTimer (Stamped α)} {now : Nat} (hs : t.Shape)
    (h : t.OnTime now) : t.advance.OnTime now := by
  intro i l k hl hk event due hmem
  rw [advance_getElem?] at hl
  split at hl
  · next hadv =>
    obtain ⟨l₀, hl₀, rfl⟩ := Option.map_eq_some_iff.mp hl
    have hwf := hs.level_wf _ (List.mem_of_getElem? hl₀)
    rw [Level.tick_length] at hk
    rw [Level.upcoming_tick hwf hk] at hmem
    split at hmem
    · simp at hmem
    · next hlast =>
      rw [dueClock_advance_of_advances hadv]
      exact h i l₀ (k + 1) hl₀ (by omega) event due hmem
  · next hadv =>
    refine (h i l k hl hk event due hmem).imp_right fun hdue => hdue.trans ?_
    have hbefore := ticksBefore_le_of_not_advances hs.tick_lt hadv
    have hmul : (t.ticksBefore i + k * 2 ^ i) * t.startHz.nanos
        ≤ (t.advance.ticksBefore i + k * 2 ^ i + 1) * t.startHz.nanos :=
      Nat.mul_le_mul_right _ (by
        show _ ≤ 2 ^ i - 1 - t.nextTick % 2 ^ i + k * 2 ^ i + 1
        omega)
    rw [Nat.add_mul _ 1, Nat.one_mul] at hmul
    show t.currentClock + _ ≤ t.currentClock + t.startHz.nanos + _ * t.startHz.nanos
    omega

/-- What a tick hands out was due at the clock of that tick. -/
theorem tick_fired {t : WheelTimer (Stamped α)} {now : Nat} (hs : t.Shape) (h : t.OnTime now)
    {bucket : List (Stamped α)} (hb : bucket ∈ t.tick.2) {event : α} {due : Instant}
    (he : some (event, due) ∈ bucket) : due.nanos ≤ now ∨ due.nanos ≤ t.currentClock := by
  obtain ⟨i, l, hi, hl, rfl⟩ := mem_tickLevels hb
  have hwf := hs.level_wf _ (List.mem_of_getElem? hl)
  rw [Level.tick_elements hwf] at he
  refine (h i l 0 hl hwf.length_pos event due he).imp_right fun hdue => ?_
  have hadv : i ≤ trailingZeros usizeBits t.nextTick := by
    have : i < min (trailingZeros usizeBits t.nextTick) (t.levels.length - 1) + 1 := hi
    omega
  have hbefore := (ticksBefore_of_advances hadv).1
  simpa [dueClock, hbefore] using hdue

/-! ### `progress` -/

/-- The loop of `progress` keeps the invariant, and pushes only events that are due. -/
theorem progressLoop_onTime (fuel : Nat) {t : WheelTimer (Stamped α)} {last now : Nat}
    (hs : t.Shape) (h : t.OnTime last) (hnow : last ≤ now) :
    (progressLoop fuel t now).1.Shape ∧ (progressLoop fuel t now).1.OnTime last ∧
      ∀ bucket ∈ (progressLoop fuel t now).2, ∀ event due, some (event, due) ∈ bucket →
        due.nanos ≤ now := by
  induction fuel generalizing t with
  | zero => exact ⟨hs, h, by simp [progressLoop]⟩
  | succ fuel ih =>
    unfold progressLoop
    split
    · next hclock =>
      obtain ⟨hs', h', hfired⟩ := ih (advance_shape hs) (advance_onTime hs h)
      refine ⟨hs', h', fun bucket hb event due he => ?_⟩
      rcases List.mem_append.mp hb with hb | hb
      · rcases tick_fired hs h hb he with hdue | hdue <;> omega
      · exact hfired bucket hb event due he
    · exact ⟨hs, h, by simp⟩

/-- Restarting the counter only delays: a level then waits for a whole period. -/
theorem extendLevels_onTime {t t' : WheelTimer (Stamped α)} {n now : Nat}
    (h : t.extendLevels n = some t') (hon : t.OnTime now) : t'.OnTime now := by
  obtain ⟨added, rfl, -, hadded⟩ := extendLevels_eq_some h
  intro i l k hl hk event due hmem
  rcases getElem?_append_new hadded hl with hl | ⟨-, hnew⟩
  · refine (hon i l k hl hk event due hmem).imp_right fun hdue => hdue.trans ?_
    have hbefore : t.ticksBefore i ≤ 2 ^ i - 1 - 0 % 2 ^ i := by
      unfold ticksBefore
      rw [Nat.zero_mod]
      omega
    exact Nat.add_le_add_left (Nat.mul_le_mul_right _ (Nat.add_le_add_right hbefore _)) _
  · rw [Level.upcoming_new hnew] at hmem
    simp at hmem

/-- A scheduled event waits in a bucket that comes up late enough, provided it lands within one
revolution and its own due clock is not too early. -/
theorem set_schedule_onTime {t : WheelTimer (Stamped α)} {now i ticks : Nat}
    {l : Level (Stamped α)} {event : α} {due : Instant} (hs : t.Shape) (hon : t.OnTime now)
    (hl : t.levels[i]? = some l) (hticks : ticks < l.buckets.length)
    (hdue : due.nanos ≤ now ∨ due.nanos ≤ t.dueClock i ticks) :
    OnTime { t with levels := t.levels.set i (l.schedule (some (event, due)) ticks).1 } now := by
  have hwf := hs.level_wf l (List.mem_of_getElem? hl)
  intro j l' k hl' hk event' due' hmem
  by_cases hji : i = j
  · subst hji
    have hi : i < t.levels.length := (List.getElem?_eq_some_iff.mp hl).1
    obtain rfl : (l.schedule (some (event, due)) ticks).1 = l' := by simpa [hi] using hl'
    rw [Level.schedule_length] at hk
    rw [Level.upcoming_schedule hwf _ hk hticks] at hmem
    split at hmem
    · next hkt =>
      subst hkt
      rcases List.mem_append.mp hmem with hmem | hmem
      · exact hon i l k hl hk event' due' hmem
      · obtain ⟨rfl, rfl⟩ : event' = event ∧ due' = due := by simpa using hmem
        exact hdue
    · exact hon i l k hl hk event' due' hmem
  · rw [List.getElem?_set_ne hji] at hl'
    exact hon j l' k hl' hk event' due' hmem

theorem OnTime.mono {t : WheelTimer (Stamped α)} {now now' : Nat} (h : t.OnTime now)
    (hle : now ≤ now') : t.OnTime now' :=
  fun i l k hl hk event due hmem => (h i l k hl hk event due hmem).imp_left (·.trans hle)

/-- The due clock of the bucket `schedule` chooses is late enough if the timer is in time. -/
theorem le_dueClock_of_lag {t t₁ : WheelTimer α} {due now : Instant} {i ticks : Nat}
    (hext : (t.levels.length ≤ i ∧ t.extendLevels (i + 1) = some t₁) ∨
      (i < t.levels.length ∧ t₁ = t))
    (hround : (due.saturatingDurationSince now).nanos ≤ ticks * (t.startHz.nanos * 2 ^ i))
    (hlag : t.lag now ≤ t.slack i ticks (due.saturatingDurationSince now).nanos) :
    due.nanos ≤ t₁.dueClock i ticks := by
  have hfields : t₁.currentClock = t.currentClock ∧ t₁.startHz = t.startHz ∧
      t₁.ticksBefore i = t.ticksBeforeExtended i := by
    unfold ticksBeforeExtended
    rcases hext with ⟨hle, hext⟩ | ⟨hlt, rfl⟩
    · obtain ⟨added, rfl, -, -⟩ := extendLevels_eq_some hext
      rw [if_pos hle]
      exact ⟨rfl, rfl, by simp [ticksBefore]⟩
    · rw [if_neg (by omega)]
      exact ⟨rfl, rfl, rfl⟩
  obtain ⟨hclock, hhz, hbefore⟩ := hfields
  have hmul : ticks * (t.startHz.nanos * 2 ^ i) = ticks * 2 ^ i * t.startHz.nanos := by
    rw [Nat.mul_comm t.startHz.nanos, Nat.mul_assoc]
  unfold dueClock
  rw [hclock, hhz, hbefore, Nat.add_mul]
  simp only [lag, slack, Instant.saturatingDurationSince] at hlag hround
  rw [hmul] at hlag hround
  omega

theorem cancel_onTime {t : WheelTimer (Stamped α)} {now : Nat} (hon : t.OnTime now)
    (key : TimerKey) : (t.cancel key).OnTime now := by
  unfold cancel
  split
  · intro i l k hl hk event due hmem
    rw [List.getElem?_modify] at hl
    obtain ⟨l₀, hl₀, rfl⟩ := Option.map_eq_some_iff.mp hl
    split at hmem
    · next heq =>
      rw [if_pos heq, Level.cancel_length] at hk
      rcases Level.mem_upcoming_cancel hmem with hdef | hmem
      · exact absurd hdef (by simp [default])
      · exact hon i l₀ k hl₀ hk event due hmem
    · next hne =>
      rw [if_neg hne] at hk
      exact hon i l₀ k hl₀ hk event due hmem
  · exact hon

end WheelTimer

/-! ## Every run -/

/-- What holds after every call: the timer's invariant, and that nothing was handed out early. -/
structure Inv (s : Clocked α) : Prop where
  shape : s.timer.Shape
  onTime : s.timer.OnTime s.now.nanos
  fired : ∀ now bucket, (now, bucket) ∈ s.fired → ∀ event due, some (event, due) ∈ bucket →
    due.nanos ≤ now.nanos

theorem inv_init {hz coverage : Duration} (hhz : 0 < hz.nanos) {s : Clocked α}
    (h : Init hz coverage s) : Inv s := by
  obtain ⟨now, h⟩ := h
  obtain ⟨timer, hnew, rfl⟩ := Option.map_eq_some_iff.mp h
  obtain ⟨hshape, -, -, hadded⟩ := WheelTimer.new_shape hhz hnew
  refine ⟨hshape, ?_, by simp⟩
  intro i l k hl _ event due hmem
  rw [Level.upcoming_new (hadded l (List.mem_of_getElem? hl))] at hmem
  simp at hmem

theorem inv_call {s s' : Clocked α} {op : Op α} (hinv : Inv s) (hok : InTime s op)
    (hcall : s.call op = some s') : Inv s' := by
  obtain ⟨hs, hon, hfired⟩ := hinv
  cases op with
  | cancel key =>
    obtain rfl := Option.some.inj hcall
    exact ⟨WheelTimer.cancel_shape hs _, WheelTimer.cancel_onTime hon _, hfired⟩
  | progress now =>
    simp only [Clocked.call, Option.ite_none_right_eq_some, Option.some.injEq] at hcall
    obtain ⟨hnow, rfl⟩ := hcall
    obtain ⟨hs', hon', hdue⟩ := WheelTimer.progressLoop_onTime _ hs hon hnow
    refine ⟨hs', hon'.mono hnow, fun now bucket hmem event due he => ?_⟩
    rcases List.mem_append.mp hmem with hmem | hmem
    · exact hfired now bucket hmem event due he
    · obtain ⟨b, hb, heq⟩ := List.mem_map.mp hmem
      obtain ⟨rfl, rfl⟩ := Prod.mk.inj heq
      exact hdue b hb event due he
  | schedule event due now =>
    simp only [Clocked.call, Option.ite_none_right_eq_some, Option.map_eq_some_iff] at hcall
    obtain ⟨hnow, ⟨timer, key⟩, hsched, rfl⟩ := hcall
    obtain ⟨t₁, l, hext, hl, rfl, -⟩ := WheelTimer.schedule_eq_some hsched
    obtain ⟨hticks, hlag⟩ := hok
    have hround := (durationToLevelTicks_spec hs.hz_pos hs.hz_le s.timer.startCoverage.isLt
      (due.saturatingDurationSince now).isLt hs.count_ne).1
    have h₁ : t₁.Shape ∧ t₁.OnTime s.now.nanos ∧
        bucketsCount t₁.startHz.nanos t₁.startCoverage.nanos
          = bucketsCount s.timer.startHz.nanos s.timer.startCoverage.nanos := by
      rcases hext with ⟨-, hext⟩ | ⟨-, rfl⟩
      · refine ⟨WheelTimer.extendLevels_shape hs hext, WheelTimer.extendLevels_onTime hext hon, ?_⟩
        obtain ⟨added, rfl, -, -⟩ := WheelTimer.extendLevels_eq_some hext
        rfl
      · exact ⟨hs, hon, rfl⟩
    obtain ⟨hs₁, hon₁, hcount⟩ := h₁
    have hlen := hs₁.level_length l (List.mem_of_getElem? hl)
    refine ⟨WheelTimer.set_shape hs₁ (Level.schedule_wf (hs₁.level_wf l (List.mem_of_getElem? hl))
      _ _) ?_, WheelTimer.set_schedule_onTime hs₁ (hon₁.mono hnow) hl ?_ ?_, hfired⟩
    · rw [Level.schedule_length]; exact hlen
    · rw [hlen, hcount]; exact hticks
    · exact hlag.imp_right (WheelTimer.le_dueClock_of_lag hext hround)

/-- **No event fires early**: in every run whose `schedule` calls are in time, whatever a `progress`
call pushes to `out` was due by the `now` of that call. -/
theorem fired_due_le_now {hz coverage : Duration} (hhz : 0 < hz.nanos) {s : Clocked α}
    (h : Reachable (Init hz coverage) InTime Clocked.call s) :
    ∀ now bucket, (now, bucket) ∈ s.fired → ∀ event due, some (event, due) ∈ bucket →
      due.nanos ≤ now.nanos :=
  (h.invariant (fun _ => inv_init hhz) fun _ _ _ hinv hok hcall => inv_call hinv hok hcall).fired

/-- A run with the backends' timer (1 ms ticks, 64 ms span): a timeout of 1.5 ms fires at 2 ms. -/
theorem fired_due_le_now_short_timeout :
    let due : Instant := ⟨1500000, by decide⟩
    let now : Instant := ⟨2000000, by decide⟩
    ∃ s : Clocked Unit, (now, [some ((), due)]) ∈ s.fired ∧ due.nanos ≤ now.nanos := by
  intro due now
  let start : Instant := ⟨0, by decide⟩
  have hrun : ∃ s : Clocked Unit, Reachable (Init ⟨10 ^ 6, by decide⟩ ⟨64 * 10 ^ 6, by decide⟩)
      InTime Clocked.call s ∧ decide ((now, [some ((), due)]) ∈ s.fired) = true :=
    exists_reachable (Clocked.new _ _ start) (fun s hs => ⟨start, hs⟩)
      [.schedule () due start, .progress now] (by decide +kernel)
  obtain ⟨s, hs, hfired⟩ := hrun
  have hfired := of_decide_eq_true hfired
  exact ⟨s, hfired, fired_due_le_now (by decide) hs now _ hfired () due (by simp)⟩

/-- Without the condition the statement is false, already for the backends' timer: a timeout of
63.5 ms is 64 ticks, one whole revolution, and the next tick hands it out. -/
theorem fired_before_due :
    ¬ ∀ (hz coverage : Duration), 0 < hz.nanos → hz.nanos ≤ coverage.nanos →
      ∀ s : Clocked Unit, Reachable (Init hz coverage) anyStep Clocked.call s →
        ∀ now bucket, (now, bucket) ∈ s.fired → ∀ event due, some (event, due) ∈ bucket →
          due.nanos ≤ now.nanos := by
  intro h
  let start : Instant := ⟨0, by decide⟩
  let due : Instant := ⟨63500000, by decide⟩
  have hrun : ∃ s : Clocked Unit, Reachable (Init ⟨10 ^ 6, by decide⟩ ⟨64 * 10 ^ 6, by decide⟩)
      anyStep Clocked.call s ∧ decide ((start, [some ((), due)]) ∈ s.fired) = true :=
    exists_reachable (Clocked.new _ _ start) (fun s hs => ⟨start, hs⟩)
      [.schedule () due start, .progress start] (by decide +kernel)
  obtain ⟨s, hs, hfired⟩ := hrun
  have hle := h _ _ (by decide) (by decide) s hs start _ (of_decide_eq_true hfired) () due
    (by simp)
  exact absurd hle (by decide)

end Aquic.Timer
