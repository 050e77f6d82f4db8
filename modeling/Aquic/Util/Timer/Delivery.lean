import Aquic.Util.Timer.Cancel

/-!
# Every event is delivered, once, and not too late

Level `i` ticks once in `2 ^ i` base ticks, in a phase that the shared tick counter fixes and every
extension of the levels restarts. From the state of a timer one can nevertheless tell at which clock
the bucket of a key comes up (`comesUp`): ticks do not change it, and an extension moves it by less
than one tick of the level. When an event is scheduled, its bucket comes up less than two level
ticks after the event is due, so the number of later extensions bounds the delay.

That an event is delivered exactly once is the bookkeeping of `Tracked`, whose condition on the
epochs holds as long as there are fewer than `2 ^ 64` ticks.
-/

namespace Aquic.Timer

open Aquic.Word Aquic.Run

variable {α : Type*}

/-! ## When a bucket comes up -/

namespace Level

/-- How many level ticks come before the one that detaches bucket `i`. -/
def distance (l : Level α) (i : Nat) : Nat :=
  (i + l.buckets.length - l.index) % l.buckets.length

theorem distance_add {l : Level α} (h : l.Wf) (k : Nat) :
    l.distance ((l.index + k) % l.buckets.length) = k % l.buckets.length := by
  have hindex := h.index_lt
  unfold distance
  have hmod : (l.index + k) % l.buckets.length + l.buckets.length - l.index
      ≡ k [MOD l.buckets.length] := by
    refine Nat.ModEq.add_right_cancel' l.index ?_
    rw [Nat.sub_add_cancel (by omega), Nat.add_comm k]
    exact (Nat.add_mod_right ..).trans (Nat.mod_mod ..)
  exact hmod

theorem distance_tick {l : Level α} (h : l.Wf) {i : Nat} (hi : i < l.buckets.length)
    (hne : i ≠ l.index) : l.tick.1.distance i + 1 = l.distance i := by
  have hindex := h.index_lt
  unfold distance
  rw [tick_length]
  simp only [tick, masked_index h]
  rcases Nat.lt_or_gt_of_ne hne with hlt | hgt
  · rw [show i + l.buckets.length - l.index = l.buckets.length - (l.index - i) by omega,
      Nat.mod_eq_of_lt (a := l.buckets.length - (l.index - i)) (by omega)]
    rcases Nat.lt_or_ge (l.index + 1) l.buckets.length with hnext | hlast
    · rw [Nat.mod_eq_of_lt hnext, Nat.mod_eq_of_lt (by omega)]
      omega
    · rw [show l.index + 1 = l.buckets.length by omega, Nat.mod_self, Nat.sub_zero,
        Nat.add_mod_right, Nat.mod_eq_of_lt hi]
      omega
  · rw [show i + l.buckets.length - l.index = i - l.index + l.buckets.length by omega,
      Nat.add_mod_right, Nat.mod_eq_of_lt (a := i - l.index) (by omega),
      Nat.mod_eq_of_lt (show l.index + 1 < l.buckets.length by omega),
      show i + l.buckets.length - (l.index + 1) = i - (l.index + 1) + l.buckets.length by omega,
      Nat.add_mod_right, Nat.mod_eq_of_lt (by omega)]
    omega

end Level

namespace WheelTimer

/-- How many ticks of its level come before the one that detaches the bucket of a key. -/
def distance (t : WheelTimer α) (key : TimerKey) : Nat :=
  t.levels[key.levelIndex]?.elim 0 (·.distance key.levelKey.bucketIndex)

/-- The clock of the tick that detaches the bucket of a key. -/
def comesUp (t : WheelTimer α) (key : TimerKey) : Nat :=
  t.dueClock key.levelIndex (t.distance key)

theorem currentClock_le_comesUp (t : WheelTimer α) (key : TimerKey) :
    t.currentClock ≤ t.comesUp key :=
  Nat.le_add_right ..

/-- Without an overflow of the counter, a level that does not advance is one tick closer to it. -/
theorem dueClock_advance_of_not_advances {t : WheelTimer α} {i : Nat}
    (htick : t.currentTick + 1 < 2 ^ usizeBits)
    (hadv : ¬ i ≤ trailingZeros usizeBits t.nextTick) (k : Nat) :
    t.advance.dueClock i k = t.dueClock i k := by
  have hnext : t.nextTick = t.currentTick + 1 := wrappingAdd_of_lt htick
  have hbefore : t.advance.ticksBefore i + 1 = t.ticksBefore i := by
    show 2 ^ i - 1 - t.nextTick % 2 ^ i + 1 = 2 ^ i - 1 - t.currentTick % 2 ^ i
    rw [hnext]
    rcases succ_mod_cases t.currentTick (Nat.two_pow_pos i) with ⟨-, hzero⟩ | ⟨hlt, hsucc⟩
    · -- the counter would be a multiple of the period, and the level would advance
      have hdvd : 2 ^ i ∣ t.currentTick + 1 := Nat.dvd_of_mod_eq_zero hzero
      have hle : i ≤ usizeBits := by
        by_contra hgt
        have hpow : 2 ^ usizeBits < 2 ^ i := Nat.pow_lt_pow_right (by decide) (by omega)
        have := Nat.le_of_dvd (Nat.succ_pos _) hdvd
        omega
      exact absurd ((le_trailingZeros_iff hle).mpr (hnext ▸ hdvd)) hadv
    · omega
  unfold dueClock
  rw [← hbefore, Nat.add_right_comm, Nat.add_mul _ 1, Nat.one_mul]
  show t.currentClock + t.startHz.nanos + _ * t.startHz.nanos = _
  omega

/-- **A tick does not change when a bucket comes up**, unless it is the one. -/
theorem comesUp_advance {t : WheelTimer α} (hs : t.Shape) (hfit : t.EpochsFit)
    (htick : t.currentTick + 1 < 2 ^ usizeBits) {key : TimerKey} {x : α}
    (hx : t.advance.lookup key = some x) : t.advance.comesUp key = t.comesUp key := by
  obtain ⟨l', hl', hx⟩ := lookup_eq_some.mp hx
  unfold comesUp distance
  rw [hl']
  rw [advance_getElem?] at hl'
  split at hl'
  · next hadv =>
    obtain ⟨l, hl, rfl⟩ := Option.map_eq_some_iff.mp hl'
    have hmem := List.mem_of_getElem? hl
    have hwf := hs.level_wf l hmem
    rw [Level.lookup_tick hwf (hfit l hmem)] at hx
    split at hx
    · cases hx
    · next hne =>
      rw [hl, dueClock_advance_of_advances hadv, Option.elim_some, Option.elim_some,
        Level.distance_tick hwf (Level.bucketIndex_lt_of_lookup hx) hne]
  · next hadv =>
    rw [hl', dueClock_advance_of_not_advances htick hadv]

/-! ## Counting the ticks -/

/-- The state of a timer `ticks` base ticks after `start`: the counter and the levels have advanced
at most that often. -/
structure Ticked (t : WheelTimer α) (start ticks : Nat) : Prop where
  clock_eq : t.currentClock = start + ticks * t.startHz.nanos
  tick_le : t.currentTick ≤ ticks
  level_le : ∀ l ∈ t.levels, l.epoch * l.buckets.length + l.index ≤ ticks

theorem Ticked.epochsFit {t : WheelTimer α} {start ticks : Nat} (h : t.Ticked start ticks)
    (hs : t.Shape) (hticks : ticks < 2 ^ usizeBits) : t.EpochsFit := by
  intro l hl
  have hlevel := h.level_le l hl
  have hlength : 2 ≤ l.buckets.length := hs.level_length l hl ▸ two_le_bucketsCount hs.count_ne
  have hmul : l.epoch * 2 ≤ l.epoch * l.buckets.length := Nat.mul_le_mul_left _ hlength
  have hbits : 2 ^ usizeBits = 2 * 2 ^ 63 := by decide
  show l.epoch + 1 < 2 ^ usizeBits
  omega

end WheelTimer

theorem Level.tick_position {l : Level α} (h : l.Wf) (hepoch : l.EpochFits) :
    l.tick.1.epoch * l.tick.1.buckets.length + l.tick.1.index =
      l.epoch * l.buckets.length + l.index + 1 := by
  have hindex := h.index_lt
  have hfits : l.epoch + 1 < 2 ^ usizeBits := hepoch
  rw [tick_length]
  simp only [tick, masked_index h]
  rcases Nat.lt_or_ge (l.index + 1) l.buckets.length with hlt | hge
  · rw [Nat.mod_eq_of_lt hlt, if_neg (Nat.succ_ne_zero _), wrappingAdd_of_lt (by omega)]
    rfl
  · have hlast : l.index + 1 = l.buckets.length := by omega
    rw [hlast, Nat.mod_self, if_pos rfl, wrappingAdd_of_lt hfits, Nat.add_mul]
    omega

namespace WheelTimer

theorem Ticked.advance {t : WheelTimer α} {start ticks : Nat} (h : t.Ticked start ticks)
    (hs : t.Shape) (hticks : ticks + 1 < 2 ^ usizeBits) :
    t.advance.Ticked start (ticks + 1) := by
  have hfit := h.epochsFit hs (by omega)
  refine ⟨?_, ?_, ?_⟩
  · show t.currentClock + t.startHz.nanos = start + (ticks + 1) * t.startHz.nanos
    rw [h.clock_eq, Nat.add_mul, Nat.one_mul, Nat.add_assoc]
  · exact (Nat.mod_le ..).trans (Nat.succ_le_succ h.tick_le)
  · intro l' hl'
    obtain ⟨i, hi⟩ := List.mem_iff_getElem?.mp hl'
    rw [advance_getElem?] at hi
    split at hi
    · obtain ⟨l, hl, rfl⟩ := Option.map_eq_some_iff.mp hi
      have hmem := List.mem_of_getElem? hl
      rw [Level.tick_position (hs.level_wf l hmem) (hfit l hmem)]
      exact Nat.succ_le_succ (h.level_le l hmem)
    · exact (h.level_le l' (List.mem_of_getElem? hi)).trans (Nat.le_succ _)

/-! ## One call -/

/-- The loop stops right after `now`. -/
theorem progressLoop_clock (fuel : Nat) {t : WheelTimer α} (now : Nat)
    (hhz : 0 < t.startHz.nanos) (hfuel : now + 1 - t.currentClock ≤ fuel) :
    now < (progressLoop fuel t now).1.currentClock ∧
      (progressLoop fuel t now).1.currentClock ≤ max t.currentClock (now + t.startHz.nanos) := by
  induction fuel generalizing t with
  | zero =>
    show now < t.currentClock ∧ t.currentClock ≤ _
    omega
  | succ fuel ih =>
    unfold progressLoop
    split
    · next hle =>
      have hclock : t.advance.currentClock = t.currentClock + t.startHz.nanos := rfl
      obtain ⟨hlt, hmax⟩ := ih (t := t.advance) hhz (by omega)
      refine ⟨hlt, hmax.trans ?_⟩
      show max (t.currentClock + t.startHz.nanos) (now + t.startHz.nanos) ≤ _
      omega
    · show now < t.currentClock ∧ t.currentClock ≤ _
      omega

/-- As long as the ticks can be counted, the loop does not change when the remaining buckets come
up. -/
theorem progressLoop_ticked (fuel : Nat) {t : WheelTimer α} {start ticks : Nat} (now : Nat)
    (hs : t.Shape) (h : t.Ticked start ticks) (hticks : ticks < 2 ^ usizeBits)
    (hlimit : (progressLoop fuel t now).1.currentClock <
      start + 2 ^ usizeBits * t.startHz.nanos) :
    EpochsFitDuring fuel t now ∧
      (∃ ticks' < 2 ^ usizeBits, (progressLoop fuel t now).1.Ticked start ticks') ∧
      ∀ key x, (progressLoop fuel t now).1.lookup key = some x →
        (progressLoop fuel t now).1.comesUp key = t.comesUp key := by
  induction fuel generalizing t ticks with
  | zero => exact ⟨trivial, ⟨ticks, hticks, h⟩, fun _ _ _ => rfl⟩
  | succ fuel ih =>
    unfold EpochsFitDuring
    unfold progressLoop at hlimit ⊢
    split
    · next hclock =>
      rw [if_pos hclock] at hlimit
      have hmore : ticks + 1 < 2 ^ usizeBits := by
        have hmono := (progressLoop_parameters fuel t.advance now).2.2
        have hclock' : t.advance.currentClock = t.currentClock + t.startHz.nanos := rfl
        have hlt : (ticks + 1) * t.startHz.nanos < 2 ^ usizeBits * t.startHz.nanos := by
          rw [Nat.add_mul, Nat.one_mul]
          have := h.clock_eq
          have : (progressLoop fuel t.advance now).1.currentClock <
            start + 2 ^ usizeBits * t.startHz.nanos := hlimit
          omega
        exact Nat.lt_of_mul_lt_mul_right hlt
      have hfit := h.epochsFit hs hticks
      obtain ⟨hduring, hticked, hcomes⟩ := ih (advance_shape hs) (h.advance hs hmore) hmore hlimit
      refine ⟨⟨hfit, hduring⟩, hticked, fun key x hx => (hcomes key x hx).trans ?_⟩
      have hdetaches := (progressLoop_detaches fuel (advance_shape hs) hduring).2
      refine comesUp_advance hs hfit ?_ (hdetaches.lookup key x hx)
      have := h.tick_le
      omega
    · exact ⟨trivial, ⟨ticks, hticks, h⟩, fun _ _ _ => rfl⟩

end WheelTimer

/-- Where a level stands, whatever it holds. -/
def Level.cursor (l : Level α) : Nat × Nat × Nat := (l.index, l.epoch, l.buckets.length)

theorem Level.cursor_schedule (l : Level α) (event : α) (k : Nat) :
    (l.schedule event k).1.cursor = l.cursor := by
  simp [cursor, schedule]

theorem Level.cursor_cancel [Inhabited α] (l : Level α) (key : LevelKey) :
    (l.cancel key).cursor = l.cursor := by
  unfold cancel
  split
  · rfl
  · split
    · rfl
    · simp [cursor]

namespace WheelTimer

/-- Two timers whose ticks detach the same buckets at the same time. -/
structure InStep (t t' : WheelTimer α) : Prop where
  cursors : t'.levels.map Level.cursor = t.levels.map Level.cursor
  tick : t'.currentTick = t.currentTick
  clock : t'.currentClock = t.currentClock
  hz : t'.startHz = t.startHz

theorem InStep.comesUp {t t' : WheelTimer α} (h : InStep t t') (key : TimerKey) :
    t'.comesUp key = t.comesUp key := by
  have hdistance (u : WheelTimer α) : u.distance key =
      (u.levels.map Level.cursor)[key.levelIndex]?.elim 0
        fun c => (key.levelKey.bucketIndex + c.2.2 - c.1) % c.2.2 := by
    unfold WheelTimer.distance
    rw [List.getElem?_map]
    cases u.levels[key.levelIndex]? <;> rfl
  simp only [WheelTimer.comesUp, hdistance, dueClock, ticksBefore, h.cursors, h.tick, h.clock, h.hz]

theorem InStep.exists_level {t t' : WheelTimer α} (h : InStep t t') {l' : Level α}
    (hl' : l' ∈ t'.levels) : ∃ l ∈ t.levels, l.index = l'.index ∧ l.epoch = l'.epoch ∧
      l.buckets.length = l'.buckets.length := by
  have hmem : l'.cursor ∈ t.levels.map Level.cursor := h.cursors ▸ List.mem_map_of_mem hl'
  obtain ⟨l, hl, hcursor⟩ := List.mem_map.mp hmem
  exact ⟨l, hl, by simpa [Level.cursor] using hcursor⟩

theorem InStep.ticked {t t' : WheelTimer α} (h : InStep t t') {start ticks : Nat}
    (ht : t.Ticked start ticks) : t'.Ticked start ticks := by
  refine ⟨?_, h.tick ▸ ht.tick_le, ?_⟩
  · rw [h.clock, h.hz]
    exact ht.clock_eq
  · intro l' hl'
    obtain ⟨l, hl, hindex, hepoch, hlength⟩ := h.exists_level hl'
    rw [← hindex, ← hepoch, ← hlength]
    exact ht.level_le l hl

theorem InStep.epochsFit {t t' : WheelTimer α} (h : InStep t t') (hfit : t.EpochsFit) :
    t'.EpochsFit := by
  intro l' hl'
  obtain ⟨l, hl, -, hepoch, -⟩ := h.exists_level hl'
  have hfits : l.epoch + 1 < 2 ^ usizeBits := hfit l hl
  rwa [hepoch] at hfits

theorem cancel_inStep [Inhabited α] (t : WheelTimer α) (key : TimerKey) :
    InStep t (t.cancel key) := by
  unfold cancel
  split
  · refine ⟨?_, rfl, rfl, rfl⟩
    have hcomm := map_modify_comm (g := (Level.cancel · key.levelKey)) (f := Level.cursor)
      (fun l => (l.cursor_cancel key.levelKey).trans (id_eq _).symm) t.levels key.levelIndex
    rw [← hcomm, List.modify_id]
  · exact ⟨rfl, rfl, rfl, rfl⟩

theorem set_schedule_inStep {t : WheelTimer α} {i : Nat} {l : Level α}
    (hl : t.levels[i]? = some l) (event : α) (k : Nat) :
    InStep t { t with levels := t.levels.set i (l.schedule event k).1 } := by
  refine ⟨?_, rfl, rfl, rfl⟩
  refine List.ext_getElem? fun j => ?_
  rw [List.getElem?_map, List.getElem?_map]
  by_cases hij : i = j
  · subst hij
    rw [List.getElem?_set_self (List.getElem?_eq_some_iff.mp hl).1, hl, Option.map_some,
      Level.cursor_schedule]
    rfl
  · rw [List.getElem?_set_ne hij]

theorem schedule_epochsFit {t t' : WheelTimer α} (hfit : t.EpochsFit) {event : α}
    {due now : Instant} {key : TimerKey} (h : t.schedule event due now = some (t', key)) :
    t'.EpochsFit := by
  obtain ⟨t₁, l, hext, hl, rfl, rfl⟩ := schedule_eq_some h
  obtain ⟨added, hlevels, hadded⟩ := ensured_levels hext
  exact (set_schedule_inStep hl event _).epochsFit (epochsFit_append hfit hlevels hadded)

/-- An extension makes a level wait for a whole period, at worst. -/
theorem comesUp_extendLevels {t t' : WheelTimer α} {n : Nat} (h : t.extendLevels n = some t')
    {key : TimerKey} (hkey : key.levelIndex < t.levels.length) :
    t'.comesUp key ≤ t.comesUp key + 2 ^ key.levelIndex * t.startHz.nanos := by
  obtain ⟨added, rfl, -, -⟩ := extendLevels_eq_some h
  have hdistance :
      distance { t with levels := t.levels ++ added, currentTick := 0 } key = t.distance key := by
    unfold distance
    rw [List.getElem?_append_left hkey]
  unfold comesUp
  rw [hdistance]
  unfold dueClock ticksBefore
  show t.currentClock + (2 ^ key.levelIndex - 1 - 0 % 2 ^ key.levelIndex + _) * t.startHz.nanos ≤ _
  rw [Nat.zero_mod, Nat.sub_zero, Nat.add_assoc, ← Nat.add_mul]
  refine Nat.add_le_add_left (Nat.mul_le_mul_right _ ?_) _
  omega

theorem extendLevels_ticked {t t' : WheelTimer α} {n : Nat} (h : t.extendLevels n = some t')
    {start ticks : Nat} (ht : t.Ticked start ticks) : t'.Ticked start ticks := by
  obtain ⟨added, rfl, -, hadded⟩ := extendLevels_eq_some h
  refine ⟨ht.clock_eq, Nat.zero_le _, fun l hl => ?_⟩
  rcases List.mem_append.mp hl with hl | hl
  · exact ht.level_le l hl
  · obtain ⟨-, rfl⟩ := Level.new_eq_some (hadded l hl)
    simp

/-- **A new event is late by less than two ticks of its level**, if the timer's clock is at most one
base tick ahead. -/
theorem comesUp_schedule_lt {t : WheelTimer α} (hs : t.Shape) (hfit : t.EpochsFit)
    {due now : Instant} (hclock : t.currentClock ≤ now.nanos + t.startHz.nanos) {l : Level α}
    (hl : t.levels[findIndexByDuration t.startCoverage.nanos
      (due.saturatingDurationSince now).nanos]? = some l) (event : α) :
    let i := findIndexByDuration t.startCoverage.nanos (due.saturatingDurationSince now).nanos
    let ticks := durationToLevelTicks t.startHz.nanos (due.saturatingDurationSince now).nanos i
    t.comesUp ⟨(l.schedule event ticks).2, i⟩ <
      max due.nanos now.nanos + 2 * 2 ^ i * t.startHz.nanos := by
  intro i ticks
  have hmem := List.mem_of_getElem? hl
  have hwf := hs.level_wf l hmem
  have hdistance : t.distance ⟨(l.schedule event ticks).2, i⟩ = ticks % l.buckets.length := by
    unfold distance
    rw [hl, Option.elim_some, Level.schedule_key hwf (hfit l hmem)]
    exact Level.distance_add hwf ticks
  have hround : ticks * (t.startHz.nanos * 2 ^ i) <
      (due.saturatingDurationSince now).nanos + t.startHz.nanos * 2 ^ i :=
    durationToLevelTicks_mul_lt hs.hz_pos hs.hz_le t.startCoverage.isLt
      (due.saturatingDurationSince now).isLt hs.count_ne
  have hwithin : (t.ticksBefore i + ticks % l.buckets.length * 2 ^ i) * t.startHz.nanos +
      t.startHz.nanos ≤ (2 ^ i + ticks * 2 ^ i) * t.startHz.nanos := by
    have hpow := Nat.two_pow_pos i
    have hmod : ticks % l.buckets.length * 2 ^ i ≤ ticks * 2 ^ i :=
      Nat.mul_le_mul_right _ (Nat.mod_le ..)
    have hbefore : t.ticksBefore i + 1 ≤ 2 ^ i := by
      unfold ticksBefore
      omega
    calc (t.ticksBefore i + ticks % l.buckets.length * 2 ^ i) * t.startHz.nanos + t.startHz.nanos
        = (t.ticksBefore i + 1 + ticks % l.buckets.length * 2 ^ i) * t.startHz.nanos := by
          rw [Nat.add_right_comm, Nat.add_mul _ 1, Nat.one_mul]
      _ ≤ (2 ^ i + ticks * 2 ^ i) * t.startHz.nanos :=
          Nat.mul_le_mul_right _ (Nat.add_le_add hbefore hmod)
  have hmul : ticks * (t.startHz.nanos * 2 ^ i) = ticks * 2 ^ i * t.startHz.nanos := by
    rw [Nat.mul_comm t.startHz.nanos, Nat.mul_assoc]
  have hduration : (due.saturatingDurationSince now).nanos = due.nanos - now.nanos := rfl
  rw [hmul, hduration, Nat.mul_comm t.startHz.nanos] at hround
  rw [Nat.add_mul (2 ^ i)] at hwithin
  unfold comesUp dueClock
  rw [hdistance, Nat.mul_assoc]
  show t.currentClock + (t.ticksBefore i + ticks % l.buckets.length * 2 ^ i) * t.startHz.nanos < _
  omega

theorem new_ticked {hz coverage : Duration} {now : Instant} {t : WheelTimer α}
    (h : new hz coverage now = some t) : t.Ticked now.nanos 0 := by
  unfold new at h
  split at h
  · cases h
  · refine extendLevels_ticked h ⟨?_, Nat.le_refl _, by simp⟩
    rw [Nat.zero_mul, Nat.add_zero]

/-- What `schedule` does to the times at which buckets come up. -/
theorem schedule_comesUp {t t' : WheelTimer α} (hs : t.Shape) {start ticks : Nat}
    (ht : t.Ticked start ticks) (hticks : ticks < 2 ^ usizeBits) {event : α} {due now : Instant}
    (hclock : t.currentClock ≤ now.nanos + t.startHz.nanos) {key : TimerKey}
    (h : t.schedule event due now = some (t', key)) :
    t'.Ticked start ticks ∧ t'.currentClock = t.currentClock ∧ t'.startHz = t.startHz ∧
      t'.comesUp key < max due.nanos now.nanos + 2 * 2 ^ key.levelIndex * t.startHz.nanos ∧
      ∀ key' x, t.lookup key' = some x → t'.comesUp key' ≤ t.comesUp key' +
        (if t.levels.length < t'.levels.length then 1 else 0) *
          2 ^ key'.levelIndex * t.startHz.nanos := by
  obtain ⟨t₁, l, hext, hl, rfl, rfl⟩ := schedule_eq_some h
  obtain ⟨added, hlevels, hadded⟩ := ensured_levels hext
  have hinStep := set_schedule_inStep hl event
    (durationToLevelTicks t.startHz.nanos (due.saturatingDurationSince now).nanos
      (findIndexByDuration t.startCoverage.nanos (due.saturatingDurationSince now).nanos))
  have hfit := epochsFit_append (ht.epochsFit hs hticks) hlevels hadded
  have hlength : (t₁.levels.set (findIndexByDuration t.startCoverage.nanos
      (due.saturatingDurationSince now).nanos) (l.schedule event (durationToLevelTicks
        t.startHz.nanos (due.saturatingDurationSince now).nanos (findIndexByDuration
          t.startCoverage.nanos (due.saturatingDurationSince now).nanos))).1).length =
      t₁.levels.length := List.length_set
  simp only [hinStep.comesUp, hlength]
  rcases hext with ⟨hle, hext⟩ | ⟨hlt, rfl⟩
  · have hs₁ := extendLevels_shape hs hext
    have hmore : t.levels.length < t₁.levels.length :=
      Nat.lt_of_le_of_lt hle (List.getElem?_eq_some_iff.mp hl).1
    refine ⟨hinStep.ticked (extendLevels_ticked hext ht), ?_⟩
    rw [if_pos hmore]
    have hcomes : ∀ key' x, t.lookup key' = some x →
        t₁.comesUp key' ≤ t.comesUp key' + 1 * 2 ^ key'.levelIndex * t.startHz.nanos := by
      intro key' x hx
      rw [Nat.one_mul]
      obtain ⟨l', hl', -⟩ := lookup_eq_some.mp hx
      exact comesUp_extendLevels hext (List.getElem?_eq_some_iff.mp hl').1
    obtain ⟨_, rfl, -, -⟩ := extendLevels_eq_some hext
    exact ⟨rfl, rfl, comesUp_schedule_lt hs₁ hfit hclock hl event, hcomes⟩
  · refine ⟨hinStep.ticked ht, rfl, rfl, comesUp_schedule_lt hs hfit hclock hl event,
      fun key' x _ => Nat.le_add_right ..⟩

end WheelTimer

/-! ## Every run -/

namespace Logged

/-- The condition on a call: `now` does not go back, and there are fewer than `2 ^ 64` ticks. -/
def InOrder (s : Logged α) : Call α → Prop
  | .schedule _ _ now => s.now.nanos ≤ now.nanos
  | .progress now => s.now.nanos ≤ now.nanos ∧
      ((s.timer.progress now).1.currentClock - s.start.nanos) / s.timer.startHz.nanos <
        2 ^ usizeBits
  | .cancel _ => True
  | .drop .. => True

instance : DecidableRel (InOrder (α := α))
  | _, .schedule .. => inferInstanceAs (Decidable (_ ≤ _))
  | _, .progress _ => inferInstanceAs (Decidable (_ ∧ _))
  | _, .cancel _ => .isTrue trivial
  | _, .drop .. => .isTrue trivial

/-- The bound on the delivery of an event: two ticks of its level after it is due, and one more for
each `schedule` call since then that has created levels. -/
def deadline (s : Logged α) (call : ScheduleCall α) : Nat :=
  max call.due.nanos call.now.nanos +
    (2 + (s.extensions - call.extensions)) * 2 ^ call.key.levelIndex * s.timer.startHz.nanos

/-- Every event that waits comes up before its deadline. -/
structure Timely (s : Logged α) : Prop where
  tracked : Tracked s
  ticked : ∃ ticks < 2 ^ usizeBits, s.timer.Ticked s.start.nanos ticks
  clock_le : s.timer.currentClock ≤ s.now.nanos + s.timer.startHz.nanos
  extensions_le : ∀ call ∈ s.calls, call.extensions ≤ s.extensions
  comesUp_lt : ∀ key n e call, s.timer.lookup key = some (some (n, e)) →
    s.calls[n]? = some call → s.timer.comesUp key < s.deadline call

variable {s s' : Logged α}

theorem timely_init (h : Init s) : Timely s := by
  have htracked := tracked_init h
  obtain ⟨hz, coverage, now, hhz, h⟩ := h
  obtain ⟨timer, hnew, rfl⟩ := Option.map_eq_some_iff.mp h
  have hclock := (WheelTimer.new_shape hhz hnew).2.2.1
  refine ⟨htracked, ⟨0, Nat.two_pow_pos _, WheelTimer.new_ticked hnew⟩,
    hclock.le.trans (Nat.le_add_right ..), by simp, by simp⟩

namespace Timely

/-- In a run in order no level passes epoch `2 ^ 64 - 2`. -/
theorem epochsFit (h : Timely s) {call : Call α} (horder : InOrder s call) : EpochsFit s call := by
  obtain ⟨ticks, hticks, hticked⟩ := h.ticked
  have hshape := h.tracked.shape
  cases call with
  | schedule event due now => exact hticked.epochsFit hshape hticks
  | progress now =>
    have hlimit := (Nat.div_lt_iff_lt_mul hshape.hz_pos).mp horder.2
    exact (WheelTimer.progressLoop_ticked _ now.nanos hshape hticked hticks (by
      rw [← WheelTimer.progress]
      omega)).1
  | cancel n => trivial
  | drop levelIndex sourceIndex lessCapacity => trivial

theorem schedule (h : Timely s) {event : α} {due now : Instant} (hnow : s.now.nanos ≤ now.nanos)
    (hexec : s.exec (.schedule event due now) = some s') : Timely s' := by
  have hfit : s.timer.EpochsFit := h.epochsFit (show InOrder s (.schedule event due now) from hnow)
  have htracked := h.tracked.schedule hfit hexec
  obtain ⟨⟨timer, key⟩, hsched, rfl⟩ := Option.map_eq_some_iff.mp hexec
  obtain ⟨ticks, hticks, hticked⟩ := h.ticked
  have hclock : s.timer.currentClock ≤ now.nanos + s.timer.startHz.nanos :=
    h.clock_le.trans (Nat.add_le_add_right hnow _)
  obtain ⟨hticked', hclock', hhz, hnew, hothers⟩ :=
    WheelTimer.schedule_comesUp h.tracked.shape hticked hticks hclock hsched
  have hadds := WheelTimer.schedule_adds h.tracked.shape hfit hsched
  refine ⟨htracked, ⟨ticks, hticks, hticked'⟩, ?_, ?_, ?_⟩
  · show timer.currentClock ≤ now.nanos + timer.startHz.nanos
    rw [hclock', hhz]
    exact hclock
  · intro call hcall
    rcases List.mem_append.mp hcall with hcall | hcall
    · exact (h.extensions_le call hcall).trans (Nat.le_add_right ..)
    · obtain rfl := List.mem_singleton.mp hcall
      exact Nat.le_refl _
  · intro key' n e call hlookup hcall
    rw [hadds.lookup] at hlookup
    split at hlookup
    · next heq =>
      subst heq
      obtain ⟨rfl, rfl⟩ : s.calls.length = n ∧ event = e := by simpa using hlookup
      obtain rfl := Option.some.inj ((List.getElem?_concat_length ..).symm.trans hcall)
      show timer.comesUp key' < max due.nanos now.nanos + _ * timer.startHz.nanos
      rw [hhz, Nat.sub_self]
      exact hnew
    · obtain ⟨call', hcall', rfl, -⟩ := h.tracked.found key' n e hlookup
      have hlt : n < s.calls.length := (List.getElem?_eq_some_iff.mp hcall').1
      obtain rfl : call' = call := by
        rw [List.getElem?_append_left hlt, hcall'] at hcall
        exact Option.some.inj hcall
      have hbefore := h.comesUp_lt _ n e call' hlookup hcall'
      have hlater := hothers _ _ hlookup
      have hextensions := h.extensions_le call' (List.mem_of_getElem? hcall')
      unfold deadline at hbefore ⊢
      show timer.comesUp call'.key < _ + (2 + (s.extensions + (if s.timer.levels.length <
        timer.levels.length then 1 else 0) - call'.extensions)) * _ * timer.startHz.nanos
      rw [Nat.add_comm s.extensions, Nat.add_sub_assoc hextensions, hhz,
        Nat.add_left_comm 2, Nat.add_mul, Nat.add_mul]
      omega

theorem progress (h : Timely s) {now : Instant} (horder : InOrder s (.progress now))
    (hexec : s.exec (.progress now) = some s') : Timely s' := by
  have htracked := h.tracked.progress (h.epochsFit horder) hexec
  obtain rfl := Option.some.inj hexec
  have hshape := h.tracked.shape
  obtain ⟨ticks, hticks, hticked⟩ := h.ticked
  have hlimit := (Nat.div_lt_iff_lt_mul hshape.hz_pos).mp horder.2
  obtain ⟨hduring, hticked', hcomes⟩ := WheelTimer.progressLoop_ticked
    (now.nanos + 1 - s.timer.currentClock) now.nanos hshape hticked hticks (by
      rw [← WheelTimer.progress]
      omega)
  have hhz := (WheelTimer.progressLoop_parameters (now.nanos + 1 - s.timer.currentClock) s.timer
    now.nanos).1
  have hdetaches := (WheelTimer.progressLoop_detaches _ hshape hduring).2
  refine ⟨htracked, hticked', ?_, h.extensions_le, ?_⟩
  · show (s.timer.progress now).1.currentClock ≤
      now.nanos + (s.timer.progress now).1.startHz.nanos
    have hclock := (WheelTimer.progressLoop_clock (t := s.timer) _ now.nanos hshape.hz_pos
      (Nat.le_refl _)).2
    have hbefore := h.clock_le
    have hnow := horder.1
    unfold WheelTimer.progress
    rw [hhz]
    omega
  · intro key n e call hlookup hcall
    have hbefore := h.comesUp_lt key n e call (hdetaches.lookup key _ hlookup) hcall
    unfold deadline at hbefore ⊢
    show (s.timer.progress now).1.comesUp key < _ + _ * (s.timer.progress now).1.startHz.nanos
    unfold WheelTimer.progress
    rw [hhz, hcomes key _ hlookup]
    exact hbefore

theorem cancel (h : Timely s) {n : Nat} (hexec : s.exec (.cancel n) = some s') : Timely s' := by
  have htracked := h.tracked.cancel hexec
  obtain ⟨call, hcall, rfl⟩ := Option.map_eq_some_iff.mp hexec
  have hinStep := WheelTimer.cancel_inStep s.timer call.key
  obtain ⟨ticks, hticks, hticked⟩ := h.ticked
  refine ⟨htracked, ⟨ticks, hticks, hinStep.ticked hticked⟩, ?_, h.extensions_le, ?_⟩
  · show (s.timer.cancel call.key).currentClock ≤
      s.now.nanos + (s.timer.cancel call.key).startHz.nanos
    rw [hinStep.clock, hinStep.hz]
    exact h.clock_le
  · intro key m e call' hlookup hcall'
    have hwaits : s.timer.lookup key = some (some (m, e)) := by
      rw [h.tracked.cancel_eq_remove hcall, WheelTimer.lookup_map] at hlookup
      exact Tagged.eq_of_map_remove hlookup
    have hbefore := h.comesUp_lt key m e call' hwaits hcall'
    unfold deadline at hbefore ⊢
    show (s.timer.cancel call.key).comesUp key < _ + _ * (s.timer.cancel call.key).startHz.nanos
    rw [hinStep.comesUp, hinStep.hz]
    exact hbefore

theorem exec (h : Timely s) {call : Call α} (horder : InOrder s call)
    (hexec : s.exec call = some s') : Timely s' := by
  cases call with
  | schedule event due now => exact h.schedule horder hexec
  | progress now => exact h.progress horder hexec
  | cancel n => exact h.cancel hexec
  | drop levelIndex sourceIndex lessCapacity =>
    obtain rfl := Option.some.inj hexec
    rw [WheelTimer.giveBack_eq]
    exact h

/-- A `progress` call past the deadline leaves nothing behind. -/
theorem waiting_eq_zero (h : Timely s) {now : Instant} (horder : InOrder s (.progress now))
    (hexec : s.exec (.progress now) = some s') {n : Nat} {call : ScheduleCall α}
    (hcall : s.calls[n]? = some call) (hdeadline : s.deadline call ≤ now.nanos) :
    s'.waiting n = 0 := by
  have htimely := h.progress horder hexec
  have hs' := Option.some.inj hexec
  have hcall' : s'.calls[n]? = some call := hs' ▸ hcall
  have hclock : now.nanos < s'.timer.currentClock := by
    rw [← hs']
    exact (WheelTimer.progressLoop_clock _ now.nanos h.tracked.shape.hz_pos (Nat.le_refl _)).1
  have hsame : s'.deadline call = s.deadline call := by
    have hhz : (s.timer.progress now).1.startHz = s.timer.startHz :=
      (WheelTimer.progressLoop_parameters _ s.timer now.nanos).1
    rw [← hs']
    unfold deadline
    rw [hhz]
  by_contra hne
  obtain ⟨key, x, hx, hnumber⟩ := WheelTimer.countP_pos_iff.mp (Nat.pos_of_ne_zero hne)
  obtain ⟨e, rfl⟩ := Tagged.hasNumber_eq_true.mp hnumber
  -- its bucket would come up before the deadline, but the clock is past that already
  have hcomes := htimely.comesUp_lt key n e call hx hcall'
  have hpast := s'.timer.currentClock_le_comesUp key
  omega

end Timely

theorem timely_of_reachable (h : Reachable Init InOrder exec s) : Timely s :=
  h.invariant (fun _ => timely_init) fun _ _ _ hinv horder hexec => hinv.exec horder hexec

/-- **Every event is delivered exactly once, and in time**: an event that is never cancelled is
either still in the timer, once, or has been pushed to `out`, once; and the first `progress` call at
or after its deadline pushes it, if none has before. -/
theorem delivered_once (h : Reachable Init InOrder exec s) {n : Nat} {call : ScheduleCall α}
    (hcall : s.calls[n]? = some call) (hcancelled : n ∉ s.cancelled) :
    s.waiting n + s.delivered n = 1 ∧
      (∀ bucket ∈ s.out, ∀ e, some (n, e) ∈ bucket → e = call.event) ∧
      ∀ now s', InOrder s (.progress now) → s.exec (.progress now) = some s' →
        s.deadline call ≤ now.nanos →
          s'.delivered n = 1 ∧ ∃ bucket ∈ s'.out, some (n, call.event) ∈ bucket := by
  have hinv := timely_of_reachable h
  have hn : n < s.calls.length := (List.getElem?_eq_some_iff.mp hcall).1
  have hevent {u : Logged α} (hu : Tracked u) (hcall : u.calls[n]? = some call) :
      ∀ bucket ∈ u.out, ∀ e, some (n, e) ∈ bucket → e = call.event := by
    intro bucket hbucket e he
    obtain ⟨call', hcall', rfl⟩ := hu.pushed bucket hbucket n e he
    rw [Option.some.inj (hcall.symm.trans hcall')]
  refine ⟨hinv.tracked.kept n hn hcancelled, hevent hinv.tracked hcall, ?_⟩
  intro now s' horder hexec hdeadline
  have htracked := (hinv.progress horder hexec).tracked
  have hgone := hinv.waiting_eq_zero horder hexec hcall hdeadline
  have hs' := Option.some.inj hexec
  have hcall' : s'.calls[n]? = some call := hs' ▸ hcall
  have hcancelled' : n ∉ s'.cancelled := hs' ▸ hcancelled
  have hdelivered : s'.delivered n = 1 := by
    have honce := htracked.kept n (List.getElem?_eq_some_iff.mp hcall').1 hcancelled'
    omega
  refine ⟨hdelivered, ?_⟩
  have hpos : 0 < s'.out.flatten.countP (Tagged.hasNumber n) :=
    Nat.lt_of_lt_of_eq Nat.one_pos hdelivered.symm
  obtain ⟨x, hx, hnumber⟩ := List.countP_pos_iff.mp hpos
  obtain ⟨e, rfl⟩ := Tagged.hasNumber_eq_true.mp hnumber
  obtain ⟨bucket, hbucket, hx⟩ := List.mem_flatten.mp hx
  exact ⟨bucket, hbucket, hevent htracked hcall' bucket hbucket e hx ▸ hx⟩

/-- A timeout of 1 on a wheel of two buckets, followed by a call that creates levels: the `progress`
call at 1 + 3 delivers it. -/
theorem delivered_once_extended :
    ∃ s s' : Logged Unit, s.extensions = 1 ∧ s.waiting 0 = 1 ∧
      s.exec (.progress ⟨4, by decide⟩) = some s' ∧ s'.delivered 0 = 1 := by
  let now : Instant := ⟨0, by decide⟩
  let soon : Instant := ⟨1, by decide⟩
  let later : Instant := ⟨4, by decide⟩
  have hrun : ∃ s : Logged Unit, Reachable Init InOrder exec s ∧
      decide (s.extensions = 1 ∧ s.waiting 0 = 1 ∧ s.cancelled = [] ∧
        InOrder s (.progress later) ∧ ∃ call ∈ s.calls[0]?, s.deadline call ≤ 4) = true :=
    exists_reachable (new ⟨1, by decide⟩ ⟨2, by decide⟩ now)
      (fun s hs => ⟨_, _, now, by decide, hs⟩)
      [.schedule () soon now, .schedule () later now] (by decide +kernel)
  obtain ⟨s, hs, hstate⟩ := hrun
  obtain ⟨hextensions, hwaiting, hcancelled, horder, call, hcall, hdeadline⟩ :=
    of_decide_eq_true hstate
  refine ⟨s, _, hextensions, hwaiting, rfl, ?_⟩
  exact ((delivered_once hs hcall (by simp [hcancelled])).2.2 _ _ horder rfl hdeadline).1

end Logged

end Aquic.Timer
