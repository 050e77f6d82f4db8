import Aquic.Util.Timer.Wheel

/-!
# What the calls of a wheel timer do

One lemma for each call: which levels a base tick advances, what `extend_levels` appends, which
bucket `schedule` chooses. `Shape` is what `new` sets up and no call changes. What the calls do to
the events is left to the modules about events.
-/

namespace Aquic.Timer

open Aquic.Word

variable {α : Type*}

namespace WheelTimer

/-- How many base ticks pass before the one that advances level `i`. -/
def ticksBefore (t : WheelTimer α) (i : Nat) : Nat := 2 ^ i - 1 - t.currentTick % 2 ^ i

/-- The earliest clock at which level `i` reaches the bucket `k` level ticks away. -/
def dueClock (t : WheelTimer α) (i k : Nat) : Nat :=
  t.currentClock + (t.ticksBefore i + k * 2 ^ i) * t.startHz.nanos

/-- The shape of a timer: what `new` sets up and no call changes. -/
structure Shape (t : WheelTimer α) : Prop where
  hz_pos : 0 < t.startHz.nanos
  hz_le : t.startHz.nanos ≤ t.startCoverage.nanos
  count_ne : bucketsCount t.startHz.nanos t.startCoverage.nanos ≠ 0
  tick_lt : t.currentTick < 2 ^ usizeBits
  levels_pos : 0 < t.levels.length
  level_wf : ∀ l ∈ t.levels, l.Wf
  level_length : ∀ l ∈ t.levels,
    l.buckets.length = bucketsCount t.startHz.nanos t.startCoverage.nanos

/-! ### One base tick -/

@[simp] theorem tickLevels_length (n : Nat) (levels : List (Level α)) :
    (tickLevels n levels).1.length = levels.length := by
  induction levels generalizing n with
  | nil => cases n <;> rfl
  | cons level levels ih =>
    cases n with
    | zero => rfl
    | succ n => simp [tickLevels, ih]

/-- The first `n` levels tick, the others stay as they are. -/
theorem getElem?_tickLevels (n : Nat) (levels : List (Level α)) (i : Nat) :
    (tickLevels n levels).1[i]?
      = if i < n then levels[i]?.map (·.tick.1) else levels[i]? := by
  induction levels generalizing n i with
  | nil => cases n <;> simp [tickLevels]
  | cons level levels ih =>
    cases n with
    | zero => simp [tickLevels]
    | succ n =>
      cases i with
      | zero => simp [tickLevels]
      | succ i => simp [tickLevels, ih]

/-- The pushed buckets are those of the levels that tick. -/
theorem mem_tickLevels {n : Nat} {levels : List (Level α)} {bucket : List α}
    (h : bucket ∈ (tickLevels n levels).2) :
    ∃ i l, i < n ∧ levels[i]? = some l ∧ bucket = l.tick.2 := by
  induction levels generalizing n with
  | nil => cases n <;> simp [tickLevels] at h
  | cons level levels ih =>
    cases n with
    | zero => simp [tickLevels] at h
    | succ n =>
      simp only [tickLevels, List.mem_cons] at h
      rcases h with rfl | h
      · exact ⟨0, level, by omega, rfl, rfl⟩
      · obtain ⟨i, l, hi, hl, rfl⟩ := ih h
        exact ⟨i + 1, l, by omega, by simpa using hl, rfl⟩

/-- The tick counter after one base tick. -/
def nextTick (t : WheelTimer α) : Nat := wrappingAdd usizeBits t.currentTick 1

/-- A level that takes part in a tick was waiting for just this one. -/
theorem ticksBefore_of_advances {t : WheelTimer α} {i : Nat}
    (hi : i ≤ trailingZeros usizeBits t.nextTick) :
    t.ticksBefore i = 0 ∧ t.nextTick % 2 ^ i = 0 := by
  have hle : i ≤ usizeBits := hi.trans (trailingZeros_le ..)
  have hdvd : 2 ^ i ∣ t.nextTick := (le_trailingZeros_iff hle).mp hi
  have hmod : t.nextTick % 2 ^ i = (t.currentTick + 1) % 2 ^ i :=
    Nat.mod_mod_of_dvd _ (Nat.pow_dvd_pow 2 hle)
  have hzero : t.nextTick % 2 ^ i = 0 := Nat.mod_eq_zero_of_dvd hdvd
  refine ⟨?_, hzero⟩
  unfold ticksBefore
  rcases succ_mod_cases t.currentTick (Nat.two_pow_pos i) with ⟨h, -⟩ | ⟨-, h⟩
  · omega
  · omega

/-- A level that does not take part is at most one tick closer to its turn. -/
theorem ticksBefore_le_of_not_advances {t : WheelTimer α} {i : Nat}
    (htick : t.currentTick < 2 ^ usizeBits) (hi : ¬ i ≤ trailingZeros usizeBits t.nextTick) :
    t.ticksBefore i ≤ 2 ^ i - 1 - t.nextTick % 2 ^ i + 1 := by
  unfold ticksBefore
  by_cases hle : i ≤ usizeBits
  · have hmod : t.nextTick % 2 ^ i = (t.currentTick + 1) % 2 ^ i :=
      Nat.mod_mod_of_dvd _ (Nat.pow_dvd_pow 2 hle)
    rcases succ_mod_cases t.currentTick (Nat.two_pow_pos i) with ⟨-, h⟩ | ⟨-, h⟩
    · exact absurd ((le_trailingZeros_iff hle).mpr (Nat.dvd_of_mod_eq_zero (hmod.trans h))) hi
    · omega
  · -- so coarse a level never ticks: the counter is smaller than its period
    have hpow : 2 ^ usizeBits < 2 ^ i := Nat.pow_lt_pow_right (by decide) (by omega)
    have hcur : t.currentTick % 2 ^ i = t.currentTick := Nat.mod_eq_of_lt (by omega)
    have hlt : t.nextTick < 2 ^ usizeBits := Nat.mod_lt _ (Nat.two_pow_pos _)
    have hle' : t.nextTick ≤ t.currentTick + 1 := Nat.mod_le ..
    rw [hcur, Nat.mod_eq_of_lt (Nat.lt_trans hlt hpow)]
    omega

/-- One iteration of the loop of `progress`: a tick, and the clock moves on. -/
def advance (t : WheelTimer α) : WheelTimer α :=
  { t.tick.1 with currentClock := t.tick.1.currentClock + t.startHz.nanos }

theorem advance_getElem? (t : WheelTimer α) (i : Nat) :
    t.advance.levels[i]? = if i ≤ trailingZeros usizeBits t.nextTick
      then t.levels[i]?.map (·.tick.1) else t.levels[i]? := by
  show (tickLevels _ t.levels).1[i]? = _
  rw [getElem?_tickLevels]
  show (if i < min (trailingZeros usizeBits t.nextTick) (t.levels.length - 1) + 1 then _ else _) = _
  by_cases hlen : i < t.levels.length
  · have : i < min (trailingZeros usizeBits t.nextTick) (t.levels.length - 1) + 1
        ↔ i ≤ trailingZeros usizeBits t.nextTick := by omega
    simp only [this]
  · simp [List.getElem?_eq_none (Nat.le_of_not_lt hlen)]

/-- A level that advances is one level tick closer to each bucket, with a whole period ahead. -/
theorem dueClock_advance_of_advances {t : WheelTimer α} {i : Nat}
    (hadv : i ≤ trailingZeros usizeBits t.nextTick) (k : Nat) :
    t.advance.dueClock i k = t.dueClock i (k + 1) := by
  obtain ⟨hbefore, hzero⟩ := ticksBefore_of_advances hadv
  have hafter : t.advance.ticksBefore i = 2 ^ i - 1 := by
    show 2 ^ i - 1 - t.nextTick % 2 ^ i = 2 ^ i - 1
    rw [hzero, Nat.sub_zero]
  have hpow : 0 < 2 ^ i := Nat.two_pow_pos i
  have hsum : 2 ^ i - 1 + k * 2 ^ i + 1 = 0 + (k + 1) * 2 ^ i := by
    rw [Nat.add_mul]; omega
  unfold dueClock
  rw [hbefore, hafter, ← hsum, Nat.add_mul _ 1, Nat.one_mul]
  show t.currentClock + t.startHz.nanos + _ * t.startHz.nanos = _
  omega

theorem advance_shape {t : WheelTimer α} (h : t.Shape) : t.advance.Shape where
  hz_pos := h.hz_pos
  hz_le := h.hz_le
  count_ne := h.count_ne
  tick_lt := Nat.mod_lt _ (Nat.two_pow_pos _)
  levels_pos := by
    show 0 < (tickLevels _ t.levels).1.length
    rw [tickLevels_length]
    exact h.levels_pos
  level_wf := by
    intro l hl
    obtain ⟨i, hi⟩ := List.mem_iff_getElem?.mp hl
    rw [advance_getElem?] at hi
    split at hi
    · obtain ⟨l₀, hl₀, rfl⟩ := Option.map_eq_some_iff.mp hi
      exact Level.tick_wf (h.level_wf _ (List.mem_of_getElem? hl₀))
    · exact h.level_wf _ (List.mem_of_getElem? hi)
  level_length := by
    intro l hl
    obtain ⟨i, hi⟩ := List.mem_iff_getElem?.mp hl
    rw [advance_getElem?] at hi
    split at hi
    · obtain ⟨l₀, hl₀, rfl⟩ := Option.map_eq_some_iff.mp hi
      rw [Level.tick_length]
      exact h.level_length _ (List.mem_of_getElem? hl₀)
    · exact h.level_length _ (List.mem_of_getElem? hi)

/-- `progress` keeps the parameters, and its clock does not go back. -/
theorem progressLoop_parameters (fuel : Nat) (t : WheelTimer α) (now : Nat) :
    (progressLoop fuel t now).1.startHz = t.startHz ∧
      (progressLoop fuel t now).1.startCoverage = t.startCoverage ∧
      t.currentClock ≤ (progressLoop fuel t now).1.currentClock := by
  induction fuel generalizing t with
  | zero => exact ⟨rfl, rfl, Nat.le_refl _⟩
  | succ fuel ih =>
    unfold progressLoop
    split
    · obtain ⟨hhz, hcoverage, hclock⟩ := ih t.advance
      exact ⟨hhz, hcoverage, (Nat.le_add_right ..).trans hclock⟩
    · exact ⟨rfl, rfl, Nat.le_refl _⟩

/-! ### `extend_levels` -/

/-- Everything `extend_levels` does: it appends empty levels and restarts the tick counter. -/
theorem extendLevels_eq_some {t t' : WheelTimer α} {n : Nat} (h : t.extendLevels n = some t') :
    ∃ added, t' = { t with levels := t.levels ++ added, currentTick := 0 } ∧
      t.levels.length + added.length = max n t.levels.length ∧
      ∀ l ∈ added, Level.new (bucketsCount t.startHz.nanos t.startCoverage.nanos) = some l := by
  unfold extendLevels at h
  split at h
  · next hle =>
    exact ⟨[], by simpa using h.symm, by simp [hle], by simp⟩
  · next hgt =>
    obtain ⟨level, hnew, rfl⟩ := Option.map_eq_some_iff.mp h
    refine ⟨_, rfl, by simp; omega, fun l hl => ?_⟩
    rw [List.eq_of_mem_replicate hl]
    exact hnew

/-- A level that exists after an extension and not before is empty. -/
theorem getElem?_append_new {levels added : List (Level α)} {count i : Nat} {l : Level α}
    (hadded : ∀ l ∈ added, Level.new count = some l) (h : (levels ++ added)[i]? = some l) :
    levels[i]? = some l ∨ (levels.length ≤ i ∧ Level.new count = some l) := by
  rcases Nat.lt_or_ge i levels.length with hi | hi
  · exact Or.inl (by rwa [List.getElem?_append_left hi] at h)
  · rw [List.getElem?_append_right hi] at h
    exact Or.inr ⟨hi, hadded l (List.mem_of_getElem? h)⟩

theorem extendLevels_shape {t t' : WheelTimer α} {n : Nat} (hs : t.Shape)
    (h : t.extendLevels n = some t') : t'.Shape := by
  obtain ⟨added, rfl, -, hadded⟩ := extendLevels_eq_some h
  refine ⟨hs.hz_pos, hs.hz_le, hs.count_ne, Nat.two_pow_pos _, ?_, ?_, ?_⟩
  · have := hs.levels_pos
    simp; omega
  · intro l hl
    rcases List.mem_append.mp hl with hl | hl
    · exact hs.level_wf l hl
    · exact Level.new_wf (hadded l hl) (divCeil_le_bucketsCount hs.count_ne).2
  · intro l hl
    rcases List.mem_append.mp hl with hl | hl
    · exact hs.level_length l hl
    · obtain ⟨-, rfl⟩ := Level.new_eq_some (hadded l hl)
      simp

theorem new_shape {hz coverage : Duration} (hhz : 0 < hz.nanos) {now : Instant} {t : WheelTimer α}
    (h : new hz coverage now = some t) :
    t.Shape ∧ t.startHz = hz ∧ t.currentClock = now.nanos ∧
      ∀ l ∈ t.levels, Level.new (bucketsCount hz.nanos coverage.nanos) = some l := by
  unfold new at h
  split at h
  · simp at h
  · next hle =>
    obtain ⟨added, heq, hlen, hadded⟩ := extendLevels_eq_some h
    have hlevels : t.levels = added := by simp [heq]
    have hone : added.length = 1 := by simpa using hlen
    obtain ⟨l, hl⟩ : ∃ l, l ∈ added := List.exists_mem_of_length_pos (by omega)
    obtain ⟨hpow, -⟩ := Level.new_eq_some (hadded l hl)
    have hcount : bucketsCount hz.nanos coverage.nanos ≠ 0 := (Nat.pos_of_isPowerOfTwo hpow).ne'
    refine ⟨⟨?_, ?_, ?_, ?_, ?_, ?_, ?_⟩, by rw [heq], by rw [heq], ?_⟩
    · rw [heq]; exact hhz
    · rw [heq]; exact Nat.le_of_not_lt hle
    · rw [heq]; exact hcount
    · rw [heq]; exact Nat.two_pow_pos _
    · rw [hlevels]; omega
    · intro l hl
      exact Level.new_wf (hadded l (hlevels ▸ hl)) (divCeil_le_bucketsCount hcount).2
    · intro l hl
      obtain ⟨-, rfl⟩ := Level.new_eq_some (hadded l (hlevels ▸ hl))
      simp [heq]
    · rw [hlevels]
      exact hadded

/-! ### `schedule` -/

/-- Everything `schedule` does: it extends the levels if necessary and puts the event into one
bucket of the level its duration selects. -/
theorem schedule_eq_some {t t' : WheelTimer α} {event : α} {due now : Instant} {key : TimerKey}
    (h : t.schedule event due now = some (t', key)) :
    let nanos := (due.saturatingDurationSince now).nanos
    let i := findIndexByDuration t.startCoverage.nanos nanos
    let ticks := durationToLevelTicks t.startHz.nanos nanos i
    ∃ t₁ l, ((t.levels.length ≤ i ∧ t.extendLevels (i + 1) = some t₁) ∨
        (i < t.levels.length ∧ t₁ = t)) ∧
      t₁.levels[i]? = some l ∧
      t' = { t₁ with levels := t₁.levels.set i (l.schedule event ticks).1 } ∧
      key = { levelKey := (l.schedule event ticks).2, levelIndex := i } := by
  intro nanos i ticks
  simp only [schedule, Option.bind_eq_bind, Option.bind_eq_some_iff] at h
  obtain ⟨t₁, hext, l, hl, hres⟩ := h
  have hcases : (t.levels.length ≤ i ∧ t.extendLevels (i + 1) = some t₁) ∨
      (i < t.levels.length ∧ t₁ = t) := by
    unfold ensureLevel at hext
    split at hext
    · next hle => exact Or.inl ⟨hle, hext⟩
    · next hlt => exact Or.inr ⟨Nat.lt_of_not_le hlt, (Option.some.inj hext).symm⟩
  have hhz : t₁.startHz = t.startHz := by
    rcases hcases with ⟨-, h⟩ | ⟨-, rfl⟩
    · obtain ⟨added, rfl, -, -⟩ := extendLevels_eq_some h; rfl
    · rfl
  have hticks : durationToLevelTicks t₁.startHz.nanos nanos i = ticks := by rw [hhz]
  rw [hticks] at hres
  obtain ⟨rfl, rfl⟩ := Prod.mk.inj (Option.some.inj hres)
  exact ⟨t₁, l, hcases, hl, rfl, rfl⟩

/-- Replacing one level by a well-formed one of the same size keeps the shape. -/
theorem set_shape {t : WheelTimer α} (hs : t.Shape) {i : Nat} {l : Level α} (hwf : l.Wf)
    (hlen : l.buckets.length = bucketsCount t.startHz.nanos t.startCoverage.nanos) :
    Shape { t with levels := t.levels.set i l } := by
  refine ⟨hs.hz_pos, hs.hz_le, hs.count_ne, hs.tick_lt, by simpa using hs.levels_pos, ?_, ?_⟩
  · intro l' hl'
    rcases List.mem_or_eq_of_mem_set hl' with hl' | rfl
    · exact hs.level_wf l' hl'
    · exact hwf
  · intro l' hl'
    rcases List.mem_or_eq_of_mem_set hl' with hl' | rfl
    · exact hs.level_length l' hl'
    · exact hlen

theorem schedule_shape {t t' : WheelTimer α} (hs : t.Shape) {event : α} {due now : Instant}
    {key : TimerKey} (h : t.schedule event due now = some (t', key)) : t'.Shape := by
  obtain ⟨t₁, l, hext, hl, rfl, -⟩ := schedule_eq_some h
  have hs₁ : t₁.Shape := by
    rcases hext with ⟨-, hext⟩ | ⟨-, rfl⟩
    · exact extendLevels_shape hs hext
    · exact hs
  have hmem := List.mem_of_getElem? hl
  refine set_shape hs₁ (Level.schedule_wf (hs₁.level_wf l hmem) _ _) ?_
  rw [Level.schedule_length]
  exact hs₁.level_length l hmem

/-! ### `cancel` -/

theorem cancel_shape [Inhabited α] {t : WheelTimer α} (hs : t.Shape) (key : TimerKey) :
    (t.cancel key).Shape := by
  unfold cancel
  split
  · refine ⟨hs.hz_pos, hs.hz_le, hs.count_ne, hs.tick_lt, by simpa using hs.levels_pos, ?_, ?_⟩
    · intro l hl
      obtain ⟨i, hi⟩ := List.mem_iff_getElem?.mp hl
      rw [List.getElem?_modify] at hi
      obtain ⟨l₀, hl₀, rfl⟩ := Option.map_eq_some_iff.mp hi
      have hwf := hs.level_wf l₀ (List.mem_of_getElem? hl₀)
      split
      · exact Level.cancel_wf hwf _
      · exact hwf
    · intro l hl
      obtain ⟨i, hi⟩ := List.mem_iff_getElem?.mp hl
      rw [List.getElem?_modify] at hi
      obtain ⟨l₀, hl₀, rfl⟩ := Option.map_eq_some_iff.mp hi
      have hlen := hs.level_length l₀ (List.mem_of_getElem? hl₀)
      split
      · rw [Level.cancel_length]; exact hlen
      · exact hlen
  · exact hs

end WheelTimer

end Aquic.Timer
