import Aquic.Util.Timer.Level

/-!
# The wheel timer

`util/timer/mod.rs`: a stack of levels, level `i` twice as coarse and twice as long as level
`i - 1`. One base tick advances level 0; the trailing zeros of the tick counter say how many of the
higher levels advance with it.

Times are nanoseconds. A `Duration` is a `u64` number of seconds and a rest, so it stays below
`2 ^ 64` seconds, and so does the distance of two `Instant`s; the intermediate products of
`duration_to_level_ticks` are `u128` and its result is cast to `usize`. The timer's own clock is not
bounded here: where `current_clock += start_hz` would leave the platform's range the source panics
and the run is over.

A panic is `none`.
-/

namespace Aquic.Timer

open Aquic.Word

/-- The width of `u128`. -/
def u128Bits : Nat := 128

/-- `2 ^ 64` seconds, in nanoseconds: no duration is that long. -/
def durationLimit : Nat := 2 ^ 64 * 10 ^ 9

/-- `std::time::Duration`. -/
structure Duration where
  nanos : Nat
  isLt : nanos < durationLimit
  deriving DecidableEq

/-- `std::time::Instant`: the platform clock, counted from the earliest instant it can show. -/
structure Instant where
  nanos : Nat
  isLt : nanos < durationLimit
  deriving DecidableEq

/-- The earliest instant. -/
def Instant.zero : Instant := ⟨0, by decide⟩

/-- `Instant::saturating_duration_since`. -/
def Instant.saturatingDurationSince (later earlier : Instant) : Duration :=
  ⟨later.nanos - earlier.nanos, Nat.lt_of_le_of_lt (Nat.sub_le ..) later.isLt⟩

/-- A key for a scheduled event, used to cancel the event. -/
structure TimerKey where
  levelKey : LevelKey
  levelIndex : Nat
  deriving DecidableEq, Repr

/-- A cancellable wheel timer. -/
structure WheelTimer (α : Type*) where
  /-- Timer layers, each covering twice the time of the one before with half its precision. -/
  levels : List (Level α)
  /-- Current absolute tick count. -/
  currentTick : Nat
  /-- Current clock, in nanoseconds: the time of the next tick. -/
  currentClock : Nat
  /-- Tick duration of level 0. -/
  startHz : Duration
  /-- Time span covered by level 0. -/
  startCoverage : Duration
  deriving DecidableEq

/-- The number of buckets `extend_levels` gives every level. -/
def bucketsCount (hz coverage : Nat) : Nat :=
  let requiredBuckets := if coverage % hz = 0 then coverage / hz else divCeil coverage hz + 1
  max (nextPowerOfTwo requiredBuckets) 2 % 2 ^ usizeBits

/-- `find_index_by_duration`: the level whose span the duration falls into. -/
def findIndexByDuration (coverage nanos : Nat) : Nat :=
  if nanos < coverage then 0 else Nat.log2 (nanos / coverage) + 1

/-- `duration_to_level_ticks`: the duration in ticks of that level, rounded up. -/
def durationToLevelTicks (hz nanos levelIndex : Nat) : Nat :=
  let levelHzNanos := wrappingMul u128Bits hz (shlOne u128Bits levelIndex)
  divCeil nanos levelHzNanos % 2 ^ usizeBits

namespace WheelTimer

variable {α : Type*}

/-- `extend_levels`. The tick counter restarts, so that the next tick does not reach into a level
that has just been created. -/
def extendLevels (t : WheelTimer α) (desiredLength : Nat) : Option (WheelTimer α) :=
  if desiredLength ≤ t.levels.length then
    some { t with currentTick := 0 }
  else
    (Level.new (bucketsCount t.startHz.nanos t.startCoverage.nanos)).map fun level =>
      { t with
        levels := t.levels ++ List.replicate (desiredLength - t.levels.length) level
        currentTick := 0 }

/-- `WheelTimer::new`. -/
def new (startHz startCoverage : Duration) (now : Instant) : Option (WheelTimer α) :=
  if startCoverage.nanos < startHz.nanos then
    none
  else
    extendLevels
      { levels := [], currentTick := 0, currentClock := now.nanos, startHz, startCoverage } 1

/-- The conditional extension at the beginning of `schedule`. -/
def ensureLevel (t : WheelTimer α) (levelIndex : Nat) : Option (WheelTimer α) :=
  if t.levels.length ≤ levelIndex then t.extendLevels (levelIndex + 1) else some t

/-- `WheelTimer::schedule`. -/
def schedule (t : WheelTimer α) (event : α) (due now : Instant) :
    Option (WheelTimer α × TimerKey) := do
  let duration := due.saturatingDurationSince now
  let levelIndex := findIndexByDuration t.startCoverage.nanos duration.nanos
  let t ← t.ensureLevel levelIndex
  let durationTicks := durationToLevelTicks t.startHz.nanos duration.nanos levelIndex
  let level ← t.levels[levelIndex]?
  let (level, levelKey) := level.schedule event durationTicks
  some ({ t with levels := t.levels.set levelIndex level }, { levelKey, levelIndex })

/-- Ticks the first `n` levels and collects their buckets, level 0 first. -/
def tickLevels : Nat → List (Level α) → List (Level α) × List (List α)
  | 0, levels => (levels, [])
  | _, [] => ([], [])
  | n + 1, level :: levels =>
    let rest := tickLevels n levels
    (level.tick.1 :: rest.1, level.tick.2 :: rest.2)

/-- `tick`: level `i` takes part in every `2 ^ i`-th one. -/
def tick (t : WheelTimer α) : WheelTimer α × List (List α) :=
  let currentTick := wrappingAdd usizeBits t.currentTick 1
  let ticked := tickLevels (min (trailingZeros usizeBits currentTick) (t.levels.length - 1) + 1)
    t.levels
  ({ t with levels := ticked.1, currentTick }, ticked.2)

/-- The loop of `progress`, with fuel for its iterations. -/
def progressLoop : Nat → WheelTimer α → Nat → WheelTimer α × List (List α)
  | 0, t, _ => (t, [])
  | fuel + 1, t, now =>
    if t.currentClock ≤ now then
      let ticked := t.tick
      let rest := progressLoop fuel
        { ticked.1 with currentClock := ticked.1.currentClock + t.startHz.nanos } now
      (rest.1, ticked.2 ++ rest.2)
    else
      (t, [])

/-- `WheelTimer::progress`: the timer afterwards and the buckets pushed to `out`. The clock moves by
at least one nanosecond per iteration, so there are never more of them than the clock is behind. -/
def progress (t : WheelTimer α) (now : Instant) : WheelTimer α × List (List α) :=
  progressLoop (now.nanos + 1 - t.currentClock) t now.nanos

/-- `WheelTimer::cancel`. -/
def cancel [Inhabited α] (t : WheelTimer α) (key : TimerKey) : WheelTimer α :=
  if key.levelIndex < t.levels.length then
    { t with levels := t.levels.modify key.levelIndex (·.cancel key.levelKey) }
  else
    t

/-- Dropping a `TimerTick` that level `levelIndex` detached. -/
def giveBack (t : WheelTimer α) (levelIndex sourceIndex : Nat) (lessCapacity : Bool) :
    WheelTimer α :=
  { t with levels := t.levels.modify levelIndex (·.giveBack sourceIndex lessCapacity) }

theorem giveBack_eq (t : WheelTimer α) (levelIndex sourceIndex : Nat) (lessCapacity : Bool) :
    t.giveBack levelIndex sourceIndex lessCapacity = t := by
  have hid : (fun l : Level α => l.giveBack sourceIndex lessCapacity) = id :=
    funext fun l => l.giveBack_eq sourceIndex lessCapacity
  unfold giveBack
  rw [hid, List.modify_id]

end WheelTimer

/-! ## The index arithmetic -/

/-- Every duration lies below the span of the level it is sent to. -/
theorem lt_coverage_mul {coverage : Nat} (nanos : Nat) (hc : 0 < coverage) :
    nanos < coverage * 2 ^ findIndexByDuration coverage nanos := by
  unfold findIndexByDuration
  split
  · simpa using ‹nanos < coverage›
  · have h : nanos / coverage < 2 ^ (Nat.log2 (nanos / coverage) + 1) := Nat.lt_log2_self
    exact Nat.mul_comm .. ▸ (Nat.div_lt_iff_lt_mul hc).mp h

/-- … and, above level 0, not below half of it. -/
theorem coverage_mul_le {coverage nanos i : Nat} (hc : 0 < coverage)
    (h : findIndexByDuration coverage nanos = i + 1) : coverage * 2 ^ i ≤ nanos := by
  unfold findIndexByDuration at h
  split at h
  · omega
  · next hge =>
    obtain rfl : Nat.log2 (nanos / coverage) = i := by omega
    have hne : nanos / coverage ≠ 0 := (Nat.div_pos (by omega) hc).ne'
    exact Nat.mul_comm .. ▸ (Nat.le_div_iff_mul_le hc).mp (Nat.log2_self_le hne)

/-- The tick of a level is far below the range of the product. -/
theorem levelHz_lt {hz coverage nanos : Nat} (hhz : 0 < hz) (hle : hz ≤ coverage)
    (hcov : coverage < durationLimit) (hnanos : nanos < durationLimit) :
    hz * 2 ^ findIndexByDuration coverage nanos < 2 ^ 100 := by
  have hlimit : durationLimit * 2 < 2 ^ 100 := by decide
  cases hindex : findIndexByDuration coverage nanos with
  | zero => omega
  | succ i =>
    have hspan := coverage_mul_le (by omega) hindex
    have hmul : hz * 2 ^ i ≤ coverage * 2 ^ i := Nat.mul_le_mul_right _ hle
    rw [Nat.pow_succ, ← Nat.mul_assoc]
    omega

theorem findIndexByDuration_lt {hz coverage nanos : Nat} (hhz : 0 < hz) (hle : hz ≤ coverage)
    (hcov : coverage < durationLimit) (hnanos : nanos < durationLimit) :
    findIndexByDuration coverage nanos < u128Bits := by
  have hpow : 2 ^ findIndexByDuration coverage nanos < 2 ^ 100 :=
    Nat.lt_of_le_of_lt (Nat.le_mul_of_pos_left _ hhz) (levelHz_lt hhz hle hcov hnanos)
  have hindex := (Nat.pow_lt_pow_iff_right (a := 2) (by decide)).mp hpow
  exact Nat.lt_trans hindex (by decide)

/-- The `u128` product of a tick and a power of two is the exact one. -/
theorem levelHz_eq {hz coverage nanos : Nat} (hhz : 0 < hz) (hle : hz ≤ coverage)
    (hcov : coverage < durationLimit) (hnanos : nanos < durationLimit) :
    wrappingMul u128Bits hz (shlOne u128Bits (findIndexByDuration coverage nanos))
      = hz * 2 ^ findIndexByDuration coverage nanos := by
  rw [shlOne_of_lt (findIndexByDuration_lt hhz hle hcov hnanos)]
  refine wrappingMul_of_lt (Nat.lt_trans (levelHz_lt hhz hle hcov hnanos) ?_)
  decide

/-- The number of level ticks before truncation to `usize`. -/
theorem divCeil_levelHz_le {hz coverage : Nat} (nanos : Nat) (hhz : 0 < hz) (hle : hz ≤ coverage) :
    divCeil nanos (hz * 2 ^ findIndexByDuration coverage nanos) ≤ divCeil coverage hz := by
  refine divCeil_le_of_le_mul ?_
  have hspan : nanos < coverage * 2 ^ findIndexByDuration coverage nanos :=
    lt_coverage_mul nanos (by omega)
  have hround := le_divCeil_mul coverage hhz
  calc nanos ≤ coverage * 2 ^ findIndexByDuration coverage nanos := hspan.le
    _ ≤ divCeil coverage hz * hz * 2 ^ findIndexByDuration coverage nanos :=
        Nat.mul_le_mul_right _ hround
    _ = divCeil coverage hz * (hz * 2 ^ findIndexByDuration coverage nanos) := Nat.mul_assoc ..

/-- The number of buckets, when it fits into a word. -/
theorem bucketsCount_eq {hz coverage : Nat} (hcount : bucketsCount hz coverage ≠ 0) :
    bucketsCount hz coverage = max (nextPowerOfTwo
      (if coverage % hz = 0 then coverage / hz else divCeil coverage hz + 1)) 2 := by
  unfold bucketsCount at hcount ⊢
  simp only at hcount ⊢
  generalize (if coverage % hz = 0 then coverage / hz else divCeil coverage hz + 1) = req
    at hcount ⊢
  refine Nat.mod_eq_of_lt ?_
  -- a power of two that does not fit is truncated to zero
  by_contra hbig
  apply hcount
  have htwo : 2 < 2 ^ usizeBits := by decide
  have hpow : 2 ^ usizeBits ≤ nextPowerOfTwo req := by omega
  have hdvd : 2 ^ usizeBits ∣ nextPowerOfTwo req :=
    Nat.pow_dvd_pow 2 ((Nat.pow_le_pow_iff_right (by decide)).mp hpow)
  rw [Nat.max_eq_left (by omega)]
  exact Nat.mod_eq_zero_of_dvd hdvd

theorem two_le_bucketsCount {hz coverage : Nat} (hcount : bucketsCount hz coverage ≠ 0) :
    2 ≤ bucketsCount hz coverage := by
  rw [bucketsCount_eq hcount]
  exact Nat.le_max_right ..

/-- A level has as many buckets as its span has ticks, but not necessarily one more. -/
theorem divCeil_le_bucketsCount {hz coverage : Nat} (hcount : bucketsCount hz coverage ≠ 0) :
    divCeil coverage hz ≤ bucketsCount hz coverage ∧ bucketsCount hz coverage < 2 ^ usizeBits := by
  refine ⟨?_, Nat.mod_lt _ (Nat.two_pow_pos _)⟩
  rw [bucketsCount_eq hcount]
  refine Nat.le_trans ?_ ((le_nextPowerOfTwo _).trans (Nat.le_max_left ..))
  unfold divCeil
  split
  · exact Nat.le_refl _
  · omega

section Ticks

variable {hz coverage nanos : Nat} (hhz : 0 < hz) (hle : hz ≤ coverage)
  (hcov : coverage < durationLimit) (hnanos : nanos < durationLimit)
  (hcount : bucketsCount hz coverage ≠ 0)

include hhz hle hcov hnanos hcount

/-- Nothing is truncated in `duration_to_level_ticks`. -/
theorem durationToLevelTicks_eq :
    durationToLevelTicks hz nanos (findIndexByDuration coverage nanos) =
      divCeil nanos (hz * 2 ^ findIndexByDuration coverage nanos) := by
  obtain ⟨hbuckets, hfit⟩ := divCeil_le_bucketsCount hcount
  have hticks := divCeil_levelHz_le nanos hhz hle
  unfold durationToLevelTicks
  simp only [levelHz_eq hhz hle hcov hnanos]
  exact Nat.mod_eq_of_lt (by omega)

/-- **The tick count of a duration**: rounding is upwards, and within one revolution. -/
theorem durationToLevelTicks_spec :
    nanos ≤ durationToLevelTicks hz nanos (findIndexByDuration coverage nanos)
        * (hz * 2 ^ findIndexByDuration coverage nanos) ∧
    durationToLevelTicks hz nanos (findIndexByDuration coverage nanos)
        ≤ bucketsCount hz coverage := by
  rw [durationToLevelTicks_eq hhz hle hcov hnanos hcount]
  exact ⟨le_divCeil_mul _ (Nat.mul_pos hhz (Nat.two_pow_pos _)),
    (divCeil_levelHz_le nanos hhz hle).trans (divCeil_le_bucketsCount hcount).1⟩

/-- Rounding adds less than one level tick. -/
theorem durationToLevelTicks_mul_lt :
    durationToLevelTicks hz nanos (findIndexByDuration coverage nanos)
        * (hz * 2 ^ findIndexByDuration coverage nanos)
      < nanos + hz * 2 ^ findIndexByDuration coverage nanos := by
  rw [durationToLevelTicks_eq hhz hle hcov hnanos hcount]
  exact divCeil_mul_lt _ (Nat.mul_pos hhz (Nat.two_pow_pos _))

end Ticks

end Aquic.Timer
