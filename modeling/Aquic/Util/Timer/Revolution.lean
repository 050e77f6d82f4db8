import Aquic.Util.Timer.Wheel

/-!
# One revolution

`Level::schedule` wants fewer ticks than the level has buckets: a duration of exactly one revolution
would end up in the bucket that is current now. `extend_levels` gives a level one bucket for each tick
of its span, rounded up to a power of two, and one more tick if the span is no multiple of a tick. So
there is a bucket to spare except where the span is a power of two of ticks; then a duration within
the last tick of the span is rounded up to a whole revolution.
-/

namespace Aquic.Timer

open Aquic.Word

/-- The number of buckets `extend_levels` asks for, before it is rounded to a power of two. -/
def requiredBuckets (hz coverage : Nat) : Nat :=
  if coverage % hz = 0 then coverage / hz else divCeil coverage hz + 1

/-- A duration is sent to a bucket of its level, and nothing overflows or is truncated on the way. -/
structure WithinRevolution (hz coverage nanos : Nat) : Prop where
  /-- The assertion of `Level::schedule`. -/
  ticks_lt : durationToLevelTicks hz nanos (findIndexByDuration coverage nanos) <
    bucketsCount hz coverage
  /-- `1 << level_index`. -/
  shift : findIndexByDuration coverage nanos < u128Bits
  product : hz * 2 ^ findIndexByDuration coverage nanos < 2 ^ u128Bits
  /-- The cast in `duration_to_level_ticks`. -/
  ticks_cast : divCeil nanos (hz * 2 ^ findIndexByDuration coverage nanos) < 2 ^ usizeBits
  next_power : nextPowerOfTwo (requiredBuckets hz coverage) < 2 ^ u128Bits
  /-- The cast in `extend_levels`. -/
  buckets_cast : max (nextPowerOfTwo (requiredBuckets hz coverage)) 2 < 2 ^ usizeBits

/-- The duration lies within the last tick of the span of a level. -/
def InLastTick (hz coverage nanos : Nat) : Prop :=
  ∃ i, (coverage - hz) * 2 ^ i < nanos ∧ nanos < coverage * 2 ^ i

/-- The span is a power of two of ticks, and more than one. -/
def SpanIsFull (hz coverage : Nat) : Prop :=
  coverage % hz = 0 ∧ (coverage / hz).isPowerOfTwo ∧ coverage / hz ≠ 1

/-! ## Powers of two -/

theorem nextPowerOfTwo_le_iff {n m : Nat} : nextPowerOfTwo n ≤ 2 ^ m ↔ n ≤ 2 ^ m := by
  unfold nextPowerOfTwo
  rw [Nat.pow_le_pow_iff_right (by decide), Nat.clog_le_iff_le_pow (by decide)]

theorem nextPowerOfTwo_eq_self_iff {n : Nat} (hn : 0 < n) :
    nextPowerOfTwo n = n ↔ n.isPowerOfTwo := by
  constructor
  · intro h
    exact ⟨Nat.clog 2 n, h.symm⟩
  · rintro ⟨m, rfl⟩
    exact Nat.le_antisymm (nextPowerOfTwo_le_iff.mpr (Nat.le_refl _)) (le_nextPowerOfTwo _)

/-- Below a power of two is at most the one before. -/
theorem nextPowerOfTwo_lt_iff {n m : Nat} : nextPowerOfTwo n < 2 ^ (m + 1) ↔ n ≤ 2 ^ m := by
  rw [← nextPowerOfTwo_le_iff]
  unfold nextPowerOfTwo
  rw [Nat.pow_lt_pow_iff_right (by decide), Nat.pow_le_pow_iff_right (by decide),
    Nat.lt_succ_iff]

theorem divCeil_le_iff {a b q : Nat} (hb : 0 < b) : divCeil a b ≤ q ↔ a ≤ q * b := by
  constructor
  · intro h
    exact (le_divCeil_mul a hb).trans (Nat.mul_le_mul_right b h)
  · exact divCeil_le_of_le_mul

section

variable {hz coverage nanos : Nat} (hhz : 0 < hz) (hle : hz ≤ coverage)

include hhz hle

/-- The last tick of the level the duration belongs to. -/
theorem inLastTick_iff (htwo : 2 * hz ≤ coverage) :
    InLastTick hz coverage nanos ↔
      (coverage - hz) * 2 ^ findIndexByDuration coverage nanos < nanos := by
  have hspan : nanos < coverage * 2 ^ findIndexByDuration coverage nanos :=
    lt_coverage_mul nanos (by omega)
  constructor
  · rintro ⟨i, hlast, hlt⟩
    rcases Nat.lt_trichotomy i (findIndexByDuration coverage nanos) with hi | rfl | hi
    · -- the duration is too long for a lower level
      obtain ⟨j, hj⟩ := Nat.exists_eq_add_of_lt hi
      have hbelow := coverage_mul_le (i := i + j) (by omega) hj
      have hmono : coverage * 2 ^ i ≤ coverage * 2 ^ (i + j) :=
        Nat.mul_le_mul_left _ (Nat.pow_le_pow_right (by decide) (Nat.le_add_right ..))
      omega
    · exact hlast
    · -- it ends before the last tick of a higher level
      have hmono : coverage * 2 ^ findIndexByDuration coverage nanos ≤ (coverage - hz) * 2 ^ i :=
        calc coverage * 2 ^ findIndexByDuration coverage nanos
            ≤ (coverage - hz) * 2 * 2 ^ findIndexByDuration coverage nanos :=
              Nat.mul_le_mul_right _ (by omega)
          _ = (coverage - hz) * 2 ^ (findIndexByDuration coverage nanos + 1) := by
              rw [Nat.mul_assoc, Nat.pow_succ']
          _ ≤ (coverage - hz) * 2 ^ i :=
              Nat.mul_le_mul_left _ (Nat.pow_le_pow_right (by decide) hi)
      omega
  · intro hlast
    exact ⟨_, hlast, hspan⟩

/-- A level has one bucket to spare, unless its span is full. -/
theorem divCeil_lt_of_not_full (hfull : ¬SpanIsFull hz coverage) :
    divCeil coverage hz < max (nextPowerOfTwo (requiredBuckets hz coverage)) 2 := by
  have hpow := le_nextPowerOfTwo (requiredBuckets hz coverage)
  by_cases hmultiple : coverage % hz = 0
  · have hrequired : requiredBuckets hz coverage = coverage / hz := if_pos hmultiple
    rw [hrequired] at hpow ⊢
    rw [divCeil, if_pos hmultiple]
    by_cases hone : coverage / hz = 1
    · rw [hone]
      exact Nat.lt_of_lt_of_le (by decide) (Nat.le_max_right ..)
    · have hne : nextPowerOfTwo (coverage / hz) ≠ coverage / hz := by
        intro heq
        exact hfull ⟨hmultiple, (nextPowerOfTwo_eq_self_iff (Nat.div_pos hle hhz)).mp heq, hone⟩
      omega
  · have hrequired : requiredBuckets hz coverage = divCeil coverage hz + 1 := if_neg hmultiple
    rw [hrequired] at hpow ⊢
    omega

/-- A full span takes all the buckets of its level. -/
theorem buckets_of_full (hfull : SpanIsFull hz coverage) :
    max (nextPowerOfTwo (requiredBuckets hz coverage)) 2 = coverage / hz ∧ 2 ≤ coverage / hz := by
  obtain ⟨hmultiple, hpow, hone⟩ := hfull
  have hpos := Nat.div_pos hle hhz
  have hrequired : requiredBuckets hz coverage = coverage / hz := if_pos hmultiple
  rw [hrequired, (nextPowerOfTwo_eq_self_iff hpos).mpr hpow]
  omega

/-- In a full span, exactly the last tick is rounded up to a whole revolution. -/
theorem divCeil_lt_iff_of_full (hfull : SpanIsFull hz coverage) :
    divCeil nanos (hz * 2 ^ findIndexByDuration coverage nanos) < coverage / hz ↔
      ¬InLastTick hz coverage nanos := by
  obtain ⟨-, htwo⟩ := buckets_of_full hhz hle hfull
  have hmul : coverage / hz * hz = coverage := Nat.div_mul_cancel (Nat.dvd_of_mod_eq_zero hfull.1)
  have hspan : 2 * hz ≤ coverage := hmul ▸ Nat.mul_le_mul_right hz htwo
  have hlast : (coverage / hz - 1) * hz = coverage - hz := by
    rw [Nat.sub_mul, hmul, Nat.one_mul]
  have hpow := Nat.two_pow_pos (findIndexByDuration coverage nanos)
  rw [inLastTick_iff hhz hle hspan, Nat.not_lt, ← hlast, Nat.mul_assoc,
    ← divCeil_le_iff (Nat.mul_pos hhz hpow)]
  omega

end

/-- **A duration stays within one revolution** exactly if the number of buckets fits into a word and,
where the span is a power of two of ticks, the duration is not within the last tick of a level. -/
theorem withinRevolution_iff (hz coverage duration : Duration) (hhz : 0 < hz.nanos)
    (hle : hz.nanos ≤ coverage.nanos) :
    WithinRevolution hz.nanos coverage.nanos duration.nanos ↔
      requiredBuckets hz.nanos coverage.nanos ≤ 2 ^ 63 ∧
      (SpanIsFull hz.nanos coverage.nanos →
        ¬InLastTick hz.nanos coverage.nanos duration.nanos) := by
  have hfits : max (nextPowerOfTwo (requiredBuckets hz.nanos coverage.nanos)) 2 < 2 ^ usizeBits ↔
      requiredBuckets hz.nanos coverage.nanos ≤ 2 ^ 63 := by
    have htwo : 2 < 2 ^ usizeBits := by decide
    have hbits : usizeBits = 63 + 1 := rfl
    rw [← nextPowerOfTwo_lt_iff, ← hbits]
    omega
  have hticks : requiredBuckets hz.nanos coverage.nanos ≤ 2 ^ 63 →
      bucketsCount hz.nanos coverage.nanos =
        max (nextPowerOfTwo (requiredBuckets hz.nanos coverage.nanos)) 2 ∧
      durationToLevelTicks hz.nanos duration.nanos
          (findIndexByDuration coverage.nanos duration.nanos) =
        divCeil duration.nanos
          (hz.nanos * 2 ^ findIndexByDuration coverage.nanos duration.nanos) := by
    intro hrequired
    have hcount : bucketsCount hz.nanos coverage.nanos =
        max (nextPowerOfTwo (requiredBuckets hz.nanos coverage.nanos)) 2 :=
      Nat.mod_eq_of_lt (hfits.mpr hrequired)
    refine ⟨hcount, durationToLevelTicks_eq hhz hle coverage.isLt duration.isLt ?_⟩
    rw [hcount]
    exact Nat.ne_of_gt (Nat.lt_of_lt_of_le (by decide) (Nat.le_max_right ..))
  constructor
  · intro h
    have hrequired := hfits.mp h.buckets_cast
    obtain ⟨hcount, hticks⟩ := hticks hrequired
    refine ⟨hrequired, fun hfull => ?_⟩
    have hlt := h.ticks_lt
    rw [hcount, hticks, (buckets_of_full hhz hle hfull).1] at hlt
    exact (divCeil_lt_iff_of_full hhz hle hfull).mp hlt
  · rintro ⟨hrequired, hlast⟩
    obtain ⟨hcount, hticks⟩ := hticks hrequired
    have hlt : divCeil duration.nanos
          (hz.nanos * 2 ^ findIndexByDuration coverage.nanos duration.nanos) <
        max (nextPowerOfTwo (requiredBuckets hz.nanos coverage.nanos)) 2 := by
      by_cases hfull : SpanIsFull hz.nanos coverage.nanos
      · rw [(buckets_of_full hhz hle hfull).1]
        exact (divCeil_lt_iff_of_full hhz hle hfull).mpr (hlast hfull)
      · exact Nat.lt_of_le_of_lt (divCeil_levelHz_le duration.nanos hhz hle)
          (divCeil_lt_of_not_full hhz hle hfull)
    have hproduct := levelHz_lt hhz hle coverage.isLt duration.isLt
    refine ⟨?_, ?_, ?_, ?_, ?_, ?_⟩
    · rw [hcount, hticks]
      exact hlt
    · exact findIndexByDuration_lt hhz hle coverage.isLt duration.isLt
    · exact Nat.lt_trans hproduct (by decide)
    · exact Nat.lt_trans hlt (hfits.mpr hrequired)
    · have hbuckets := hfits.mpr hrequired
      have hwide : 2 ^ usizeBits ≤ 2 ^ u128Bits := Nat.pow_le_pow_right (by decide) (by decide)
      omega
    · exact hfits.mpr hrequired

/-- Sixty-four ticks, and a duration that is short enough. -/
theorem withinRevolution_short : WithinRevolution 1000000 64000000 63000000 := by
  have hiff := withinRevolution_iff ⟨1000000, by decide⟩ ⟨64000000, by decide⟩ ⟨63000000, by decide⟩
    (by decide) (by decide)
  refine hiff.mpr ⟨by decide, fun _ => ?_⟩
  rw [inLastTick_iff (by decide) (by decide) (by decide)]
  decide

/-- **A whole revolution**: two ticks of a millisecond, and a duration of one and a half. -/
theorem ticks_eq_buckets : ¬WithinRevolution 1000000 2000000 1500000 ∧
    durationToLevelTicks 1000000 1500000 (findIndexByDuration 2000000 1500000) = 2 ∧
    bucketsCount 1000000 2000000 = 2 := by
  have hticks :
      durationToLevelTicks 1000000 1500000 (findIndexByDuration 2000000 1500000) = 2 := by decide
  have hcount : bucketsCount 1000000 2000000 = 2 := by decide
  refine ⟨?_, hticks, hcount⟩
  intro h
  have hlt := h.ticks_lt
  rw [hticks, hcount] at hlt
  exact absurd hlt (Nat.lt_irrefl 2)

end Aquic.Timer
