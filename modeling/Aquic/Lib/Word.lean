import Mathlib.Algebra.Group.Nat.Defs
import Mathlib.Data.Nat.Log

/-!
# Machine words as naturals

An unsigned `w`-bit integer is a `Nat` below `2 ^ w`. Addition, subtraction and shifts are the
release-mode ones: they wrap. Everything here is stated for an arbitrary width, so that a model can
use one set of lemmas for its 64-bit indices and its 128-bit intermediate products.

The lemmas come in two kinds: a wrapping operation *is* the ordinary one as long as nothing
overflows (`wrappingAdd_of_lt`, `wrappingSub_of_le`), and the bit tricks (masking by a power of two,
counting trailing zeros) are the arithmetic they stand for.
-/

namespace Aquic.Word

/-- The width of a pointer-sized word. -/
def usizeBits : Nat := 64

/-- `a + b` in `w`-bit arithmetic. -/
def wrappingAdd (w a b : Nat) : Nat := (a + b) % 2 ^ w

/-- `a - b` of two `w`-bit words: an underflow wraps around. -/
def wrappingSub (w a b : Nat) : Nat := if b ≤ a then a - b else 2 ^ w - (b - a)

/-- `a * b` in `w`-bit arithmetic. -/
def wrappingMul (w a b : Nat) : Nat := (a * b) % 2 ^ w

/-- `1 << n` in `w`-bit arithmetic; as the hardware does, the shift count is taken modulo `w`. -/
def shlOne (w n : Nat) : Nat := 2 ^ (n % w) % 2 ^ w

/-- Division rounding up. -/
def divCeil (a b : Nat) : Nat := if a % b = 0 then a / b else a / b + 1

/-- The least power of two that is not below `n`. -/
def nextPowerOfTwo (n : Nat) : Nat := 2 ^ Nat.clog 2 n

/-- Trailing zeros of a `w`-bit word; `w` for the zero word. -/
def trailingZeros : Nat → Nat → Nat
  | 0, _ => 0
  | w + 1, n => if n % 2 = 0 then trailingZeros w (n / 2) + 1 else 0

/-! ## No overflow -/

theorem wrappingAdd_of_lt {w a b : Nat} (h : a + b < 2 ^ w) : wrappingAdd w a b = a + b :=
  Nat.mod_eq_of_lt h

theorem wrappingMul_of_lt {w a b : Nat} (h : a * b < 2 ^ w) : wrappingMul w a b = a * b :=
  Nat.mod_eq_of_lt h

theorem wrappingSub_of_le {w a b : Nat} (h : b ≤ a) : wrappingSub w a b = a - b :=
  if_pos h

/-- An underflow lands in the upper part of the range. -/
theorem wrappingSub_of_lt {w a b : Nat} (hb : b ≤ 2 ^ w) (h : a < b) :
    wrappingSub w a b + b = a + 2 ^ w := by
  unfold wrappingSub
  rw [if_neg (by omega)]
  omega

theorem wrappingSub_eq_zero {w a b : Nat} (hb : b < 2 ^ w) : wrappingSub w a b = 0 ↔ a = b := by
  unfold wrappingSub
  split <;> omega

theorem shlOne_of_lt {w n : Nat} (h : n < w) : shlOne w n = 2 ^ n := by
  unfold shlOne
  rw [Nat.mod_eq_of_lt h]
  exact Nat.mod_eq_of_lt (Nat.pow_lt_pow_right (by decide) h)

/-! ## Rounding up -/

theorem le_divCeil_mul (a : Nat) {b : Nat} (hb : 0 < b) : a ≤ divCeil a b * b := by
  have hdiv := Nat.div_add_mod a b
  have hmod := Nat.mod_lt a hb
  have hcomm : b * (a / b) = a / b * b := Nat.mul_comm _ _
  unfold divCeil
  split
  · omega
  · rw [Nat.add_mul, Nat.one_mul]; omega

theorem divCeil_mul_lt (a : Nat) {b : Nat} (hb : 0 < b) : divCeil a b * b < a + b := by
  have hdiv := Nat.div_add_mod a b
  have hcomm : b * (a / b) = a / b * b := Nat.mul_comm _ _
  unfold divCeil
  split
  · omega
  · rw [Nat.add_mul, Nat.one_mul]; omega

theorem divCeil_le_of_le_mul {a b q : Nat} (h : a ≤ q * b) : divCeil a b ≤ q := by
  have hdiv : a / b ≤ q := Nat.div_le_of_le_mul (Nat.mul_comm q b ▸ h)
  unfold divCeil
  split
  · exact hdiv
  · next hmod =>
    -- the quotient cannot be `q` already: the remainder would not fit
    have hlt : a / b < q := by
      refine Nat.lt_of_le_of_ne hdiv fun heq => ?_
      have := Nat.div_add_mod a b
      rw [heq, Nat.mul_comm b q] at this
      omega
    exact hlt

theorem le_nextPowerOfTwo (n : Nat) : n ≤ nextPowerOfTwo n :=
  Nat.le_pow_clog (by decide) n

/-- The remainder of a successor: one more, or back to zero. -/
theorem succ_mod_cases (n : Nat) {m : Nat} (hm : 0 < m) :
    (n % m + 1 = m ∧ (n + 1) % m = 0) ∨ (n % m + 1 < m ∧ (n + 1) % m = n % m + 1) := by
  have hlt : n % m < m := Nat.mod_lt n hm
  have hstep : (n + 1) % m = (n % m + 1) % m := (Nat.mod_add_mod n m 1).symm
  rcases Nat.lt_or_ge (n % m + 1) m with h | h
  · exact Or.inr ⟨h, by rw [hstep, Nat.mod_eq_of_lt h]⟩
  · have heq : n % m + 1 = m := by omega
    exact Or.inl ⟨heq, by rw [hstep, heq, Nat.mod_self]⟩

/-! ## Bits -/

/-- Masking with one less than a power of two is reduction modulo that power. -/
theorem and_pred_of_isPowerOfTwo {n : Nat} (h : n.isPowerOfTwo) (x : Nat) :
    x &&& (n - 1) = x % n := by
  obtain ⟨k, rfl⟩ := h
  exact Nat.and_two_pow_sub_one_eq_mod x k

/-- The trailing zeros of a word count the powers of two that divide it. -/
theorem le_trailingZeros_iff {w i n : Nat} (hi : i ≤ w) :
    i ≤ trailingZeros w n ↔ 2 ^ i ∣ n := by
  induction w generalizing i n with
  | zero => simp [trailingZeros, Nat.le_zero.mp hi]
  | succ w ih =>
    cases i with
    | zero => simp
    | succ i =>
      unfold trailingZeros
      split
      · next heven =>
        -- an even word loses its last zero, and so does the power that has to divide it
        obtain ⟨m, rfl⟩ := Nat.dvd_of_mod_eq_zero heven
        rw [Nat.mul_div_cancel_left m (by decide), Nat.succ_le_succ_iff, ih (by omega),
          Nat.pow_succ', Nat.mul_dvd_mul_iff_left (by decide)]
      · next hodd =>
        constructor
        · intro h; omega
        · intro h
          have htwo : 2 ∣ 2 ^ (i + 1) := ⟨2 ^ i, Nat.pow_succ' ..⟩
          exact absurd (Nat.mod_eq_zero_of_dvd (Nat.dvd_trans htwo h)) hodd

theorem trailingZeros_le (w n : Nat) : trailingZeros w n ≤ w := by
  induction w generalizing n with
  | zero => simp [trailingZeros]
  | succ w ih =>
    unfold trailingZeros
    split
    · have := ih (n / 2); omega
    · omega

end Aquic.Word
