import Mathlib.Data.List.Basic
import Mathlib.Tactic.Ring

/-!
# Byte strings

Big-endian integers of a fixed width, and padding that carries its own length: `xs` followed by some
filling, followed by one byte that counts the filling. A reader who knows only the end of such a
block recovers `xs` (`unpad_append`), so that blocks of equal length with equal bytes hold equal
contents. Random bytes come from an endless supply of which each draw takes the next one.
-/

namespace Aquic.Bytes

/-- `n` as `w` bytes, the most significant first. -/
def toBe : Nat → Nat → List UInt8
  | 0, _ => []
  | w + 1, n => toBe w (n / 256) ++ [UInt8.ofNat (n % 256)]

/-- The number that big-endian bytes stand for. -/
def ofBe (bytes : List UInt8) : Nat :=
  bytes.foldl (fun n byte => n * 256 + byte.toNat) 0

@[simp] theorem toBe_length (w n : Nat) : (toBe w n).length = w := by
  induction w generalizing n with
  | zero => rfl
  | succ w ih => simp [toBe, ih]

theorem ofBe_concat (bytes : List UInt8) (byte : UInt8) :
    ofBe (bytes ++ [byte]) = ofBe bytes * 256 + byte.toNat := by
  simp [ofBe]

theorem ofBe_toBe {w n : Nat} (h : n < 256 ^ w) : ofBe (toBe w n) = n := by
  induction w generalizing n with
  | zero =>
    have : n = 0 := by simpa using h
    subst this
    rfl
  | succ w ih =>
    have hdiv : n / 256 < 256 ^ w := by
      refine Nat.div_lt_of_lt_mul ?_
      rwa [Nat.pow_succ, Nat.mul_comm] at h
    have hbyte : (UInt8.ofNat (n % 256)).toNat = n % 256 := by simp
    rw [toBe, ofBe_concat, ih hdiv, hbyte]
    omega

/-- Removes the last byte, and as many bytes before it as it says. -/
def unpad (bytes : List UInt8) : Option (List UInt8) :=
  match bytes.getLast? with
  | none => none
  | some count =>
    if bytes.dropLast.length < count.toNat then none
    else some (bytes.dropLast.take (bytes.dropLast.length - count.toNat))

/-- What was padded comes back. -/
theorem unpad_append (xs filling : List UInt8) (h : filling.length < 256) :
    unpad (xs ++ filling ++ [UInt8.ofNat filling.length]) = some xs := by
  have hcount : (UInt8.ofNat filling.length).toNat = filling.length := by
    simpa using Nat.mod_eq_of_lt h
  unfold unpad
  simp only [List.getLast?_append, List.getLast?_singleton, Option.some_or,
    List.dropLast_concat, hcount]
  rw [if_neg (by simp)]
  simp

/-! ## Random bytes -/

/-- A source of random numbers. -/
structure Rng where
  draws : Nat → Nat
  cursor : Nat

/-- The next draw. -/
def Rng.next (rng : Rng) : Rng × Nat := ({ rng with cursor := rng.cursor + 1 }, rng.draws rng.cursor)

/-- `fill_bytes`. -/
def Rng.fillBytes (rng : Rng) (n : Nat) : Rng × List UInt8 :=
  ({ rng with cursor := rng.cursor + n },
    (List.range n).map fun i => UInt8.ofNat (rng.draws (rng.cursor + i)))

@[simp] theorem Rng.fillBytes_length (rng : Rng) (n : Nat) : (rng.fillBytes n).2.length = n := by
  simp [fillBytes]

end Aquic.Bytes
