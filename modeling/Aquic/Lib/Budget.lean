import Mathlib.Algebra.BigOperators.Group.List.Basic
import Mathlib.Algebra.Ring.Nat

/-!
# Budgets

A bounded amount from which parts are taken and to which they are given back; `held` is the list of
the parts that are out, in any order. A part is taken when it fits into the rest of the budget, or
when nothing is out at all: then it may be as large as it likes.

`Exact bound total held` says that the books are right. It survives taking a part that fits, giving a
part back and any reordering of the parts. Its second half is what an oversized part costs: the total
exceeds the bound only while a single part is out that is not zero.
-/

namespace Aquic.Budget

structure Exact (bound total : Nat) (held : List Nat) : Prop where
  total_eq : total = held.sum
  bounded : total ≤ bound ∨ held.countP (0 < ·) = 1

variable {bound total w : Nat} {held held' : List Nat}

theorem Exact.nil (bound : Nat) : Exact bound 0 [] := ⟨rfl, .inl (Nat.zero_le _)⟩

theorem Exact.perm (h : Exact bound total held) (hperm : held.Perm held') :
    Exact bound total held' where
  total_eq := h.total_eq.trans hperm.sum_eq
  bounded := by rw [← hperm.countP_eq]; exact h.bounded

theorem countP_pos_eq_zero_iff : held.countP (0 < ·) = 0 ↔ held.sum = 0 := by
  simp [List.countP_eq_zero, List.sum_eq_zero_iff_forall_eq_nat]

/-- A part is taken. -/
theorem Exact.take (h : Exact bound total held) (hfit : total = 0 ∨ total + w ≤ bound) :
    Exact bound (total + w) (w :: held) where
  total_eq := by rw [List.sum_cons, ← h.total_eq, Nat.add_comm]
  bounded := by
    rcases hfit with hzero | hle
    · -- nothing but zeros is out, so that the new part is the only one that counts
      have hout : held.countP (0 < ·) = 0 := countP_pos_eq_zero_iff.mpr (h.total_eq ▸ hzero)
      rcases Nat.eq_zero_or_pos w with hw | hw
      · exact .inl (by omega)
      · exact .inr (by simp [hw, hout])
    · exact .inl hle

theorem Exact.le (h : Exact bound total (w :: held)) : w ≤ total := by
  have := h.total_eq
  rw [List.sum_cons] at this
  omega

/-- A part is given back. -/
theorem Exact.give (h : Exact bound total (w :: held)) : Exact bound (total - w) held := by
  have htotal : total - w = held.sum := by
    have := h.total_eq
    rw [List.sum_cons] at this
    omega
  refine ⟨htotal, ?_⟩
  rcases h.bounded with hle | hone
  · exact .inl (by omega)
  · rcases Nat.eq_zero_or_pos w with rfl | hw
    · exact .inr (by simpa using hone)
    · -- the oversized part itself is given back, nothing is left
      have hout : held.countP (0 < ·) = 0 := by simpa [hw] using hone
      rw [htotal, countP_pos_eq_zero_iff.mp hout]
      exact .inl (Nat.zero_le _)

/-- **Only a part of weight zero leaves the total above the bound.** -/
theorem Exact.eq_zero_of_give (h : Exact bound total (w :: held)) (hover : bound < total)
    (hrest : total - w ≠ 0) : w = 0 := by
  have hone := h.bounded.resolve_left (by omega)
  by_contra hw
  have hout : held.countP (0 < ·) = 0 := by simpa [Nat.pos_of_ne_zero hw] using hone
  have htotal := h.total_eq
  rw [List.sum_cons, countP_pos_eq_zero_iff.mp hout] at htotal
  omega

end Aquic.Budget
