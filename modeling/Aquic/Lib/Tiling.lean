import Mathlib.Order.Nat

/-!
# Tilings of an interval

`Tiles start stop a xs b` says that the items `xs`, in this order, cut the interval `[a, b)` into
non-empty consecutive pieces `[start x, stop x)`. It is the shape of memory that is handed out in
order and given back in order: a new piece goes to the end (`Tiles.append`), the oldest one leaves
from the front (definitionally), and everything in between is pairwise disjoint (`Tiles.pairwise`).
-/

namespace Aquic.Tiling

variable {α : Type*} {start stop : α → Nat}

/-- The items cut `[a, b)` into non-empty consecutive pieces. -/
def Tiles (start stop : α → Nat) : Nat → List α → Nat → Prop
  | a, [], b => a = b
  | a, x :: xs, b => start x = a ∧ a < stop x ∧ Tiles start stop (stop x) xs b

theorem Tiles.le {a b : Nat} {xs : List α} (h : Tiles start stop a xs b) : a ≤ b := by
  induction xs generalizing a with
  | nil => exact Nat.le_of_eq h
  | cons x xs ih => exact (Nat.le_of_lt h.2.1).trans (ih h.2.2)

/-- Only the empty list tiles an empty interval. -/
theorem Tiles.eq_nil {a : Nat} {xs : List α} (h : Tiles start stop a xs a) : xs = [] := by
  cases xs with
  | nil => rfl
  | cons x xs => exact absurd (Nat.lt_of_lt_of_le h.2.1 h.2.2.le) (Nat.lt_irrefl a)

/-- A non-empty tiling covers something. -/
theorem Tiles.lt {a b : Nat} {xs : List α} (h : Tiles start stop a xs b) (hne : xs ≠ []) :
    a < b := by
  refine Nat.lt_of_le_of_ne h.le fun heq => hne ?_
  subst heq
  exact h.eq_nil

/-- Every piece is non-empty and inside. -/
theorem Tiles.mem {a b : Nat} {xs : List α} (h : Tiles start stop a xs b) {x : α} (hx : x ∈ xs) :
    a ≤ start x ∧ start x < stop x ∧ stop x ≤ b := by
  induction xs generalizing a with
  | nil => simp at hx
  | cons y ys ih =>
    obtain ⟨hstart, hlt, hrest⟩ := h
    rcases List.mem_cons.mp hx with rfl | hx
    · exact ⟨hstart.ge, hstart ▸ hlt, hrest.le⟩
    · obtain ⟨h₁, h₂, h₃⟩ := ih hrest hx
      exact ⟨(Nat.le_of_lt hlt).trans h₁, h₂, h₃⟩

/-- Extending the interval by one more piece. -/
theorem Tiles.append {a : Nat} {xs : List α} {x : α} (h : Tiles start stop a xs (start x))
    (hx : start x < stop x) : Tiles start stop a (xs ++ [x]) (stop x) := by
  induction xs generalizing a with
  | nil =>
    obtain rfl : a = start x := h
    exact ⟨rfl, hx, rfl⟩
  | cons y ys ih => exact ⟨h.1, h.2.1, ih h.2.2⟩

/-- Earlier pieces end before later ones start. -/
theorem Tiles.pairwise {a b : Nat} {xs : List α} (h : Tiles start stop a xs b) :
    xs.Pairwise fun x y => stop x ≤ start y := by
  induction xs generalizing a with
  | nil => exact .nil
  | cons x xs ih => exact .cons (fun y hy => (h.2.2.mem hy).1) (ih h.2.2)

end Aquic.Tiling
