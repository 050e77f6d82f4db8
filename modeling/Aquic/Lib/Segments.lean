/-!
# Lists in segments

A list that holds several parts of one size is cut again by their number (`split`), or by their size
(`series`, where the last part may be shorter).
-/

namespace Aquic.Segments

variable {α : Type}

/-- `count` parts of `size` elements, one after the other. -/
def slices (size : Nat) : Nat → List α → List (List α)
  | 0, _ => []
  | count + 1, xs => xs.take size :: slices size count (xs.drop size)

/-- The equal parts of a list of `count` parts; a list of no parts is one part. -/
def split (count : Nat) (xs : List α) : List (List α) :=
  slices (xs.length / max count 1) (max count 1) xs

/-- The parts of `size` elements of a list, and a shorter one for what is left. -/
def series (size : Nat) (xs : List α) : List (List α) :=
  slices size ((xs.length + size - 1) / size) xs

theorem length_slices (size count : Nat) (xs : List α) :
    (slices size count xs).length = count := by
  induction count generalizing xs with
  | zero => rfl
  | succ count ih => rw [slices, List.length_cons, ih]

/-- The parts from the `k`-th on. -/
theorem drop_slices (size count k : Nat) (xs : List α) :
    (slices size count xs).drop k = slices size (count - k) (xs.drop (k * size)) := by
  induction k generalizing count xs with
  | zero => rw [Nat.zero_mul, List.drop_zero, List.drop_zero, Nat.sub_zero]
  | succ k ih =>
    cases count with
    | zero =>
      rw [Nat.zero_sub]
      rfl
    | succ count =>
      rw [slices, List.drop_succ_cons, ih, Nat.succ_sub_succ, List.drop_drop, Nat.succ_mul,
        Nat.add_comm size]

/-- The `k`-th part, and those behind it. -/
theorem drop_slices_cons {size count k : Nat} (h : k < count) (xs : List α) :
    (slices size count xs).drop k =
      (xs.drop (k * size)).take size :: (slices size count xs).drop (k + 1) := by
  obtain ⟨left, rfl⟩ := Nat.exists_eq_add_of_lt h
  have hleft : k + left + 1 - k = left + 1 := by omega
  have hleft' : k + left + 1 - (k + 1) = left := by omega
  rw [drop_slices, drop_slices, hleft, hleft', slices, List.drop_drop, Nat.succ_mul]

/-- Parts of one size are found again. -/
theorem slices_flatten {size : Nat} {xss : List (List α)} (h : ∀ xs ∈ xss, xs.length = size) :
    slices size xss.length xss.flatten = xss := by
  induction xss with
  | nil => rfl
  | cons xs xss ih =>
    have hxs : xs.length = size := h xs List.mem_cons_self
    have hxss : ∀ ys ∈ xss, ys.length = size := fun ys hys => h ys (List.mem_cons_of_mem xs hys)
    rw [List.length_cons, List.flatten_cons, slices, ← hxs, List.take_left, List.drop_left, hxs,
      ih hxss]

theorem length_flatten {size : Nat} {xss : List (List α)} (h : ∀ xs ∈ xss, xs.length = size) :
    xss.flatten.length = xss.length * size := by
  induction xss with
  | nil => rw [List.flatten_nil, List.length_nil, List.length_nil, Nat.zero_mul]
  | cons xs xss ih =>
    have hxss : ∀ ys ∈ xss, ys.length = size := fun ys hys => h ys (List.mem_cons_of_mem xs hys)
    rw [List.flatten_cons, List.length_append, h xs List.mem_cons_self, ih hxss, List.length_cons,
      Nat.succ_mul, Nat.add_comm]

/-- **A list of equal parts is split into these parts.** -/
theorem split_flatten {size : Nat} {xss : List (List α)} (hne : xss ≠ [])
    (h : ∀ xs ∈ xss, xs.length = size) : split xss.length xss.flatten = xss := by
  have hpos : 0 < xss.length := List.length_pos_iff.mpr hne
  have hmax : max xss.length 1 = xss.length := Nat.max_eq_left hpos
  rw [split, hmax, length_flatten h, Nat.mul_div_cancel_left size hpos]
  exact slices_flatten h

/-- A list that is not segmented is its only part. -/
theorem split_one (xs : List α) : split 1 xs = [xs] := by
  have hmax : max 1 1 = 1 := Nat.max_self 1
  rw [split, hmax, Nat.div_one, slices, slices, List.take_length]

/-- Where the parts have all the same size, their number says the same as their size. -/
theorem split_eq_series {size : Nat} {xs : List α} (hsize : 0 < size) (hne : xs ≠ [])
    (h : size ∣ xs.length) : split (xs.length / size) xs = series size xs := by
  obtain ⟨count, hcount⟩ := h
  have hlength : 0 < xs.length := List.length_pos_iff.mpr hne
  have hpos : 0 < count := by
    rcases Nat.eq_zero_or_pos count with rfl | hpos
    · rw [hcount, Nat.mul_zero] at hlength
      exact absurd hlength (Nat.lt_irrefl 0)
    · exact hpos
  have hquotient : xs.length / size = count := by
    rw [hcount, Nat.mul_div_cancel_left count hsize]
  have hmax : max count 1 = count := Nat.max_eq_left hpos
  have hseries : (xs.length + size - 1) / size = count := by
    rw [hcount, Nat.add_sub_assoc hsize, Nat.mul_add_div hsize,
      Nat.div_eq_of_lt (Nat.sub_lt hsize Nat.one_pos), Nat.add_zero]
  have hpart : xs.length / count = size := by
    rw [hcount, Nat.mul_div_cancel size hpos]
  rw [hquotient, split, hmax, hpart, series, hseries]

end Aquic.Segments
