import Aquic.Lib.Word
import Mathlib.Data.Int.ModEq

/-!
# One level of the wheel timer

`util/timer/level.rs`: a ring of buckets, a cursor and an epoch. `schedule` appends an event to the
bucket `duration_ticks` places after the cursor, `tick` detaches the bucket under the cursor and
moves on, `cancel` overwrites one element with the default value.

The ring is shared (`Rc<RefCell<..>>`) with the detached buckets only so that a dropped bucket can
give its allocation back; that never changes the *contents* of the ring (`giveBack_eq`), so the
model keeps the contents alone. Indices and epochs are `usize`, that is 64-bit words.

What the rest of the development uses is the ring seen from the cursor: `Level.upcoming k` is the
bucket that becomes current after `k` more ticks, and each operation is described by what it does
to `upcoming`.
-/

namespace Aquic.Timer

open Aquic.Word

/-- A key for a scheduled event inside a level, used to cancel the event. -/
structure LevelKey where
  bucketIndex : Nat
  elementIndex : Nat
  epoch : Nat
  deriving DecidableEq, Repr

/-- An independent wheel timer level. -/
structure Level (α : Type*) where
  /-- Scheduled event buckets, one for each tick. -/
  buckets : List (List α)
  /-- Current bucket index. -/
  index : Nat
  /-- Every full iteration over the buckets increments the epoch. -/
  epoch : Nat
  deriving DecidableEq, Repr

namespace Level

variable {α : Type*}

/-- `Level::new`; the assertion on the number of buckets is `none`. -/
def new (bucketsCount : Nat) : Option (Level α) :=
  -- `is_power_of_two` of a word: it has exactly one bit set
  if bucketsCount ≠ 0 ∧ bucketsCount &&& (bucketsCount - 1) = 0 then
    some { buckets := List.replicate bucketsCount [], index := 0, epoch := 0 }
  else
    none

/-- `buckets.len() - 1`. -/
def mask (l : Level α) : Nat := l.buckets.length - 1

/-- `Level::schedule`, with the `debug_assert!` compiled out. -/
def schedule (l : Level α) (event : α) (durationTicks : Nat) : Level α × LevelKey :=
  let bucketIndex := wrappingAdd usizeBits l.index durationTicks &&& l.mask
  let epoch := wrappingAdd usizeBits l.epoch (if bucketIndex < l.index then 1 else 0)
  let elementIndex := (l.buckets.getD bucketIndex []).length
  ({ l with buckets := l.buckets.modify bucketIndex (· ++ [event]) },
    { bucketIndex, elementIndex, epoch })

/-- `Level::tick`: detaches the current bucket and moves the cursor. -/
def tick (l : Level α) : Level α × List α :=
  let elements := l.buckets.getD l.index []
  let index := wrappingAdd usizeBits l.index 1 &&& l.mask
  ({ buckets := l.buckets.set l.index [], index,
     epoch := wrappingAdd usizeBits l.epoch (if index = 0 then 1 else 0) },
    elements)

/-- `Level::cancel`: the event is replaced with the default value, unless its bucket is gone. -/
def cancel [Inhabited α] (l : Level α) (key : LevelKey) : Level α :=
  if key.epoch < l.epoch then
    l
  else if key.epoch = l.epoch ∧ key.bucketIndex < l.index then
    l
  else
    { l with buckets := l.buckets.modify key.bucketIndex (·.set key.elementIndex default) }

/-- `Drop for Bucket`: the cleared storage of a detached bucket replaces that of its source, if that
is empty and has less capacity. -/
def giveBack (l : Level α) (sourceIndex : Nat) (lessCapacity : Bool) : Level α :=
  { l with
    buckets := l.buckets.modify sourceIndex fun sourceElements =>
      if sourceElements.isEmpty && lessCapacity then [] else sourceElements }

theorem giveBack_eq (l : Level α) (sourceIndex : Nat) (lessCapacity : Bool) :
    l.giveBack sourceIndex lessCapacity = l := by
  have hid : (fun sourceElements : List α =>
      if sourceElements.isEmpty && lessCapacity then [] else sourceElements) = id := by
    funext elements
    cases elements <;> simp
  unfold giveBack
  rw [hid, List.modify_id]

/-! ## The ring seen from the cursor -/

/-- The bucket that `tick` detaches after `k` more ticks. -/
def upcoming (l : Level α) (k : Nat) : List α := l.buckets.getD ((l.index + k) % l.buckets.length) []

/-- A ring of `2 ^ m` buckets whose cursor is inside, small enough for a word. -/
structure Wf (l : Level α) : Prop where
  isPowerOfTwo : l.buckets.length.isPowerOfTwo
  index_lt : l.index < l.buckets.length
  length_lt : l.buckets.length < 2 ^ usizeBits

theorem Wf.length_pos {l : Level α} (h : l.Wf) : 0 < l.buckets.length :=
  Nat.pos_of_isPowerOfTwo h.isPowerOfTwo

theorem new_eq_some {n : Nat} {l : Level α} (h : new n = some l) :
    n.isPowerOfTwo ∧ l = { buckets := List.replicate n [], index := 0, epoch := 0 } := by
  unfold new at h
  split at h
  · next hpow =>
    exact ⟨Nat.ne_zero_and_sub_one_eq_zero_iff_isPowerOfTwo.mp hpow, (Option.some.inj h).symm⟩
  · exact absurd h (by simp)

theorem new_wf {n : Nat} {l : Level α} (h : new n = some l) (hn : n < 2 ^ usizeBits) : l.Wf := by
  obtain ⟨hpow, rfl⟩ := new_eq_some h
  exact ⟨by simpa using hpow, by simpa using Nat.pos_of_isPowerOfTwo hpow, by simpa using hn⟩

/-- A new level holds nothing. -/
theorem upcoming_new {n : Nat} {l : Level α} (h : new n = some l) (k : Nat) : l.upcoming k = [] := by
  obtain ⟨-, rfl⟩ := new_eq_some h
  simp [upcoming, List.getD_eq_getElem?_getD, List.getElem?_replicate]
  split <;> rfl

/-- The masked, wrapping sum of cursor and offset is the sum modulo the ring. -/
theorem masked_index {l : Level α} (h : l.Wf) (k : Nat) :
    wrappingAdd usizeBits l.index k &&& l.mask = (l.index + k) % l.buckets.length := by
  have hdvd : l.buckets.length ∣ 2 ^ usizeBits := by
    obtain ⟨m, hm⟩ := h.isPowerOfTwo
    rw [hm]
    exact Nat.pow_dvd_pow 2 (Nat.le_of_lt ((Nat.pow_lt_pow_iff_right (by decide)).mp
      (hm ▸ h.length_lt)))
  unfold mask wrappingAdd
  rw [and_pred_of_isPowerOfTwo h.isPowerOfTwo, Nat.mod_mod_of_dvd _ hdvd]

/-- Two offsets within one revolution name the same bucket only if they are equal. -/
theorem offset_inj {n i j k : Nat} (hj : j < n) (hk : k < n) (h : (i + j) % n = (i + k) % n) :
    j = k := by
  have hmod : j % n = k % n := Nat.ModEq.add_left_cancel' i h
  rwa [Nat.mod_eq_of_lt hj, Nat.mod_eq_of_lt hk] at hmod

/-! ### `schedule` -/

theorem schedule_length (l : Level α) (event : α) (k : Nat) :
    (l.schedule event k).1.buckets.length = l.buckets.length := by
  simp [schedule]

theorem schedule_wf {l : Level α} (h : l.Wf) (event : α) (k : Nat) :
    (l.schedule event k).1.Wf := by
  refine ⟨?_, ?_, ?_⟩
  · rw [schedule_length]; exact h.isPowerOfTwo
  · rw [schedule_length]; exact h.index_lt
  · rw [schedule_length]; exact h.length_lt

/-- Within one revolution an event lands in the bucket that comes up `k` ticks from now, behind the
events that are already there. -/
theorem upcoming_schedule {l : Level α} (h : l.Wf) (event : α) {j k : Nat}
    (hj : j < l.buckets.length) (hk : k < l.buckets.length) :
    (l.schedule event k).1.upcoming j
      = if j = k then l.upcoming j ++ [event] else l.upcoming j := by
  unfold upcoming
  rw [schedule_length]
  simp only [schedule, masked_index h]
  have hlt : (l.index + j) % l.buckets.length < l.buckets.length := Nat.mod_lt _ h.length_pos
  by_cases hjk : j = k
  · subst hjk
    simp [List.getD_eq_getElem?_getD, List.getElem?_eq_getElem hlt]
  · have hne : (l.index + k) % l.buckets.length ≠ (l.index + j) % l.buckets.length :=
      fun heq => hjk (offset_inj hk hj heq).symm
    simp [List.getD_eq_getElem?_getD, hne, hjk]

/-! ### `tick` -/

theorem tick_length (l : Level α) : l.tick.1.buckets.length = l.buckets.length := by
  simp [tick]

theorem tick_wf {l : Level α} (h : l.Wf) : l.tick.1.Wf := by
  refine ⟨?_, ?_, ?_⟩
  · rw [tick_length]; exact h.isPowerOfTwo
  · rw [tick_length]
    show wrappingAdd usizeBits l.index 1 &&& l.mask < _
    rw [masked_index h]
    exact Nat.mod_lt _ h.length_pos
  · rw [tick_length]; exact h.length_lt

/-- A tick detaches the bucket under the cursor. -/
theorem tick_elements {l : Level α} (h : l.Wf) : l.tick.2 = l.upcoming 0 := by
  simp [tick, upcoming, Nat.mod_eq_of_lt h.index_lt]

/-- A tick brings every other bucket one place closer; the detached one is empty, a whole
revolution away. -/
theorem upcoming_tick {l : Level α} (h : l.Wf) {j : Nat} (hj : j < l.buckets.length) :
    l.tick.1.upcoming j
      = if j + 1 = l.buckets.length then [] else l.upcoming (j + 1) := by
  unfold upcoming
  rw [tick_length]
  simp only [tick, masked_index h, Nat.mod_add_mod]
  have hassoc : l.index + 1 + j = l.index + (j + 1) := by omega
  have hlt : (l.index + (j + 1)) % l.buckets.length < l.buckets.length :=
    Nat.mod_lt _ h.length_pos
  rw [hassoc]
  by_cases hlast : j + 1 = l.buckets.length
  · have hcur : (l.index + (j + 1)) % l.buckets.length = l.index := by
      rw [hlast, Nat.add_mod_right, Nat.mod_eq_of_lt h.index_lt]
    rw [hcur, if_pos hlast]
    simp [List.getD_eq_getElem?_getD, h.index_lt]
  · have hne : l.index ≠ (l.index + (j + 1)) % l.buckets.length := by
      intro heq
      have hzero : (l.index + 0) % l.buckets.length = (l.index + (j + 1)) % l.buckets.length := by
        rw [Nat.add_zero, Nat.mod_eq_of_lt h.index_lt]; exact heq
      have := offset_inj h.length_pos (by omega) hzero
      omega
    rw [if_neg hlast]
    simp [List.getD_eq_getElem?_getD, hne]

/-! ### `cancel` -/

theorem cancel_length [Inhabited α] (l : Level α) (key : LevelKey) :
    (l.cancel key).buckets.length = l.buckets.length := by
  unfold cancel
  split
  · rfl
  · split <;> simp

theorem cancel_index [Inhabited α] (l : Level α) (key : LevelKey) :
    (l.cancel key).index = l.index := by
  unfold cancel
  split
  · rfl
  · split <;> rfl

theorem cancel_wf [Inhabited α] {l : Level α} (h : l.Wf) (key : LevelKey) : (l.cancel key).Wf := by
  refine ⟨?_, ?_, ?_⟩
  · rw [cancel_length]; exact h.isPowerOfTwo
  · rw [cancel_length, cancel_index]; exact h.index_lt
  · rw [cancel_length]; exact h.length_lt

/-- Cancelling moves nothing: what a bucket holds afterwards it held before, or it is the default
value written over the cancelled event. -/
theorem mem_upcoming_cancel [Inhabited α] {l : Level α} {key : LevelKey} {k : Nat} {e : α}
    (he : e ∈ (l.cancel key).upcoming k) : e = default ∨ e ∈ l.upcoming k := by
  unfold upcoming at he ⊢
  rw [cancel_length, cancel_index] at he
  unfold cancel at he
  split at he
  · exact Or.inr he
  · split at he
    · exact Or.inr he
    · generalize (l.index + k) % l.buckets.length = i at he ⊢
      rw [List.getD_eq_getElem?_getD, List.getElem?_modify] at he
      rw [List.getD_eq_getElem?_getD]
      cases hb : l.buckets[i]? with
      | none => simp [hb] at he
      | some bucket =>
        by_cases hi : key.bucketIndex = i
        · simp only [hb, hi, ↓reduceIte, Option.map_eq_map, Option.map_some,
            Option.getD_some] at he
          exact (List.mem_or_eq_of_mem_set he).symm
        · exact Or.inr (by simpa [hb, hi] using he)

end Level

end Aquic.Timer
