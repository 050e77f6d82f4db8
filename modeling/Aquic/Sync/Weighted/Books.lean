import Aquic.Lib.Budget
import Aquic.Lib.Word
import Aquic.Sync.Weighted
import Mathlib.Logic.Relation

/-!
# The books of a weighted channel

What a weighted channel is for, without its callers: items whose weights are charged against a bound
go through a queue. An item is *reserved* when its weight is charged, then *enqueued*, then *taken*
by the receiver, and *released* when its weight is discharged. The single-threaded channel makes
the first two steps at once, and the last two; in the multi-threaded channel other callers may act
between any of them.

The arithmetic is that of machine words: an overflow or an underflow would wrap. `Books.Sound` is what
no sequence of steps destroys: the occupation is the weight of the items that are out, and the items
leave in the order in which they entered.
-/

namespace Aquic.Sync.Weighted

open Relation (ReflTransGen)
open Word

variable {α : Type}

theorem hasCapacity_iff {occupation weight bound : Nat} :
    hasCapacity occupation weight bound = true ↔
      occupation = 0 ∨ occupation + weight < 2 ^ 64 ∧ occupation + weight ≤ bound := by
  simp only [hasCapacity, decide_eq_true_eq]

/-- What fits does not overflow. -/
theorem add_lt_of_hasCapacity {occupation weight bound : Nat} (hweight : weight < 2 ^ 64)
    (h : hasCapacity occupation weight bound = true) : occupation + weight < 2 ^ 64 := by
  rcases hasCapacity_iff.mp h with hzero | ⟨hlt, -⟩
  · omega
  · exact hlt

structure Books (α : Type) where
  occupation : Nat
  /-- The items whose weight is charged and that are not in the queue yet, in any order. -/
  reserved : List (α × Nat)
  queue : List (α × Nat)
  /-- The item the receiver has taken from the queue, as long as its weight is charged. -/
  taken : Option (α × Nat)
  /-- History: what was put into the queue. -/
  enqueued : List α
  /-- History: what was taken out of it. -/
  received : List α

namespace Books

def empty : Books α where
  occupation := 0
  reserved := []
  queue := []
  taken := none
  enqueued := []
  received := []

/-- The items that are charged. -/
def charged (b : Books α) : List (α × Nat) := b.queue ++ b.reserved ++ b.taken.toList

inductive Step (bound : Nat) : Books α → Books α → Prop
  | reserve {b : Books α} (item : α × Nat) :
      hasCapacity b.occupation item.2 bound = true → item.2 < 2 ^ 64 →
      Step bound b { b with
        occupation := wrappingAdd 64 b.occupation item.2, reserved := item :: b.reserved }
  | enqueue {b : Books α} {item : α × Nat} {rest : List (α × Nat)} :
      b.reserved.Perm (item :: rest) →
      Step bound b { b with
        reserved := rest, queue := b.queue ++ [item], enqueued := b.enqueued ++ [item.1] }
  | take {b : Books α} {item : α × Nat} {rest : List (α × Nat)} :
      b.queue = item :: rest → b.taken = none →
      Step bound b { b with
        queue := rest, taken := some item, received := b.received ++ [item.1] }
  | release {b : Books α} (item : α × Nat) : b.taken = some item →
      Step bound b { b with occupation := wrappingSub 64 b.occupation item.2, taken := none }
  | reorder {b : Books α} {reserved : List (α × Nat)} : b.reserved.Perm reserved →
      Step bound b { b with reserved := reserved }

structure Sound (bound : Nat) (b : Books α) : Prop where
  exact : Budget.Exact bound b.occupation (b.charged.map Prod.snd)
  in_order : b.enqueued = b.received ++ b.queue.map Prod.fst
  lt : b.occupation < 2 ^ 64

theorem Sound.empty (bound : Nat) : Sound bound (empty : Books α) :=
  ⟨.nil bound, rfl, Nat.two_pow_pos 64⟩

/-- What the receiver has taken is one of the parts of the occupation. -/
theorem Sound.exact_of_taken {bound : Nat} {b : Books α} (h : Sound bound b) {item : α × Nat}
    (htaken : b.taken = some item) :
    Budget.Exact bound b.occupation (item.2 :: (b.queue ++ b.reserved).map Prod.snd) := by
  refine h.exact.perm ?_
  rw [charged, htaken, List.map_append]
  exact List.perm_append_singleton ..

theorem Sound.le_of_taken {bound : Nat} {b : Books α} (h : Sound bound b) {item : α × Nat}
    (htaken : b.taken = some item) : item.2 ≤ b.occupation :=
  (h.exact_of_taken htaken).le

theorem Sound.step {bound : Nat} {b b' : Books α} (h : Sound bound b) (hstep : Step bound b b') :
    Sound bound b' := by
  cases hstep with
  | reserve item hfits hweight =>
    have hadd := add_lt_of_hasCapacity hweight hfits
    have hfit : b.occupation = 0 ∨ b.occupation + item.2 ≤ bound :=
      (hasCapacity_iff.mp hfits).imp_right And.right
    refine ⟨?_, h.in_order, Nat.mod_lt _ (by decide)⟩
    rw [wrappingAdd_of_lt hadd]
    refine (h.exact.take hfit).perm ?_
    rw [← List.map_cons (f := Prod.snd)]
    refine List.Perm.map _ ?_
    simp only [charged, List.append_assoc, List.cons_append]
    exact List.perm_middle.symm
  | @enqueue item rest hperm =>
    refine ⟨h.exact.perm (List.Perm.map _ ?_), ?_, h.lt⟩
    · simp only [charged, List.append_assoc]
      exact (hperm.append_right _).append_left _
    · simp [h.in_order]
  | @take item rest hqueue htaken =>
    refine ⟨h.exact.perm (List.Perm.map _ ?_), ?_, h.lt⟩
    · simp only [charged, hqueue, htaken, Option.toList_none, Option.toList_some, List.append_nil,
        List.cons_append]
      exact (List.perm_append_singleton ..).symm
    · simp [h.in_order, hqueue]
  | release item htaken =>
    have hle := h.le_of_taken htaken
    refine ⟨?_, h.in_order, ?_⟩
    · rw [wrappingSub_of_le hle]
      refine (h.exact_of_taken htaken).give.perm ?_
      simp [charged]
    · show wrappingSub 64 b.occupation item.2 < 2 ^ 64
      rw [wrappingSub_of_le hle]
      exact Nat.lt_of_le_of_lt (Nat.sub_le ..) h.lt
  | reorder hperm =>
    refine ⟨h.exact.perm (List.Perm.map _ ?_), h.in_order, h.lt⟩
    exact (hperm.append_left _).append_right _

theorem Sound.steps {bound : Nat} {b b' : Books α} (h : Sound bound b)
    (hsteps : ReflTransGen (Step bound) b b') : Sound bound b' := by
  induction hsteps with
  | refl => exact h
  | tail _ hstep ih => exact ih.step hstep

end Books

end Aquic.Sync.Weighted
