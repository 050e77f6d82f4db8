import Mathlib.Algebra.Group.Nat.Defs
import Mathlib.Data.List.Basic

/-!
# The weighted queue

`sync/mpsc/weighted`: a queue whose items have weights, bounded by the sum of the weights. A sender
reserves the weight first and enqueues the item afterwards; the receiver takes the item first and
releases the weight afterwards. Each of these is one atomic step of the multi-threaded channel.
-/

namespace Aquic.Sync

/-- Whether one more item of weight `itemWeight` fits: an empty queue takes anything. -/
def hasCapacity (currentOccupation itemWeight bound : Nat) : Bool :=
  currentOccupation = 0 ∨ currentOccupation + itemWeight < 2 ^ 64 ∧
    currentOccupation + itemWeight ≤ bound

/-- What a call of `send` or `try_send` ends with. -/
inductive Weighted.SendResult where
  | ok
  | closed
  | full
  deriving DecidableEq, Repr

structure Weighted (α : Type) where
  /-- The oldest item first. -/
  queue : List (α × Nat)
  occupation : Nat
  bound : Nat
  deriving DecidableEq, Repr

namespace Weighted

variable {α : Type}

/-- `channel(bound)`. -/
def new (bound : Nat) : Weighted α := { queue := [], occupation := 0, bound := max bound 1 }

/-- The compare-and-exchange of `send`. -/
def reserve (q : Weighted α) (weight : Nat) : Weighted α :=
  { q with occupation := q.occupation + weight }

def enqueue (q : Weighted α) (value : α) (weight : Nat) : Weighted α :=
  { q with queue := q.queue ++ [(value, weight)] }

/-- The `fetch_sub` of `recv`. -/
def release (q : Weighted α) (weight : Nat) : Weighted α :=
  { q with occupation := q.occupation - weight }

end Weighted

end Aquic.Sync
