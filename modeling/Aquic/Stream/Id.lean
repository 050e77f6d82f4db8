import Mathlib.Algebra.Group.Nat.Defs
import Mathlib.Data.Nat.Basic

/-!
# Stream ids

`stream/types/id.rs`: an id is at most `2 ^ 62 - 1`. Its lowest bit tells the initiator and the next
one the direction, so that the ids of one sequence are four apart.
-/

namespace Aquic.Stream

/-- `StreamId::MAX`. -/
def maxStreamId : Nat := 2 ^ 62 - 1

structure StreamId where
  raw : Nat
  le_max : raw ≤ maxStreamId
  deriving DecidableEq, Repr

namespace StreamId

/-- `StreamId::new`; `none` is `StreamIdError`. -/
def new (value : Nat) : Option StreamId :=
  if h : value ≤ maxStreamId then some ⟨value, h⟩ else none

/-- `StreamId::initial`. -/
def initial (client bidirectional : Bool) : StreamId :=
  match client, bidirectional with
  | true, true => ⟨0, by decide⟩
  | true, false => ⟨2, by decide⟩
  | false, true => ⟨1, by decide⟩
  | false, false => ⟨3, by decide⟩

/-- `StreamId::next`; an id is far from the largest `u64`, so the addition does not overflow. -/
def next (id : StreamId) : Option StreamId := new (id.raw + 4)

/-- `StreamId::previous`; `none` for the first id of a sequence. -/
def previous (id : StreamId) : Option StreamId :=
  if id.raw < 4 then none else new (id.raw - 4)

/-- Initiated by the server. -/
def isServer (id : StreamId) : Bool := id.raw &&& 1 == 1

def isClient (id : StreamId) : Bool := !id.isServer

/-- Unidirectional. -/
def isUni (id : StreamId) : Bool := id.raw &&& 2 == 2

def isBidi (id : StreamId) : Bool := !id.isUni

/-- The two lowest bits stay the same when four is added. -/
theorem and_add_four (x mask : Nat) (h : mask < 4) : (x + 4) &&& mask = x &&& mask := by
  have hlow (y : Nat) : y &&& mask = y % 4 &&& mask := by
    have hmask : 3 &&& mask = mask := by
      rw [Nat.and_comm, show 3 = 2 ^ 2 - 1 by decide, Nat.and_two_pow_sub_one_eq_mod]
      exact Nat.mod_eq_of_lt h
    calc y &&& mask = y &&& (3 &&& mask) := by rw [hmask]
      _ = (y &&& (2 ^ 2 - 1)) &&& mask := (Nat.and_assoc ..).symm
      _ = y % 4 &&& mask := by rw [Nat.and_two_pow_sub_one_eq_mod]
  rw [hlow, Nat.add_mod_right, ← hlow]

section

variable {id id' : StreamId}

theorem raw_next (h : id.next = some id') : id'.raw = id.raw + 4 := by
  unfold next new at h
  split at h
  · cases h
    rfl
  · cases h

/-- All ids of a sequence have one initiator. -/
theorem isServer_next (h : id.next = some id') : id'.isServer = id.isServer := by
  rw [isServer, isServer, raw_next h, and_add_four _ _ (by decide)]

/-- All ids of a sequence have one direction. -/
theorem isUni_next (h : id.next = some id') : id'.isUni = id.isUni := by
  rw [isUni, isUni, raw_next h, and_add_four _ _ (by decide)]

theorem isServer_initial (client bidirectional : Bool) :
    (initial client bidirectional).isServer = !client := by
  cases client <;> cases bidirectional <;> rfl

theorem isUni_initial (client bidirectional : Bool) :
    (initial client bidirectional).isUni = !bidirectional := by
  cases client <;> cases bidirectional <;> rfl

end

end StreamId

structure Priority where
  /-- An `i8`; higher values indicate higher priority. -/
  urgency : Int8
  /-- How bandwidth is shared among streams of the same urgency. -/
  incremental : Bool
  deriving DecidableEq, Repr

end Aquic.Stream
